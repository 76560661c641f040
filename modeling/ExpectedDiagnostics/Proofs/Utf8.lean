import ExpectedDiagnostics.Utf8
import Mathlib.Data.String.Basic
import Mathlib.Tactic.Common

/-!
# Characters and octets

Reading the octets of a text gives the text back. Each character begins at its own octet
(`located`), so a range of octets that begins and ends where characters do stands for the characters
that begin in it (`between`), and reading the octets of the range gives these characters.

Main results:

* `decode_encode` — what has been written is read back.
* `decode_range` — the same for a range between two boundaries of characters.
* `between_isPrefix` — the characters of a range are the first ones from its first character on.
-/

namespace ExpectedDiagnostics.Utf8

/-! ## One character -/

theorem toNat_ofNat {n : Nat} (hn : n < 256) : (UInt8.ofNat n).toNat = n :=
  Nat.mod_eq_of_lt hn

theorem toNat_continuation (n : Nat) :
    (UInt8.ofNat (n % 0x40 + 0x80)).toNat = n % 64 + 0x80 :=
  toNat_ofNat (by omega)

theorem length?_eq (a : UInt8) : length? a =
    if a.toNat ≤ 0x7F then some 1
    else if 0xC2 ≤ a.toNat ∧ a.toNat ≤ 0xDF then some 2
    else if 0xE0 ≤ a.toNat ∧ a.toNat ≤ 0xEF then some 3
    else if 0xF0 ≤ a.toNat ∧ a.toNat ≤ 0xF4 then some 4
    else none := by
  unfold length?
  simp only [UInt8.le_iff_toNat_le, Bool.and_eq_true, decide_eq_true_eq]
  rfl

theorem isContinuation_iff {o : UInt8} :
    isContinuation o = true ↔ 0x80 ≤ o.toNat ∧ o.toNat ≤ 0xBF := by
  unfold isContinuation
  simp only [UInt8.le_iff_toNat_le, Bool.and_eq_true, decide_eq_true_eq]
  rfl

/-- A continuation may be the second octet if it keeps to the narrower range after the four leading
octets that ask for one. -/
theorem isSecond_of {lead o : UInt8} (hlow : 0x80 ≤ o.toNat) (hhigh : o.toNat ≤ 0xBF)
    (hE0 : lead.toNat = 0xE0 → 0xA0 ≤ o.toNat) (hED : lead.toNat = 0xED → o.toNat ≤ 0x9F)
    (hF0 : lead.toNat = 0xF0 → 0x90 ≤ o.toNat) (hF4 : lead.toNat = 0xF4 → o.toNat ≤ 0x8F) :
    isSecond lead o = true := by
  unfold isSecond isContinuation
  simp only [beq_iff_eq, ← UInt8.toNat_inj, UInt8.le_iff_toNat_le]
  -- one case for each of the four leading octets, and one for the others
  split
  · rename_i h
    simpa using ⟨hE0 h, hhigh⟩
  · split
    · rename_i h
      simpa using ⟨hlow, hED h⟩
    · split
      · rename_i h
        simpa using ⟨hF0 h, hhigh⟩
      · split
        · rename_i h
          simpa using ⟨hlow, hF4 h⟩
        · simpa using ⟨hlow, hhigh⟩

theorem decodeFrom_one {a : UInt8} (ha : a.toNat ≤ 0x7F) (pos : Nat) (rest : List UInt8) :
    decodeFrom pos (a :: rest) =
      (decodeFrom (pos + 1) rest).map (Char.ofNat a.toNat :: ·) := by
  rw [decodeFrom, length?_eq, if_pos ha]
  cases decodeFrom (pos + 1) rest <;> rfl

theorem decodeFrom_two {a b : UInt8} (hlow : 0xC2 ≤ a.toNat) (hhigh : a.toNat ≤ 0xDF)
    (hb : isSecond a b = true) (pos : Nat) (rest : List UInt8) :
    decodeFrom pos (a :: b :: rest) = (decodeFrom (pos + 2) rest).map
      (Char.ofNat (a.toNat % 32 * 64 + payload b) :: ·) := by
  rw [decodeFrom, length?_eq, if_neg (by omega), if_pos ⟨hlow, hhigh⟩]
  simp only [hb, Bool.not_true, Bool.false_eq_true, if_false, beq_self_eq_true, if_true]
  cases decodeFrom (pos + 2) rest <;> rfl

theorem decodeFrom_three {a b c : UInt8} (hlow : 0xE0 ≤ a.toNat) (hhigh : a.toNat ≤ 0xEF)
    (hb : isSecond a b = true) (hc : isContinuation c = true) (pos : Nat) (rest : List UInt8) :
    decodeFrom pos (a :: b :: c :: rest) = (decodeFrom (pos + 3) rest).map
      (Char.ofNat ((a.toNat % 16 * 64 + payload b) * 64 + payload c) :: ·) := by
  rw [decodeFrom, length?_eq, if_neg (by omega), if_neg (by omega), if_pos ⟨hlow, hhigh⟩]
  simp only [hb, hc, Bool.not_true, Bool.false_eq_true, if_false, beq_self_eq_true, if_true,
    show ((3 : Nat) == 2) = false from rfl]
  cases decodeFrom (pos + 3) rest <;> rfl

theorem decodeFrom_four {a b c d : UInt8} (hlow : 0xF0 ≤ a.toNat) (hhigh : a.toNat ≤ 0xF4)
    (hb : isSecond a b = true) (hc : isContinuation c = true) (hd : isContinuation d = true)
    (pos : Nat) (rest : List UInt8) :
    decodeFrom pos (a :: b :: c :: d :: rest) = (decodeFrom (pos + 4) rest).map
      (Char.ofNat (((a.toNat % 8 * 64 + payload b) * 64 + payload c) * 64 + payload d) :: ·) := by
  rw [decodeFrom, length?_eq, if_neg (by omega), if_neg (by omega), if_neg (by omega),
    if_pos ⟨hlow, hhigh⟩]
  simp only [hb, hc, hd, Bool.not_true, Bool.false_eq_true, if_false,
    show ((4 : Nat) == 2) = false from rfl, show ((4 : Nat) == 3) = false from rfl]
  cases decodeFrom (pos + 4) rest <;> rfl

/-- The octets of a character are read as the character. -/
theorem decodeFrom_utf8EncodeChar (pos : Nat) (c : Char) (rest : List UInt8) :
    decodeFrom pos (String.utf8EncodeChar c ++ rest) =
      (decodeFrom (pos + c.utf8Size) rest).map (c :: ·) := by
  -- what the decoder refuses among longer encodings is what a character cannot be
  have hvalid : c.val.toNat < 0xD800 ∨ 0xDFFF < c.val.toNat ∧ c.val.toNat < 0x110000 := c.valid
  have hchar : Char.ofNat c.val.toNat = c := Char.ofNat_toNat c
  rw [← String.length_utf8EncodeChar]
  unfold String.utf8EncodeChar
  dsimp only
  -- from here on the character is its code point `v`, and the cases are the lengths of its encoding
  generalize c.val.toNat = v at hvalid hchar
  split
  · have ha : (UInt8.ofNat v).toNat = v := toNat_ofNat (by omega)
    rw [List.singleton_append, decodeFrom_one (by omega), ha, hchar]
    rfl
  · split
    · have ha : (UInt8.ofNat (v / 64 % 0x20 + 0xc0)).toNat = v / 64 + 0xc0 := by
        rw [toNat_ofNat (by omega)]
        omega
      have hb := toNat_continuation v
      -- `v` is at least 0x80, so the leading octet is none of those with a narrower second one
      rw [List.cons_append, List.singleton_append, decodeFrom_two (by omega) (by omega)
        (isSecond_of (by omega) (by omega) (by omega) (by omega) (by omega) (by omega)), ha]
      unfold payload
      rw [hb, show (v / 64 + 0xc0) % 32 * 64 + (v % 64 + 0x80) % 64 = v by omega, hchar]
      rfl
    · split
      · have ha : (UInt8.ofNat (v / 4096 % 0x10 + 0xe0)).toNat = v / 4096 + 0xe0 := by
          rw [toNat_ofNat (by omega)]
          omega
        have hb := toNat_continuation (v / 64)
        have hc := toNat_continuation v
        simp only [List.cons_append, List.nil_append]
        -- 0xE0 has no overlong form because `v` is at least 0x800, and 0xED no surrogate because
        -- `v` is valid
        rw [decodeFrom_three (by omega) (by omega)
          (isSecond_of (by omega) (by omega) (by omega) (by omega) (by omega) (by omega))
          (isContinuation_iff.mpr (by omega)), ha]
        unfold payload
        rw [hb, hc, show ((v / 4096 + 0xe0) % 16 * 64 + (v / 64 % 64 + 0x80) % 64) * 64 +
          (v % 64 + 0x80) % 64 = v by omega, hchar]
        rfl
      · have ha : (UInt8.ofNat (v / 262144 % 0x08 + 0xf0)).toNat = v / 262144 + 0xf0 := by
          rw [toNat_ofNat (by omega)]
          omega
        have hb := toNat_continuation (v / 4096)
        have hc := toNat_continuation (v / 64)
        have hd := toNat_continuation v
        simp only [List.cons_append, List.nil_append]
        -- 0xF0 has no overlong form because `v` is at least 0x10000, and 0xF4 is not too large
        -- because `v` is valid
        rw [decodeFrom_four (by omega) (by omega)
          (isSecond_of (by omega) (by omega) (by omega) (by omega) (by omega) (by omega))
          (isContinuation_iff.mpr (by omega)) (isContinuation_iff.mpr (by omega)), ha]
        unfold payload
        rw [hb, hc, hd, show (((v / 262144 + 0xf0) % 8 * 64 + (v / 4096 % 64 + 0x80) % 64) * 64 +
          (v / 64 % 64 + 0x80) % 64) * 64 + (v % 64 + 0x80) % 64 = v by omega, hchar]
        rfl

/-! ## A whole text -/

theorem encode_append (cs ds : List Char) : encode (cs ++ ds) = encode cs ++ encode ds :=
  List.flatMap_append

theorem decodeFrom_encode (pos : Nat) (cs : List Char) : decodeFrom pos (encode cs) = .ok cs := by
  induction cs generalizing pos with
  | nil => rfl
  | cons c cs ih =>
    rw [encode, List.flatMap_cons, ← encode, decodeFrom_utf8EncodeChar, ih]
    rfl

theorem decode_encode (cs : List Char) : decode (encode cs) = .ok cs :=
  decodeFrom_encode 0 cs

/-- A text takes as many octets as its characters are written in. -/
theorem length_encode_toList (s : String) : (encode s.toList).length = s.utf8ByteSize := by
  rw [← String.size_toByteArray, ← String.utf8Encode_toList, List.utf8Encode,
    List.size_toByteArray]
  rfl

/-- The octets of a text that repeats one character. -/
theorem utf8ByteSize_replicate (n : Nat) (c : Char) :
    (String.ofList (List.replicate n c)).utf8ByteSize = n * c.utf8Size := by
  rw [String.utf8ByteSize_ofList]
  induction n with
  | zero => rw [Nat.zero_mul, List.replicate_zero, String.utf8Len_nil]
  | succ n ih => rw [List.replicate_succ, String.utf8Len_cons, ih, Nat.succ_mul]

/-! ## Ranges of octets -/

/-- The number of octets before the character at a position of a text. -/
def offset (cs : List Char) (i : Nat) : Nat :=
  (encode (cs.take i)).length

/-- A character of the text, or its end, is at this octet. -/
def IsBoundary (cs : List Char) (n : Nat) : Prop :=
  ∃ i ≤ cs.length, offset cs i = n

instance (cs : List Char) (n : Nat) : Decidable (IsBoundary cs n) :=
  decidable_of_iff (∃ i, i < cs.length + 1 ∧ offset cs i = n) (by
    unfold IsBoundary
    simp only [Nat.lt_succ_iff])

/-- The characters of a text that comes after `pos` octets, each with the octet it begins at. -/
def located (pos : Nat) : List Char → List (Nat × Char)
  | [] => []
  | c :: cs => (pos, c) :: located (pos + c.utf8Size) cs

/-- The characters of a text that begin in a range of its octets. -/
def between (cs : List Char) (start stop : Nat) : List Char :=
  ((located 0 cs).filter fun p => start ≤ p.1 && p.1 < stop).map Prod.snd

theorem length_encode_cons (c : Char) (cs : List Char) :
    (encode (c :: cs)).length = c.utf8Size + (encode cs).length := by
  rw [encode, List.flatMap_cons, List.length_append, String.length_utf8EncodeChar]
  rfl

theorem located_append (pos : Nat) (cs ds : List Char) :
    located pos (cs ++ ds) = located pos cs ++ located (pos + (encode cs).length) ds := by
  induction cs generalizing pos with
  | nil => rfl
  | cons c cs ih =>
    rw [List.cons_append, located, ih, located, length_encode_cons, List.cons_append,
      Nat.add_assoc]

theorem located_bounds {pos : Nat} {cs : List Char} {p : Nat × Char} (h : p ∈ located pos cs) :
    pos ≤ p.1 ∧ p.1 < pos + (encode cs).length := by
  induction cs generalizing pos with
  | nil => exact absurd h List.not_mem_nil
  | cons c cs ih =>
    have hsize := Char.utf8Size_pos c
    rw [length_encode_cons]
    rcases List.mem_cons.mp h with rfl | htail
    · dsimp only
      omega
    · have hbounds := ih htail
      omega

theorem map_snd_located (pos : Nat) (cs : List Char) : (located pos cs).map Prod.snd = cs := by
  induction cs generalizing pos with
  | nil => rfl
  | cons c cs ih => rw [located, List.map_cons, ih]

/-- The characters of a middle piece of a text are those that begin in its range. -/
theorem between_append (before piece after : List Char) :
    between (before ++ piece ++ after) (encode before).length (encode (before ++ piece)).length =
      piece := by
  unfold between
  -- the range keeps all of the piece, and nothing of what is around it
  rw [located_append, located_append, List.filter_append, List.filter_append, Nat.zero_add,
    Nat.zero_add]
  have hbefore : (located 0 before).filter (fun p => decide ((encode before).length ≤ p.1) &&
      decide (p.1 < (encode (before ++ piece)).length)) = [] := by
    rw [List.filter_eq_nil_iff]
    intro p hp
    have hbounds := located_bounds hp
    simp only [Bool.and_eq_true, decide_eq_true_eq]
    omega
  have hpiece : (located (encode before).length piece).filter (fun p =>
      decide ((encode before).length ≤ p.1) &&
        decide (p.1 < (encode (before ++ piece)).length)) =
      located (encode before).length piece := by
    rw [List.filter_eq_self]
    intro p hp
    have hbounds := located_bounds hp
    rw [encode_append, List.length_append]
    simp only [Bool.and_eq_true, decide_eq_true_eq]
    omega
  have hafter : (located (encode (before ++ piece)).length after).filter (fun p =>
      decide ((encode before).length ≤ p.1) &&
        decide (p.1 < (encode (before ++ piece)).length)) = [] := by
    rw [List.filter_eq_nil_iff]
    intro p hp
    have hbounds := located_bounds hp
    simp only [Bool.and_eq_true, decide_eq_true_eq]
    omega
  rw [hbefore, hpiece, hafter, List.nil_append, List.append_nil, map_snd_located]

theorem offset_mono (cs : List Char) {i j : Nat} (h : i ≤ j) : offset cs i ≤ offset cs j := by
  unfold offset
  -- the first `j` characters are the first `i` ones and some more
  rw [← List.take_append_drop i (cs.take j), List.take_take, Nat.min_eq_left h, encode_append,
    List.length_append]
  omega

/-- A text around the characters between two positions. -/
theorem exists_pieces {cs : List Char} {start stop : Nat} (hstart : IsBoundary cs start)
    (hstop : IsBoundary cs stop) (h : start < stop) :
    ∃ before piece after, cs = before ++ piece ++ after ∧ start = (encode before).length ∧
      stop = (encode (before ++ piece)).length := by
  obtain ⟨i, hi, rfl⟩ := hstart
  obtain ⟨j, hj, rfl⟩ := hstop
  -- offsets grow with positions, so the positions are in order as well
  have hij : i ≤ j := by
    by_contra hlt
    have hmono := offset_mono cs (i := j) (j := i) (by omega)
    omega
  have hjoin : cs.take i ++ (cs.drop i).take (j - i) = cs.take j := by
    rw [← List.take_add, Nat.add_sub_cancel' hij]
  refine ⟨cs.take i, (cs.drop i).take (j - i), cs.drop j, ?_, rfl, ?_⟩
  · rw [hjoin, List.take_append_drop]
  · rw [hjoin]
    rfl

/-- The octets between two boundaries are read as the characters between them. -/
theorem decode_range {cs : List Char} {start stop : Nat} (hstart : IsBoundary cs start)
    (hstop : IsBoundary cs stop) (h : start < stop) :
    decode (((encode cs).drop start).take (stop - start)) = .ok (between cs start stop) := by
  obtain ⟨before, piece, after, rfl, rfl, rfl⟩ := exists_pieces hstart hstop h
  rw [between_append, List.append_assoc, encode_append before piece,
    encode_append before (piece ++ after), encode_append piece after, List.drop_left,
    List.length_append, Nat.add_sub_cancel_left, List.take_left, decode_encode]

/-- The characters between two boundaries are the first ones from some position on. -/
theorem between_isPrefix {cs : List Char} {start stop : Nat} (hstart : IsBoundary cs start)
    (hstop : IsBoundary cs stop) (h : start < stop) :
    ∃ i < cs.length, offset cs i = start ∧ between cs start stop <+: cs.drop i := by
  obtain ⟨before, piece, after, rfl, rfl, rfl⟩ := exists_pieces hstart hstop h
  -- a piece without characters has no octets either, but the range has some
  have hpiece : 0 < piece.length := by
    rw [List.length_pos_iff]
    rintro rfl
    rw [List.append_nil] at h
    exact Nat.lt_irrefl _ h
  refine ⟨before.length, ?_, ?_, ?_⟩
  · rw [List.length_append, List.length_append]
    omega
  · rw [offset, List.append_assoc, List.take_left]
  · rw [between_append, List.append_assoc, List.drop_left]
    exact List.prefix_append piece after

end ExpectedDiagnostics.Utf8
