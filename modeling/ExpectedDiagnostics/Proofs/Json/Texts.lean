import ExpectedDiagnostics.Proofs.Data
import ExpectedDiagnostics.Proofs.Json.Atoms
import Mathlib.Data.List.Chain

/-!
# Reading written texts

A text is written character by character and read back as it was. A torn one is written piece by
piece, each half as the escape of its unit. The reader takes the escapes of two halves that make a
pair together, so no such halves may stand side by side; then what comes behind a half never
completes it. A text without halves is the case in which all pieces are characters.

Main results:

* `readText_writePieces` — a written torn text is read as its pieces.
* `readText_writeText` — a written text is read as its characters.
-/

namespace ExpectedDiagnostics.Json

open Text (Piece piecesOf not_half_mem_piecesOf)

/-! ## Halves that are alone -/

/-- Two halves that make a pair. -/
def ArePair (p q : Piece) : Prop :=
  ∃ high low, p = .half high ∧ q = .half low ∧ (0xD800 ≤ high ∧ high ≤ 0xDBFF) ∧
    (0xDC00 ≤ low ∧ low ≤ 0xDFFF)

/-- The pieces of a text that is torn: there are halves among them, and all of them are alone. -/
structure IsTorn (pieces : List Piece) : Prop where
  half : pieces.any Piece.isHalf = true
  unit : ∀ n, .half n ∈ pieces → 0xD800 ≤ n ∧ n ≤ 0xDFFF
  alone : pieces.IsChain fun p q => ¬ ArePair p q

/-- A rest of a document that does not begin with the escape of a low half. -/
def BeginsNoLow (rest : List Char) : Prop :=
  ∀ h i j k last, rest = '\\' :: 'u' :: h :: i :: j :: k :: last →
    ∃ n, hex4? h i j k = some n ∧ ¬ (0xDC00 ≤ n ∧ n ≤ 0xDFFF)

/-- An escape of another unit is no escape of a low half. -/
theorem beginsNoLow_unitEscape {n : Nat} (hn : n < 0x10000) (hlow : ¬ (0xDC00 ≤ n ∧ n ≤ 0xDFFF))
    (rest : List Char) : BeginsNoLow (unitEscape n ++ rest) := by
  intro h i j k last heq
  obtain ⟨a, b, c, d, hhex, hvalue⟩ := exists_hex hn
  rw [unitEscape, hhex] at heq
  obtain ⟨rfl, rfl, rfl, rfl, -⟩ : a = h ∧ b = i ∧ c = j ∧ d = k ∧ _ := by simpa using heq
  exact ⟨n, hvalue, hlow⟩

/-- A character is never written with the escape of a low half in front. -/
theorem beginsNoLow_escapedChar (c : Char) (rest : List Char) :
    BeginsNoLow (escapedChar c ++ rest) := by
  have hvalid : c.toNat < 0xD800 ∨ 0xDFFF < c.toNat ∧ c.toNat < 0x110000 := c.valid
  unfold escapedChar
  split_ifs with hmark hline hreturn htab hfeed hback hplain hunit
  · intro h i j k last heq
    obtain ⟨rfl, -⟩ : c = 'u' ∧ _ := by simpa using heq
    exact absurd hmark (by decide)
  · exact fun h i j k last heq => by simp at heq
  · exact fun h i j k last heq => by simp at heq
  · exact fun h i j k last heq => by simp at heq
  · exact fun h i j k last heq => by simp at heq
  · exact fun h i j k last heq => by simp at heq
  · intro h i j k last heq
    obtain ⟨rfl, -⟩ : c = '\\' ∧ _ := by simpa using heq
    exact absurd (by decide) hmark
  · exact beginsNoLow_unitEscape (by omega) (by omega) rest
  · rw [List.append_assoc]
    exact beginsNoLow_unitEscape (by omega) (by omega) _

/-- A half that nothing completes is read as itself. -/
theorem readText_half {n : Nat} (hn : 0xD800 ≤ n ∧ n ≤ 0xDFFF) (start fuel pos : Nat)
    {rest : List Char} (hrest : rest ≠ []) (halone : n ≤ 0xDBFF → BeginsNoLow rest)
    (done : List Piece) :
    readText start (fuel + 1) (unitEscape n ++ rest) pos done =
      readText start fuel rest (pos + 6) (.half n :: done) := by
  obtain ⟨a, b, c, d, hhex, hvalue⟩ := exists_hex (n := n) (by omega)
  have hmore : rest.isEmpty = false := List.isEmpty_eq_false_iff.mpr hrest
  rw [unitEscape, hhex]
  by_cases hhigh : n ≤ 0xDBFF
  · simp [readText, hvalue, hmore, hn.1, hhigh]
    -- what is behind the escape might be another one
    split
    · obtain ⟨m, hm, hlow⟩ := halone hhigh _ _ _ _ _ rfl
      rw [hm]
      dsimp only
      rw [if_neg hlow, ite_self]
    · rfl
  · have hlow : 0xDC00 ≤ n := by omega
    simp [readText, hvalue, hmore, hhigh, hlow, hn.2]

/-! ## Pieces -/

/-- A written piece is read as itself, if it is not completed. -/
theorem readText_escapedPiece {p : Piece} (hp : ∀ n, p = .half n → 0xD800 ≤ n ∧ n ≤ 0xDFFF)
    (start fuel pos : Nat) {rest : List Char} (hrest : rest ≠ [])
    (halone : ∀ n, p = .half n → n ≤ 0xDBFF → BeginsNoLow rest) (done : List Piece) :
    ∃ next, readText start (fuel + 1) (escapedPiece p ++ rest) pos done =
      readText start fuel rest next (p :: done) := by
  cases p with
  | char c => exact readText_escapedChar c start fuel pos hrest done
  | half n => exact ⟨_, readText_half (hp n rfl) start fuel pos hrest (halone n rfl) done⟩

/-- What follows a high half among pieces that are alone does not complete it. -/
theorem beginsNoLow_flatMap {pieces : List Piece} {n : Nat} (hn : 0xD800 ≤ n ∧ n ≤ 0xDBFF)
    (hunit : ∀ m, .half m ∈ pieces → 0xD800 ≤ m ∧ m ≤ 0xDFFF)
    (halone : (.half n :: pieces).IsChain fun p q => ¬ ArePair p q) (rest : List Char) :
    BeginsNoLow (pieces.flatMap escapedPiece ++ '"' :: rest) := by
  cases pieces with
  | nil => exact fun h i j k last heq => by simp at heq
  | cons q qs =>
    rw [List.flatMap_cons, List.append_assoc]
    cases q with
    | char c => exact beginsNoLow_escapedChar c _
    | half m =>
      have hm := hunit m List.mem_cons_self
      refine beginsNoLow_unitEscape (by omega) (fun hlow => ?_) _
      exact (List.isChain_cons_cons.mp halone).1 ⟨n, m, rfl, rfl, hn, hlow⟩

/-- Pieces that are alone are read up to the closing mark. -/
theorem readText_pieces {pieces : List Piece} {fuel : Nat} (hfuel : pieces.length < fuel)
    (hunit : ∀ n, .half n ∈ pieces → 0xD800 ≤ n ∧ n ≤ 0xDFFF)
    (halone : pieces.IsChain fun p q => ¬ ArePair p q) (start pos : Nat) (rest : List Char)
    (done : List Piece) :
    Reads (readText start fuel (pieces.flatMap escapedPiece ++ '"' :: rest) pos done)
      (done.reverse ++ pieces) rest := by
  induction pieces generalizing fuel pos done with
  | nil =>
    obtain ⟨fuel, rfl⟩ : ∃ k, fuel = k + 1 := ⟨fuel - 1, by omega⟩
    exact ⟨pos + 1, by simp [readText]⟩
  | cons p ps ih =>
    obtain ⟨fuel, rfl⟩ : ∃ k, fuel = k + 1 := ⟨fuel - 1, by omega⟩
    have hrest : ps.flatMap escapedPiece ++ '"' :: rest ≠ [] :=
      List.append_ne_nil_of_right_ne_nil _ (List.cons_ne_nil _ _)
    have hunits := fun n hn => hunit n (List.mem_cons_of_mem _ hn)
    have hp : ∀ n, p = .half n → 0xD800 ≤ n ∧ n ≤ 0xDFFF := fun n hn =>
      hunit n (hn ▸ List.mem_cons_self)
    have hnext : ∀ n, p = .half n → n ≤ 0xDBFF →
        BeginsNoLow (ps.flatMap escapedPiece ++ '"' :: rest) := by
      rintro n rfl hhigh
      exact beginsNoLow_flatMap ⟨(hp n rfl).1, hhigh⟩ hunits halone rest
    rw [List.length_cons] at hfuel
    obtain ⟨next, hread⟩ := readText_escapedPiece hp start fuel pos hrest hnext done
    rw [List.flatMap_cons, List.append_assoc, hread]
    have hrest := ih (by omega : ps.length < fuel) hunits halone.tail next (p :: done)
    rwa [List.reverse_cons, List.append_assoc, List.singleton_append] at hrest

theorem escapedPiece_ne_nil (p : Piece) : escapedPiece p ≠ [] := by
  cases p with
  | char c => exact escapedChar_ne_nil c
  | half n => exact List.cons_ne_nil _ _

theorem length_le_length_flatMap_escapedPiece (pieces : List Piece) :
    pieces.length ≤ (pieces.flatMap escapedPiece).length := by
  induction pieces with
  | nil => exact Nat.le_refl 0
  | cons p ps ih =>
    have hone := List.length_pos_of_ne_nil (escapedPiece_ne_nil p)
    rw [List.flatMap_cons, List.length_append, List.length_cons]
    omega

/-- After the opening mark, pieces that are alone are read back. -/
theorem readText_quoted {pieces : List Piece}
    (hunit : ∀ n, .half n ∈ pieces → 0xD800 ≤ n ∧ n ≤ 0xDFFF)
    (halone : pieces.IsChain fun p q => ¬ ArePair p q) (start pos : Nat) (rest : List Char) :
    Reads (readText start ((pieces.flatMap escapedPiece ++ '"' :: rest).length + 1)
      (pieces.flatMap escapedPiece ++ '"' :: rest) pos []) pieces rest := by
  have hfuel : pieces.length < (pieces.flatMap escapedPiece ++ '"' :: rest).length + 1 := by
    have hlength := length_le_length_flatMap_escapedPiece pieces
    rw [List.length_append]
    omega
  exact readText_pieces hfuel hunit halone start pos rest []

/-- **After the opening mark, a written torn text is read as its pieces.** -/
theorem readText_writePieces {pieces : List Piece} (h : IsTorn pieces) (start pos : Nat)
    (rest : List Char) :
    Reads (readText start ((pieces.flatMap escapedPiece ++ '"' :: rest).length + 1)
      (pieces.flatMap escapedPiece ++ '"' :: rest) pos []) pieces rest :=
  readText_quoted h.unit h.alone start pos rest

theorem ofPieces_of_isTorn {pieces : List Piece} (h : IsTorn pieces) :
    Data.ofPieces pieces = .torn pieces :=
  if_pos h.half

/-! ## Texts without halves -/

/-- **After the opening mark, a written text is read as its characters.** -/
theorem readText_writeText (s : String) (start pos : Nat) (rest : List Char) :
    Reads (readText start ((s.toList.flatMap escapedChar ++ '"' :: rest).length + 1)
      (s.toList.flatMap escapedChar ++ '"' :: rest) pos []) (piecesOf s) rest := by
  have hwritten : s.toList.flatMap escapedChar = (piecesOf s).flatMap escapedPiece := by
    rw [piecesOf, List.flatMap_map]
    rfl
  have halone : (piecesOf s).IsChain fun p q => ¬ ArePair p q := by
    refine List.Pairwise.isChain (List.pairwise_of_forall_mem_list ?_)
    rintro p hp q - ⟨high, low, rfl, -⟩
    exact not_half_mem_piecesOf s high hp
  rw [hwritten]
  exact readText_quoted (fun n hn => absurd hn (not_half_mem_piecesOf s n)) halone start pos rest

end ExpectedDiagnostics.Json
