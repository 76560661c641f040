import ExpectedDiagnostics.Proofs.Marker
import ExpectedDiagnostics.Proofs.Marker.Retag
import ExpectedDiagnostics.Proofs.Text.Printed
import ExpectedDiagnostics.Proofs.Utf8
import ExpectedDiagnostics.Text.Lines
import Mathlib.Data.Finset.Card
import Mathlib.Data.List.TakeWhile
import Mathlib.Tactic.Common

/-!
# Tags, one by one

A marker is known by its tag as well as by its beginning, since its slashes are the two in front of
the spaces in front of the tag. So what retagging does can be said place by place: the character at
a place is changed exactly if it is the compiler's tag of a marker. As many markers come into the
count as tags are changed, and nothing in the text is moved.

Main results:

* `stands_unique` — the beginning of a marker and its tag determine each other.
* `countIn_eq_card` — the count of a text is the number of the tags of its markers.
* `getElem?_retag` — what is at each place of a retagged text.
* `retag_changes_tags` — retagging place by place, what it leaves as it is, and what it adds to the
  count.
-/

namespace ExpectedDiagnostics.Marker

/-! ## Spaces -/

/-- A text is its spaces at the front and what is left when they are dropped. -/
theorem exists_spaces (cs : List Char) :
    ∃ n, cs = List.replicate n ' ' ++ cs.dropWhile (· == ' ') := by
  have hspaces : cs.takeWhile (· == ' ') =
      List.replicate (cs.takeWhile (· == ' ')).length ' ' := by
    rw [List.eq_replicate_iff]
    exact ⟨rfl, fun c hc => beq_iff_eq.mp (List.mem_takeWhile_imp (p := (· == ' ')) hc)⟩
  refine ⟨(cs.takeWhile (· == ' ')).length, ?_⟩
  rw [← hspaces, List.takeWhile_append_dropWhile]

theorem takeWhile_spaces {c : Char} (hc : c ≠ ' ') (n : Nat) (rest : List Char) :
    (List.replicate n ' ' ++ c :: rest).takeWhile (· == ' ') = List.replicate n ' ' ∧
      (List.replicate n ' ' ++ c :: rest).dropWhile (· == ' ') = c :: rest := by
  apply Text.takeWhile_append_stop
  · intro s hs
    rw [List.eq_of_mem_replicate hs]
    rfl
  · intro d hd
    rw [← Option.some.inj hd, beq_eq_false_iff_ne]
    exact hc

/-- The spaces in front of a character that is none are known by what they begin. -/
theorem spaces_unique {c d : Char} (hc : c ≠ ' ') (hd : d ≠ ' ') {m n : Nat} {xs ys : List Char}
    (h : List.replicate m ' ' ++ c :: xs = List.replicate n ' ' ++ d :: ys) : m = n := by
  have hspaces : List.replicate m ' ' = List.replicate n ' ' := by
    rw [← (takeWhile_spaces hc m xs).1, h, (takeWhile_spaces hd n ys).1]
  simpa using congrArg List.length hspaces

/-! ## Markers by their tags -/

/-- A marker with this tag begins at one place of a text and has the tag at another one. -/
def Stands (t : Char) (cs : List Char) (start place : Nat) : Prop :=
  ∃ front spaces back,
    cs = front ++ '/' :: '/' :: (List.replicate spaces ' ' ++ t :: (token ++ back)) ∧
      start = front.length ∧ place = start + 2 + spaces

/-- The tag of a marker is at this place: two slashes and any number of spaces are in front of it,
and the token is behind it. -/
def IsTag (t : Char) (cs : List Char) (place : Nat) : Prop :=
  ∃ start, Stands t cs start place

theorem opensMarker_iff {before : List Char} : opensMarker before = true ↔
    ∃ spaces rest, before = List.replicate spaces ' ' ++ '/' :: '/' :: rest := by
  constructor
  · intro h
    unfold opensMarker at h
    split at h
    · rename_i rest hslashes
      obtain ⟨spaces, hspaces⟩ := exists_spaces before
      rw [hslashes] at hspaces
      exact ⟨spaces, rest, hspaces⟩
    · exact absurd h Bool.false_ne_true
  · rintro ⟨spaces, rest, rfl⟩
    have hslash : '/' ≠ ' ' := by decide
    unfold opensMarker
    rw [(takeWhile_spaces hslash spaces _).2]
    rfl

theorem isSome_after?_iff {ps cs : List Char} :
    (Text.after? ps cs).isSome = true ↔ ∃ back, cs = ps ++ back := by
  constructor
  · intro h
    obtain ⟨back, hback⟩ := Option.isSome_iff_exists.mp h
    exact ⟨back, Text.eq_append_of_after? hback⟩
  · rintro ⟨back, rfl⟩
    rw [Text.after?_append]
    rfl

/-- The tag of a marker is known by the character at its place, by what is behind it, and by what is
in front of it. -/
theorem isTag_iff {t : Char} {cs : List Char} {place : Nat} :
    IsTag t cs place ↔ cs[place]? = some t ∧
      (Text.after? token (cs.drop (place + 1))).isSome = true ∧
      opensMarker (cs.take place).reverse = true := by
  rw [isSome_after?_iff, opensMarker_iff]
  constructor
  · rintro ⟨start, front, spaces, back, rfl, rfl, rfl⟩
    have hcut : front ++ '/' :: '/' :: (List.replicate spaces ' ' ++ t :: (token ++ back)) =
        (front ++ '/' :: '/' :: List.replicate spaces ' ') ++ t :: (token ++ back) := by
      simp
    have hlength : (front ++ '/' :: '/' :: List.replicate spaces ' ').length =
        front.length + 2 + spaces := by
      simp
      omega
    rw [hcut, ← hlength]
    refine ⟨by simp, ⟨back, ?_⟩, spaces, front.reverse, ?_⟩
    · rw [List.drop_append, List.drop_of_length_le (by omega)]
      simp
    · rw [List.take_left]
      simp
  · rintro ⟨htag, ⟨back, hback⟩, spaces, rest, hfront⟩
    have hbefore : cs.take place = rest.reverse ++ '/' :: '/' :: List.replicate spaces ' ' := by
      rw [← List.reverse_reverse (cs.take place), hfront]
      simp
    obtain ⟨hlt, htag⟩ := List.getElem?_eq_some_iff.mp htag
    have hplace : place = rest.reverse.length + 2 + spaces := by
      have hlength := congrArg List.length hbefore
      rw [List.length_take, List.length_append, List.length_cons, List.length_cons,
        List.length_replicate] at hlength
      omega
    refine ⟨rest.reverse.length, rest.reverse, spaces, back, ?_, rfl, hplace⟩
    calc cs = cs.take place ++ t :: cs.drop (place + 1) := by
          rw [← htag, List.getElem_cons_drop, List.take_append_drop]
      _ = _ := by
          rw [hback, hbefore]
          simp

instance (t : Char) (cs : List Char) (place : Nat) : Decidable (IsTag t cs place) :=
  decidable_of_iff _ isTag_iff.symm

/-- Behind the slashes come the spaces and the tag: nothing but a marker begins like this, and what
is left is what is behind the token. -/
theorem afterMarker?_eq_some_iff {cs rest : List Char} : afterMarker? cs = some rest ↔
    ∃ spaces, cs = '/' :: '/' :: (List.replicate spaces ' ' ++ tag :: (token ++ rest)) := by
  constructor
  · intro h
    unfold afterMarker? at h
    split at h
    · rename_i behind
      obtain ⟨spaces, hspaces⟩ := exists_spaces behind
      rw [Text.eq_append_of_after? h] at hspaces
      exact ⟨spaces, by rw [hspaces, List.cons_append]⟩
    · exact nomatch h
  · rintro ⟨spaces, rfl⟩
    have htag : tag ≠ ' ' := by decide
    rw [afterMarker?, (takeWhile_spaces htag spaces _).2]
    exact Text.after?_append (tag :: token) rest

theorem isSome_afterMarker?_iff {cs : List Char} : (afterMarker? cs).isSome = true ↔
    ∃ spaces back, cs = '/' :: '/' :: (List.replicate spaces ' ' ++ tag :: (token ++ back)) := by
  rw [Option.isSome_iff_exists, exists_comm]
  exact exists_congr fun back => afterMarker?_eq_some_iff

/-- The places at which a marker begins are the beginnings of markers with a tag. -/
theorem mem_positions_iff {cs : List Char} {start : Nat} :
    start ∈ positions cs ↔ ∃ place, Stands tag cs start place := by
  rw [mem_positions, isSome_afterMarker?_iff]
  constructor
  · rintro ⟨spaces, back, hdrop⟩
    have hle : start ≤ cs.length := by
      by_contra hlong
      rw [List.drop_of_length_le (by omega)] at hdrop
      exact absurd hdrop (by simp)
    refine ⟨start + 2 + spaces, cs.take start, spaces, back, ?_, ?_, rfl⟩
    · rw [← hdrop, List.take_append_drop]
    · rw [List.length_take]
      omega
  · rintro ⟨place, front, spaces, back, rfl, rfl, rfl⟩
    exact ⟨spaces, back, List.drop_left⟩

/-- **The beginning of a marker and its tag determine each other.** -/
theorem stands_unique {t : Char} (ht : t ≠ ' ') {cs : List Char} {a b p q : Nat}
    (h : Stands t cs a p) (h' : Stands t cs b q) : a = b ↔ p = q := by
  obtain ⟨front, spaces, back, hcs, rfl, rfl⟩ := h
  obtain ⟨front', spaces', back', hcs', rfl, rfl⟩ := h'
  rw [hcs] at hcs'
  constructor
  · intro hlength
    -- from the beginning on, the tag is behind the spaces
    have hrest := (List.append_inj hcs' hlength).2
    have hspaces := spaces_unique ht ht (List.cons.inj (List.cons.inj hrest).2).2
    omega
  · intro hplace
    -- from the tag backwards, the slashes are behind the spaces
    have hcut : ∀ (f : List Char) (n : Nat) (k : List Char),
        f ++ '/' :: '/' :: (List.replicate n ' ' ++ t :: (token ++ k)) =
          (f ++ '/' :: '/' :: List.replicate n ' ') ++ t :: (token ++ k) := by
      intro f n k
      simp
    rw [hcut, hcut] at hcs'
    have hlength : (front ++ '/' :: '/' :: List.replicate spaces ' ').length =
        (front' ++ '/' :: '/' :: List.replicate spaces' ' ').length := by
      simp only [List.length_append, List.length_cons, List.length_replicate]
      omega
    have hfront := congrArg List.reverse (List.append_inj hcs' hlength).1
    simp only [List.reverse_append, List.reverse_cons, List.reverse_replicate,
      List.append_assoc, List.cons_append, List.nil_append] at hfront
    have hslash : '/' ≠ ' ' := by decide
    have hspaces := spaces_unique hslash hslash hfront
    omega

/-! ## Counting tags -/

/-- The places of a text with the tag of a marker. -/
def tags (t : Char) (cs : List Char) : Finset Nat :=
  (Finset.range cs.length).filter (IsTag t cs)

theorem mem_tags {t : Char} {cs : List Char} {place : Nat} :
    place ∈ tags t cs ↔ IsTag t cs place := by
  unfold tags
  rw [Finset.mem_filter, Finset.mem_range]
  refine ⟨And.right, fun h => ⟨?_, h⟩⟩
  exact (List.getElem?_eq_some_iff.mp (isTag_iff.mp h).1).1

/-- **The count of a text** is the number of the tags of its markers. -/
theorem countIn_eq_card (cs : List Char) : countIn cs = (tags tag cs).card := by
  have htag : tag ≠ ' ' := by decide
  have hnodup : (positions cs).Nodup := List.nodup_range.filter _
  rw [← length_positions, ← List.toFinset_card_of_nodup hnodup]
  -- each beginning is sent to the tag of its marker
  have htotal : ∀ start ∈ (positions cs).toFinset, ∃ place, Stands tag cs start place := by
    intro start hstart
    exact mem_positions_iff.mp (List.mem_toFinset.mp hstart)
  refine Finset.card_bij (fun start h => (htotal start h).choose) ?_ ?_ ?_
  · intro start h
    exact mem_tags.mpr ⟨start, (htotal start h).choose_spec⟩
  · intro a ha b hb hplace
    exact (stands_unique htag (htotal a ha).choose_spec (htotal b hb).choose_spec).mpr hplace
  · intro place hplace
    obtain ⟨start, hstands⟩ := mem_tags.mp hplace
    have hstart : start ∈ (positions cs).toFinset :=
      List.mem_toFinset.mpr (mem_positions_iff.mpr ⟨place, hstands⟩)
    exact ⟨start, hstart,
      (stands_unique htag (htotal start hstart).choose_spec hstands).mp rfl⟩

/-! ## Retagging place by place -/

theorem getElem?_retagFrom (before cs : List Char) (i : Nat) :
    (retagFrom before cs)[i]? = (cs[i]?).map fun c =>
      if c == compilerTag && (Text.after? token (cs.drop (i + 1))).isSome &&
          opensMarker ((cs.take i).reverse ++ before) then tag else c := by
  -- what comes before grows by each character that is passed
  induction cs generalizing before i with
  | nil => rfl
  | cons c cs ih =>
    rw [retagFrom]
    cases i with
    | zero => rfl
    | succ i =>
      rw [List.getElem?_cons_succ, List.getElem?_cons_succ, ih, List.take_succ_cons,
        List.reverse_cons, List.append_assoc, List.singleton_append]
      rfl

/-- What is at each place of a retagged text. -/
theorem getElem?_retag (s : String) (i : Nat) : (retag s).toList[i]? =
    if IsTag compilerTag s.toList i then some tag else s.toList[i]? := by
  unfold retag
  rw [String.toList_ofList, getElem?_retagFrom, List.append_nil]
  cases hi : s.toList[i]? with
  | none =>
    -- there is no tag behind the end
    rw [if_neg fun h => by
      rw [(isTag_iff.mp h).1] at hi
      exact nomatch hi]
    rfl
  | some c =>
    rw [Option.map_some]
    simp only [isTag_iff, hi, Option.some.injEq, Bool.and_eq_true, beq_iff_eq, and_assoc]
    split <;> rfl

/-- The places at which two texts have different characters. -/
def differences (cs ds : List Char) : Finset Nat :=
  (Finset.range (max cs.length ds.length)).filter fun i => cs[i]? ≠ ds[i]?

theorem mem_differences {cs ds : List Char} {i : Nat} :
    i ∈ differences cs ds ↔ cs[i]? ≠ ds[i]? := by
  unfold differences
  rw [Finset.mem_filter, Finset.mem_range]
  refine ⟨And.right, fun h => ⟨?_, h⟩⟩
  by_contra hlong
  rw [List.getElem?_eq_none (by omega), List.getElem?_eq_none (by omega)] at h
  exact h rfl

/-- A text is changed at the compiler's tags of its markers and nowhere else. -/
theorem differences_retag (s : String) :
    differences s.toList (retag s).toList = tags compilerTag s.toList := by
  ext i
  rw [mem_differences, mem_tags, getElem?_retag]
  split
  · rename_i h
    refine iff_of_true ?_ h
    rw [(isTag_iff.mp h).1]
    decide
  · rename_i h
    exact iff_of_false (fun hne => hne rfl) h

/-- The markers of a retagged text are those of the text and those whose tag was changed. -/
theorem isTag_retag (s : String) (i : Nat) : IsTag tag (retag s).toList i ↔
    IsTag tag s.toList i ∨ IsTag compilerTag s.toList i := by
  have hretagged := retagged_retag s
  have htoken : compilerTag ∉ token ∧ tag ∉ token := by decide
  -- neither the token nor the slashes and spaces have a tag in them, so they are found in the one
  -- text where they are found in the other
  have hback : (Text.after? token ((retag s).toList.drop (i + 1))).isSome =
      (Text.after? token (s.toList.drop (i + 1))).isSome :=
    Retagged.isSome_after? (List.forall₂_drop _ hretagged) htoken.1 htoken.2
  have hfront : opensMarker ((retag s).toList.take i).reverse =
      opensMarker (s.toList.take i).reverse :=
    Retagged.opensMarker_eq (List.rel_reverse (List.forall₂_take _ hretagged))
  have hone : (retag s).toList[i]? = some tag ↔
      s.toList[i]? = some tag ∨ IsTag compilerTag s.toList i := by
    rw [getElem?_retag]
    split
    · rename_i h
      exact iff_of_true rfl (.inr h)
    · rename_i h
      exact (or_iff_left h).symm
  rw [isTag_iff, hback, hfront, hone]
  constructor
  · rintro ⟨htag | htag, haround⟩
    · exact .inl (isTag_iff.mpr ⟨htag, haround⟩)
    · exact .inr htag
  · rintro (htag | htag)
    · exact ⟨.inl (isTag_iff.mp htag).1, (isTag_iff.mp htag).2⟩
    · exact ⟨.inr htag, (isTag_iff.mp htag).2⟩

theorem count_retag (s : String) :
    count (retag s) = count s + (tags compilerTag s.toList).card := by
  have hunion : tags tag (retag s).toList = tags tag s.toList ∪ tags compilerTag s.toList := by
    ext i
    rw [Finset.mem_union, mem_tags, mem_tags, mem_tags, isTag_retag]
  -- one character is not two tags
  have hdisjoint : Disjoint (tags tag s.toList) (tags compilerTag s.toList) := by
    rw [Finset.disjoint_left]
    intro i htag hcompiler
    have hsame := (isTag_iff.mp (mem_tags.mp htag)).1.symm.trans
      (isTag_iff.mp (mem_tags.mp hcompiler)).1
    exact absurd (Option.some.inj hsame) (by decide)
  unfold count
  rw [countIn_eq_card, countIn_eq_card, hunion, Finset.card_union_of_disjoint hdisjoint]

/-! ## What stays where it was -/

/-- Two texts of the same layout: each place comes after as many octets in the one as in the other,
the line ends are at the same places, and up to each place there are the same lines, each as long as
the other. -/
structure SameLayout (cs ds : List Char) : Prop where
  length : ds.length = cs.length
  offset : ∀ i, Utf8.offset ds i = Utf8.offset cs i
  lineEnds : ∀ c, Text.isLineEnd c = true → ∀ i : Nat, ds[i]? = some c ↔ cs[i]? = some c
  lines : ∀ i, (Text.splitLines (ds.take i)).map List.length =
    (Text.splitLines (cs.take i)).map List.length

namespace Retagged

variable {cs ds : List Char}

theorem length_encode (h : Retagged cs ds) :
    (Utf8.encode ds).length = (Utf8.encode cs).length := by
  induction h with
  | nil => rfl
  | cons hhead _ ih =>
    rw [Utf8.length_encode_cons, Utf8.length_encode_cons, ih]
    rcases hhead with rfl | ⟨rfl, rfl⟩
    · rfl
    -- both tags are ASCII
    · rfl

/-- A character that is neither tag is where it was. -/
theorem getElem?_iff (h : Retagged cs ds) {c : Char} (hcompiler : c ≠ compilerTag) (htag : c ≠ tag)
    (i : Nat) : ds[i]? = some c ↔ cs[i]? = some c := by
  induction h generalizing i with
  | nil => rfl
  | cons hhead _ ih =>
    cases i with
    | zero =>
      rw [List.getElem?_cons_zero, List.getElem?_cons_zero]
      rcases hhead with rfl | ⟨rfl, rfl⟩
      · rfl
      · exact iff_of_false (fun heq => htag (Option.some.inj heq).symm)
          fun heq => hcompiler (Option.some.inj heq).symm
    | succ i => exact ih i

/-- No tag ends a line, so the lines of the two texts correspond. -/
theorem splitLines (h : Retagged cs ds) :
    List.Forall₂ Retagged (Text.splitLines cs) (Text.splitLines ds) := by
  have hends : Text.isLineEnd compilerTag = false ∧ Text.isLineEnd tag = false := by decide
  have hsingle : compilerTag ≠ '\r' ∧ tag ≠ '\r' ∧ tag ≠ '\n' := by decide
  -- the cases are those of the reader of lines; the second text goes into the same one each time
  have hpair : ∀ {c d : Char} {cs ds : List Char}, (d = c ∨ (c = compilerTag ∧ d = tag)) →
      Retagged cs ds → (∀ rest, c = '\r' → cs = '\n' :: rest → False) →
      ∀ rest, d = '\r' → ds = '\n' :: rest → False := by
    rintro c d cs ds hhead htail hnot rest rfl rfl
    obtain rfl : '\r' = c := hhead.resolve_right fun hboth => hsingle.2.1 hboth.2.symm
    cases htail with
    | cons hsecond _ =>
      obtain rfl := hsecond.resolve_right fun hboth => hsingle.2.2 hboth.2.symm
      exact hnot _ rfl rfl
  have hend : ∀ {c d : Char}, (d = c ∨ (c = compilerTag ∧ d = tag)) →
      Text.isLineEnd d = Text.isLineEnd c := by
    rintro c d (rfl | ⟨rfl, rfl⟩)
    · rfl
    · rw [hends.1, hends.2]
  fun_induction Text.splitLines cs generalizing ds with
  | case1 =>
    cases h
    exact .nil
  | case2 cs ih =>
    cases h with
    | cons hfirst htail =>
      cases htail with
      | cons hsecond hrest =>
        obtain rfl := hfirst.resolve_right fun hboth => absurd hboth.1 (by decide)
        obtain rfl := hsecond.resolve_right fun hboth => absurd hboth.1 (by decide)
        rw [Text.splitLines]
        exact .cons .nil (ih hrest)
  | case3 c cs hnot hc ih =>
    cases h with
    | cons hhead htail =>
      rw [Text.splitLines, if_pos (by rw [hend hhead, hc])]
      · exact .cons .nil (ih htail)
      · exact hpair hhead htail hnot
  | case4 c cs hnot hc hnone ih =>
    cases h with
    | cons hhead htail =>
      have hlines := ih htail
      rw [hnone] at hlines
      rw [Text.splitLines, if_neg (by rwa [hend hhead]), List.forall₂_nil_left_iff.mp hlines]
      · exact .cons (.cons hhead .nil) .nil
      · exact hpair hhead htail hnot
  | case5 c cs hnot hc line lines hsome ih =>
    cases h with
    | cons hhead htail =>
      have hlines := ih htail
      rw [hsome] at hlines
      rw [Text.splitLines, if_neg (by rwa [hend hhead])]
      · generalize Text.splitLines _ = found at hlines
        cases hlines with
        | cons hline hrest => exact .cons (.cons hhead hline) hrest
      · exact hpair hhead htail hnot

theorem sameLayout (h : Retagged cs ds) : SameLayout cs ds where
  length := h.length_eq.symm
  offset i := length_encode (List.forall₂_take i h)
  lineEnds c hc i := by
    apply h.getElem?_iff
    all_goals
      rintro rfl
      exact absurd hc (by decide)
  lines i := by
    have hlines := splitLines (List.forall₂_take i h)
    generalize Text.splitLines (cs.take i) = before, Text.splitLines (ds.take i) = after at hlines
    induction hlines with
    | nil => rfl
    | cons hline _ ih => rw [List.map_cons, List.map_cons, ih, hline.length_eq]

end Retagged

/-- **Retagging changes tags only.** Each place at which the compiler's tag of a marker stands has
the tag of an annotation afterwards, and every other place has what it had. So nothing is moved, a
second time changes nothing, and the count grows by the number of the places that have changed. -/
theorem retag_changes_tags (s : String) :
    (∀ i, (i ∈ differences s.toList (retag s).toList ↔ IsTag compilerTag s.toList i) ∧
        (IsTag compilerTag s.toList i →
          s.toList[i]? = some '@' ∧ (retag s).toList[i]? = some '%')) ∧
      (retag s).length = s.length ∧
      (retag s).utf8ByteSize = s.utf8ByteSize ∧
      SameLayout s.toList (retag s).toList ∧
      retag (retag s) = retag s ∧
      count (retag s) = count s + (differences s.toList (retag s).toList).card := by
  have hlayout := (retagged_retag s).sameLayout
  refine ⟨fun i => ⟨?_, fun htag => ⟨(isTag_iff.mp htag).1, ?_⟩⟩, ?_, ?_, hlayout,
    retag_retag s, ?_⟩
  · rw [differences_retag, mem_tags]
  · rw [getElem?_retag, if_pos htag]
    rfl
  · rw [← String.length_toList, ← String.length_toList, hlayout.length]
  · rw [← Utf8.length_encode_toList, ← Utf8.length_encode_toList, (retagged_retag s).length_encode]
  · rw [count_retag, differences_retag]

end ExpectedDiagnostics.Marker
