import ExpectedDiagnostics.Proofs.Text.Tidy

/-!
# Texts that are put together

What stands between two texts, once they are put together and collapsed. Any run of blanks comes to
the one space it could have been from the start. A space in between is lost if there is a blank on
either side of it, and makes the text longer if there is none.

Main results:

* `collapse_append_congr` — what follows a text counts by its collapsed form.
* `collapse_blanks` — a run of blanks is as good as a space.
* `stripRight_collapse` — blanks at the end are dropped before collapsing or afterwards.
* `collapse_space`, `length_collapse_space` — what a space between two texts does.
-/

namespace ExpectedDiagnostics.Text

/-- Tells whether the text ends with a blank. -/
def endsBlank (cs : List Char) : Bool :=
  cs.getLast?.any isBlank

/-- Tells whether two texts can be told apart where they meet. -/
def Apart (front back : List Char) : Prop :=
  endsBlank front = true ∨ startsBlank back = true

instance (front back : List Char) : Decidable (Apart front back) :=
  inferInstanceAs (Decidable (_ ∨ _))

theorem endsBlank_append {xs ys : List Char} (h : ys ≠ []) :
    endsBlank (xs ++ ys) = endsBlank ys := by
  unfold endsBlank
  rw [List.getLast?_append_of_ne_nil _ h]

theorem startsBlank_congr {xs ys : List Char} (h : collapse xs = collapse ys) :
    startsBlank xs = startsBlank ys := by
  rw [← startsBlank_collapse xs, h, startsBlank_collapse]

theorem collapse_append_congr (front : List Char) {xs ys : List Char}
    (h : collapse xs = collapse ys) : collapse (front ++ xs) = collapse (front ++ ys) := by
  induction front with
  | nil => exact h
  | cons c front ih =>
    rw [List.cons_append, List.cons_append, collapse, collapse, ih, startsBlank_congr ih]

/-- A blank in front of a blank is lost. -/
theorem collapse_cons_blank {c : Char} (hc : isBlank c = true) (cs : List Char) :
    collapse (c :: cs) = if startsBlank cs then collapse cs else ' ' :: collapse cs := by
  rw [collapse, if_pos hc]

theorem collapse_blanks {blanks : List Char} (hblanks : AllBlank blanks) (hne : blanks ≠ [])
    (cs : List Char) : collapse (blanks ++ cs) = collapse (' ' :: cs) := by
  induction blanks with
  | nil => exact absurd rfl hne
  | cons b blanks ih =>
    have hb := hblanks b List.mem_cons_self
    cases blanks with
    | nil =>
      rw [List.singleton_append, collapse_cons_blank hb, collapse_cons_blank isBlank_space]
    | cons d blanks =>
      have hd := hblanks d (List.mem_cons_of_mem _ List.mem_cons_self)
      have hrest := ih (fun c hc => hblanks c (List.mem_cons_of_mem _ hc)) (List.cons_ne_nil _ _)
      rw [List.cons_append, collapse_cons_blank hb, if_pos (by exact hd), hrest]

/-- Blanks behind a text that does not end with one are collapsed to a space. -/
theorem collapse_append_blanks {cs blanks : List Char} (hcs : ∀ c ∈ cs.getLast?, isBlank c = false)
    (hblanks : AllBlank blanks) (hne : blanks ≠ []) :
    collapse (cs ++ blanks) = collapse cs ++ [' '] := by
  have hspace : collapse blanks = collapse [' '] := by
    have hall := collapse_blanks hblanks hne []
    rwa [List.append_nil] at hall
  rw [collapse_append_congr cs hspace]
  rcases List.eq_nil_or_concat cs with rfl | ⟨front, last, rfl⟩
  · rfl
  · -- the text can be cut in front of its last character, which is no blank
    rw [List.concat_eq_append] at hcs ⊢
    have hlast : isBlank last = false := hcs last List.getLast?_concat
    have hback : collapse [last, ' '] = [last, ' '] := by
      rw [collapse, if_neg (Bool.eq_false_iff.mp hlast)]
      rfl
    rw [List.append_assoc, List.singleton_append, collapse_append front (by exact hlast), hback,
      collapse_concat front hlast, List.append_assoc, List.singleton_append]

/-- Blanks at the end can be dropped before the text is collapsed, or afterwards. -/
theorem stripRight_collapse (cs : List Char) :
    stripRight (collapse cs) = collapse (stripRight cs) := by
  obtain ⟨blanks, hcut, hblanks, hend⟩ := exists_stripRight cs
  have hcollapse : ∃ back, collapse cs = collapse (stripRight cs) ++ back ∧ AllBlank back := by
    by_cases hne : blanks = []
    · refine ⟨[], ?_, allBlank_nil⟩
      rw [hne, List.append_nil] at hcut
      rw [List.append_nil, ← hcut]
    · refine ⟨[' '], ?_, allBlank_singleton⟩
      rw [← collapse_append_blanks hend hblanks hne, ← hcut]
  obtain ⟨back, hback, hall⟩ := hcollapse
  rw [hback, stripRight_append hall (getLast?_collapse hend)]

/-- A tidy text is kept at the end of what it is put behind, and in front of it, but for blanks, is
the rest, tidied. -/
theorem exists_tidy_append (cs : List Char) {back : List Char} (hback : IsTidy back)
    (hne : back ≠ []) : ∃ front, tidy (cs ++ back) = front ++ back ∧ stripRight front = tidy cs := by
  obtain ⟨blanks, hcut, hblanks, hhead⟩ := exists_stripLeft cs
  have hstripped : IsStripped (stripLeft cs ++ back) := by
    constructor
    · generalize stripLeft cs = left at hhead
      cases left with
      | nil => exact hback.front
      | cons c left => exact hhead
    · rw [List.getLast?_append_of_ne_nil _ hne]
      exact hback.back
  refine ⟨collapse (stripLeft cs), ?_, stripRight_collapse _⟩
  have hstrip : strip (cs ++ back) = stripLeft cs ++ back := by
    have h := strip_append hblanks allBlank_nil hstripped
    rwa [List.append_nil, ← List.append_assoc, ← hcut] at h
  rw [tidy, hstrip, collapse_append _ hback.startsBlank_eq, hback.collapse_eq]

/-! ## A space between two texts -/

/-- The space between a last character and what follows it. -/
theorem collapse_cons_space (c : Char) (cs : List Char) :
    collapse (c :: ' ' :: cs) =
      if Apart [c] cs then collapse (c :: cs) else c :: ' ' :: collapse cs := by
  by_cases hc : isBlank c = true
  · have hapart : Apart [c] cs := .inl hc
    rw [if_pos hapart, collapse_cons_blank hc, if_pos (by exact isBlank_space),
      collapse_cons_blank isBlank_space, collapse_cons_blank hc]
  · rw [collapse, if_neg hc, collapse_cons_blank isBlank_space]
    by_cases hs : startsBlank cs = true
    · have hapart : Apart [c] cs := .inr hs
      rw [if_pos hs, if_pos hapart, collapse, if_neg hc]
    · have hapart : ¬ Apart [c] cs := not_or.mpr ⟨hc, hs⟩
      rw [if_neg hs, if_neg hapart]

/-- Only the last character of a text tells whether it stands apart from what follows it. -/
theorem apart_cons_cons (c d : Char) (front back : List Char) :
    Apart (c :: d :: front) back ↔ Apart (d :: front) back := by
  have hlast := @endsBlank_append [c] _ (List.cons_ne_nil d front)
  unfold Apart
  rw [← hlast, List.singleton_append]

/-- A space next to a blank is lost. -/
theorem collapse_space {front back : List Char} (h : Apart front back) :
    collapse (front ++ ' ' :: back) = collapse (front ++ back) := by
  induction front with
  | nil =>
    have hback : startsBlank back = true := h.resolve_left Bool.false_ne_true
    rw [List.nil_append, collapse_cons_blank isBlank_space, if_pos hback]
    rfl
  | cons c front ih =>
    cases front with
    | nil => rw [List.singleton_append, List.singleton_append, collapse_cons_space, if_pos h]
    | cons d front => exact collapse_append_congr [c] (ih ((apart_cons_cons c d front back).mp h))

theorem length_collapse_cons (c : Char) (cs : List Char) :
    (collapse (c :: cs)).length =
      (collapse cs).length + if isBlank c && startsBlank cs then 0 else 1 := by
  rw [collapse]
  cases isBlank c with
  | false => rfl
  | true => cases startsBlank cs <;> rfl

/-- A space that has no blank next to it makes the text longer. -/
theorem length_collapse_space {front back : List Char} (h : ¬ Apart front back) :
    (collapse (front ++ ' ' :: back)).length = (collapse (front ++ back)).length + 1 := by
  induction front with
  | nil =>
    have hback : ¬ startsBlank back = true := fun hstart => h (.inr hstart)
    rw [List.nil_append, collapse_cons_blank isBlank_space, if_neg hback]
    rfl
  | cons c front ih =>
    cases front with
    | nil =>
      have hc : ¬ isBlank c = true := fun hc => h (.inl hc)
      rw [List.singleton_append, List.singleton_append, collapse_cons_space, if_neg h, collapse,
        if_neg hc]
      rfl
    | cons d front =>
      have hlength := ih (mt (apart_cons_cons c d front back).mpr h)
      -- the first character looks at the second one, which is the same with and without the space
      have hstart : startsBlank (d :: front ++ ' ' :: back) = startsBlank (d :: front ++ back) := rfl
      have hfront : (c :: d :: front) ++ back = c :: (d :: front ++ back) := rfl
      rw [List.cons_append, hfront, length_collapse_cons, length_collapse_cons, hlength, hstart]
      omega

/-- A space between two texts makes them no shorter. -/
theorem length_collapse_le (front back : List Char) :
    (collapse (front ++ back)).length ≤ (collapse (front ++ ' ' :: back)).length := by
  by_cases h : Apart front back
  · rw [collapse_space h]
  · rw [length_collapse_space h]
    exact Nat.le_succ _

end ExpectedDiagnostics.Text
