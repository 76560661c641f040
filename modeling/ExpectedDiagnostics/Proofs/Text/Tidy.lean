import ExpectedDiagnostics.Text.Blank
import Mathlib.Data.List.Basic
import Mathlib.Data.List.Chain
import Mathlib.Data.List.TakeWhile
import Mathlib.Tactic.Common

/-!
# Tidy texts

Stripping cuts a text into blanks, a part that neither begins nor ends with a blank, and blanks
again, and there is only one such part. Collapsing leaves no two blanks in a row and no blank but
the space. So a text is as tidy as it can be (`IsTidy`) exactly if tidying it changes nothing.

Main results:

* `exists_strip` / `strip_append` — stripping told by the parts of a text.
* `collapse_append` — a text that is cut in front of a character that is no blank can be collapsed
  piece by piece.
* `isTidy_tidy` / `IsTidy.tidy_eq` — tidy texts are what tidying gives and what it leaves alone.
* `exists_append_of_tidy` — what a tidied text ends in, if it has no blanks, was there before.
-/

namespace ExpectedDiagnostics.Text

/-- A text of blanks only. -/
def AllBlank (cs : List Char) : Prop :=
  ∀ c ∈ cs, isBlank c = true

/-- A text that neither begins nor ends with a blank. -/
structure IsStripped (cs : List Char) : Prop where
  front : ∀ c ∈ cs.head?, isBlank c = false
  back : ∀ c ∈ cs.getLast?, isBlank c = false

instance (cs : List Char) : Decidable (AllBlank cs) :=
  List.decidableBAll (isBlank · = true) cs

/-- A text without blanks at its ends, in which every blank is a single space. -/
structure IsTidy (cs : List Char) : Prop extends IsStripped cs where
  space : ∀ c ∈ cs, isBlank c = true → c = ' '
  single : cs.IsChain fun a b => isBlank a = true → isBlank b = false

theorem allBlank_nil : AllBlank [] := fun _ hc => absurd hc List.not_mem_nil

theorem allBlank_singleton : AllBlank [' '] := by
  intro c hc
  rw [List.mem_singleton.mp hc]
  exact isBlank_space

/-! ## Stripping -/

theorem stripLeft_append {front cs : List Char} (hfront : AllBlank front)
    (hcs : ∀ c ∈ cs.head?, isBlank c = false) : stripLeft (front ++ cs) = cs := by
  unfold stripLeft
  rw [List.dropWhile_append_of_pos hfront]
  cases cs with
  | nil => rfl
  | cons c cs => exact List.dropWhile_cons_of_neg (by simp [hcs c rfl])

/-- What is dropped at the front is blank, and what is left does not begin with a blank. -/
theorem exists_stripLeft (cs : List Char) : ∃ front, cs = front ++ stripLeft cs ∧
    AllBlank front ∧ ∀ c ∈ (stripLeft cs).head?, isBlank c = false := by
  refine ⟨cs.takeWhile isBlank, List.takeWhile_append_dropWhile.symm, ?_, ?_⟩
  · intro c hc
    exact List.mem_takeWhile_imp hc
  · intro c hc
    have hhead := List.head?_dropWhile_not isBlank cs
    unfold stripLeft at hc
    rw [hc] at hhead
    exact hhead

/-- Dropping blanks at the end is dropping them at the front of the reversed text. -/
theorem stripRight_eq (cs : List Char) : stripRight cs = (stripLeft cs.reverse).reverse := rfl

theorem AllBlank.reverse {cs : List Char} (h : AllBlank cs) : AllBlank cs.reverse :=
  fun c hc => h c (List.mem_reverse.mp hc)

theorem stripRight_append {cs back : List Char} (hback : AllBlank back)
    (hcs : ∀ c ∈ cs.getLast?, isBlank c = false) : stripRight (cs ++ back) = cs := by
  have hhead : ∀ c ∈ cs.reverse.head?, isBlank c = false := by
    rw [List.head?_reverse]
    exact hcs
  rw [stripRight_eq, List.reverse_append, stripLeft_append hback.reverse hhead,
    List.reverse_reverse]

/-- What is dropped at the end is blank, and what is left does not end with a blank. -/
theorem exists_stripRight (cs : List Char) : ∃ back, cs = stripRight cs ++ back ∧
    AllBlank back ∧ ∀ c ∈ (stripRight cs).getLast?, isBlank c = false := by
  obtain ⟨front, hcut, hblank, hhead⟩ := exists_stripLeft cs.reverse
  refine ⟨front.reverse, ?_, hblank.reverse, ?_⟩
  · rw [stripRight_eq, ← List.reverse_append, ← hcut, List.reverse_reverse]
  · rw [stripRight_eq, List.getLast?_reverse]
    exact hhead

theorem strip_eq_nil_iff {cs : List Char} : strip cs = [] ↔ AllBlank cs := by
  unfold strip
  obtain ⟨front, hfront, hblank, hhead⟩ := exists_stripLeft cs
  obtain ⟨back, hback, hblank', -⟩ := exists_stripRight (stripLeft cs)
  constructor
  · intro hnil c hc
    -- nothing is left, so the text is what was dropped at both ends
    rw [hfront, hback, hnil, List.nil_append, List.mem_append] at hc
    exact hc.elim (hblank c) (hblank' c)
  · intro hall
    have hleft : stripLeft cs = [] := List.dropWhile_eq_nil_iff.mpr hall
    rw [hleft]
    rfl

/-- Stripping cuts a text into three parts: blanks, what is left, and blanks. -/
theorem exists_strip (cs : List Char) : ∃ front back, cs = front ++ (strip cs ++ back) ∧
    AllBlank front ∧ AllBlank back ∧ IsStripped (strip cs) := by
  obtain ⟨front, hfront, hblank, hhead⟩ := exists_stripLeft cs
  obtain ⟨back, hback, hblank', hlast⟩ := exists_stripRight (stripLeft cs)
  refine ⟨front, back, ?_, hblank, hblank', ?_, hlast⟩
  · unfold strip
    rw [← hback, ← hfront]
  · -- what is left begins as it did before blanks were dropped at its end
    intro c hc
    refine hhead c ?_
    unfold strip at hc
    rw [hback]
    exact List.mem_head?_append_of_mem_head? hc

theorem isStripped_strip (cs : List Char) : IsStripped (strip cs) := by
  obtain ⟨-, -, -, -, -, hstripped⟩ := exists_strip cs
  exact hstripped

/-- The part between blanks that neither begins nor ends with a blank is what stripping leaves. -/
theorem strip_append {front cs back : List Char} (hfront : AllBlank front) (hback : AllBlank back)
    (h : IsStripped cs) : strip (front ++ (cs ++ back)) = cs := by
  by_cases hnil : cs = []
  · subst hnil
    rw [strip_eq_nil_iff]
    intro c hc
    rcases List.mem_append.mp hc with hc | hc
    · exact hfront c hc
    · exact hback c hc
  · have hhead : ∀ c ∈ (cs ++ back).head?, isBlank c = false := by
      rw [List.head?_append_of_ne_nil _ hnil]
      exact h.front
    unfold strip
    rw [stripLeft_append hfront hhead, stripRight_append hback h.back]

theorem IsStripped.strip_eq {cs : List Char} (h : IsStripped cs) : strip cs = cs := by
  have hstrip := strip_append allBlank_nil allBlank_nil h
  rwa [List.nil_append, List.append_nil] at hstrip

/-- Blanks behind a text are dropped with those at its end. -/
theorem strip_append_blanks {cs back : List Char} (hback : AllBlank back) :
    strip (cs ++ back) = strip cs := by
  obtain ⟨front, behind, hcut, hfront, hbehind, hstripped⟩ := exists_strip cs
  have hall : AllBlank (behind ++ back) := fun c hc =>
    (List.mem_append.mp hc).elim (hbehind c) (hback c)
  calc strip (cs ++ back) = strip (front ++ (strip cs ++ (behind ++ back))) := by
        rw [← List.append_assoc (strip cs), ← List.append_assoc front, ← hcut]
    _ = strip cs := strip_append hfront hall hstripped

/-! ## Collapsing -/

theorem startsBlank_eq (cs : List Char) : startsBlank cs = cs.head?.any isBlank := by
  cases cs <;> rfl

theorem IsStripped.startsBlank_eq {cs : List Char} (h : IsStripped cs) : startsBlank cs = false := by
  cases cs with
  | nil => rfl
  | cons c cs => exact h.front c rfl

/-- A text that begins with no blank loses nothing at its front. -/
theorem strip_isPrefix {cs : List Char} (h : startsBlank cs = false) : strip cs <+: cs := by
  obtain ⟨front, back, hcut, hfront, -, -⟩ := exists_strip cs
  cases front with
  | nil => exact ⟨back, hcut.symm⟩
  | cons c front =>
    rw [hcut] at h
    have hblank : isBlank c = true := hfront c List.mem_cons_self
    exact absurd hblank (Bool.eq_false_iff.mp h)

/-- Collapsing keeps a first character that is no blank, and a blank one stays blank. -/
theorem startsBlank_collapse (cs : List Char) : startsBlank (collapse cs) = startsBlank cs := by
  induction cs with
  | nil => rfl
  | cons c cs ih =>
    rw [collapse]
    split
    · rename_i hc
      split
      · rename_i hs
        rw [ih, hs]
        exact hc.symm
      · exact hc.symm
    · rfl

/-- A text can be collapsed piece by piece if it is cut in front of a character that is no blank. -/
theorem collapse_append (xs : List Char) {ys : List Char} (h : startsBlank ys = false) :
    collapse (xs ++ ys) = collapse xs ++ collapse ys := by
  induction xs with
  | nil => rfl
  | cons x xs ih =>
    -- the first character looks at the next one, which is that of the first piece or no blank
    have hnext : startsBlank (xs ++ ys) = startsBlank xs := by
      cases xs with
      | nil => exact h
      | cons _ _ => rfl
    rw [List.cons_append, collapse, collapse, hnext, ih]
    split
    · split <;> rfl
    · rfl

/-- No two blanks are left in a row. -/
theorem isChain_collapse (cs : List Char) :
    (collapse cs).IsChain fun a b => isBlank a = true → isBlank b = false := by
  induction cs with
  | nil => exact .nil
  | cons c cs ih =>
    rw [collapse]
    split
    · split
      · exact ih
      · rename_i hs
        rw [List.isChain_cons]
        refine ⟨?_, ih⟩
        -- the space stands for the last blank of its run
        intro d hd _
        rw [Bool.not_eq_true, ← startsBlank_collapse, startsBlank_eq, hd] at hs
        exact hs
    · rename_i hc
      rw [List.isChain_cons]
      exact ⟨fun d _ hblank => absurd hblank hc, ih⟩

/-- A text whose blanks are single spaces has nothing to be collapsed. -/
theorem collapse_eq_self {cs : List Char} (hspace : ∀ c ∈ cs, isBlank c = true → c = ' ')
    (hsingle : cs.IsChain fun a b => isBlank a = true → isBlank b = false) :
    collapse cs = cs := by
  induction cs with
  | nil => rfl
  | cons c cs ih =>
    obtain ⟨hnext, hrest⟩ := List.isChain_cons.mp hsingle
    have hcs := ih (fun d hd => hspace d (List.mem_cons_of_mem _ hd)) hrest
    rw [collapse, hcs]
    split
    · rename_i hc
      have hs : startsBlank cs = false := by
        cases cs with
        | nil => rfl
        | cons d _ => exact hnext d rfl hc
      rw [hs, if_neg Bool.false_ne_true, hspace c List.mem_cons_self hc]
    · rfl

/-- A piece of a collapsed text has nothing to be collapsed. -/
theorem collapse_of_isInfix {piece cs : List Char} (h : piece <:+: collapse cs) :
    collapse piece = piece := by
  have hchain := List.IsChain.infix (isChain_collapse cs) h
  refine collapse_eq_self ?_ hchain
  intro c hc hblank
  exact eq_space_of_mem_collapse (h.subset hc) hblank

theorem collapse_eq_nil_iff {cs : List Char} : collapse cs = [] ↔ cs = [] := by
  constructor
  · intro h
    induction cs with
    | nil => rfl
    | cons c cs ih =>
      rw [collapse] at h
      split at h
      · split at h
        · rename_i hs
          rw [ih h] at hs
          exact absurd hs Bool.false_ne_true
        · exact absurd h (List.cons_ne_nil _ _)
      · exact absurd h (List.cons_ne_nil _ _)
  · rintro rfl
    rfl

theorem collapse_concat (front : List Char) {last : Char} (hlast : isBlank last = false) :
    collapse (front ++ [last]) = collapse front ++ [last] := by
  have hone : collapse [last] = [last] := by
    rw [collapse, if_neg (Bool.eq_false_iff.mp hlast)]
    rfl
  rw [collapse_append front (by exact hlast), hone]

/-- A text that does not end with a blank does not do so when it is collapsed, either. -/
theorem getLast?_collapse {cs : List Char} (h : ∀ c ∈ cs.getLast?, isBlank c = false) :
    ∀ c ∈ (collapse cs).getLast?, isBlank c = false := by
  rcases List.eq_nil_or_concat cs with rfl | ⟨front, last, rfl⟩
  · exact h
  · rw [List.concat_eq_append] at h ⊢
    have hlast : isBlank last = false := h last List.getLast?_concat
    rw [collapse_concat front hlast, List.getLast?_concat]
    intro c hc
    rw [← Option.some.inj hc]
    exact hlast

/-- The blanks at the ends of a text are those of its collapsed form. -/
theorem isStripped_collapse {cs : List Char} (h : IsStripped cs) : IsStripped (collapse cs) where
  front := by
    intro c hc
    have hstart := startsBlank_collapse cs
    rwa [h.startsBlank_eq, startsBlank_eq, hc, Option.any_some] at hstart
  back := getLast?_collapse h.back

/-! ## Tidying -/

theorem isTidy_tidy (cs : List Char) : IsTidy (tidy cs) where
  toIsStripped := isStripped_collapse (isStripped_strip cs)
  space _ hc hblank := eq_space_of_mem_collapse hc hblank
  single := isChain_collapse (strip cs)

theorem IsTidy.collapse_eq {cs : List Char} (h : IsTidy cs) : collapse cs = cs :=
  collapse_eq_self h.space h.single

/-- **Tidying leaves a tidy text alone.** -/
theorem IsTidy.tidy_eq {cs : List Char} (h : IsTidy cs) : tidy cs = cs := by
  unfold tidy
  rw [h.strip_eq, h.collapse_eq]

theorem isTidy_iff {cs : List Char} : IsTidy cs ↔ tidy cs = cs := by
  constructor
  · exact IsTidy.tidy_eq
  · intro h
    rw [← h]
    exact isTidy_tidy cs

instance (cs : List Char) : Decidable (IsTidy cs) :=
  decidable_of_iff _ isTidy_iff.symm

/-- Stripping a collapsed text tidies it. -/
theorem tidy_collapse (cs : List Char) : tidy (collapse cs) = strip (collapse cs) := by
  obtain ⟨front, back, hcut, -, -, -⟩ := exists_strip (collapse cs)
  have hpiece : strip (collapse cs) <:+: collapse cs := by
    refine ⟨front, back, ?_⟩
    rw [List.append_assoc, ← hcut]
  exact collapse_of_isInfix hpiece

theorem tidy_append_blanks {cs back : List Char} (hback : AllBlank back) :
    tidy (cs ++ back) = tidy cs := by
  unfold tidy
  rw [strip_append_blanks hback]

theorem tidy_eq_nil_iff {cs : List Char} : tidy cs = [] ↔ AllBlank cs := by
  unfold tidy
  rw [collapse_eq_nil_iff, strip_eq_nil_iff]

/-! ## What stays at the end -/

/-- A collapsed text without blanks was not changed. -/
theorem collapse_eq_self_of_not_blank {cs : List Char} (h : ∀ c ∈ collapse cs, isBlank c = false) :
    collapse cs = cs := by
  induction cs with
  | nil => rfl
  | cons c cs ih =>
    rw [collapse] at h ⊢
    split at h
    · split at h
      -- a run of blanks would have left a space
      · rename_i hs
        rw [ih h] at h
        cases cs with
        | nil => exact absurd hs Bool.false_ne_true
        | cons d _ => exact absurd hs (Bool.eq_false_iff.mp (h d List.mem_cons_self))
      · exact absurd isBlank_space (Bool.eq_false_iff.mp (h ' ' List.mem_cons_self))
    · rename_i hc
      rw [if_neg hc, ih fun d hd => h d (List.mem_cons_of_mem _ hd)]

/-- What a collapsed text ends in, if it has no blanks, is what the text ends in. -/
theorem exists_append_of_collapse {cs front last : List Char} (h : collapse cs = front ++ last)
    (hlast : ∀ c ∈ last, isBlank c = false) : ∃ before, cs = before ++ last := by
  induction cs generalizing front with
  | nil =>
    obtain ⟨-, rfl⟩ := List.append_eq_nil_iff.mp h.symm
    exact ⟨[], rfl⟩
  | cons c cs ih =>
    cases front with
    | nil =>
      have hblank : ∀ d ∈ collapse (c :: cs), isBlank d = false := by rwa [h]
      have hsame := collapse_eq_self_of_not_blank hblank
      exact ⟨[], hsame.symm.trans h⟩
    | cons d front =>
      have hrest : ∃ more, collapse cs = more ++ last := by
        rw [collapse] at h
        split at h
        · split at h
          · exact ⟨d :: front, h⟩
          · exact ⟨front, (List.cons.inj h).2⟩
        · exact ⟨front, (List.cons.inj h).2⟩
      obtain ⟨more, hmore⟩ := hrest
      obtain ⟨before, rfl⟩ := ih hmore
      exact ⟨c :: before, rfl⟩

/-- What a tidied text ends in, if it has no blanks, stands in front of the blanks at the end. -/
theorem exists_append_of_tidy {cs front last : List Char} (h : tidy cs = front ++ last)
    (hlast : ∀ c ∈ last, isBlank c = false) :
    ∃ before back, cs = before ++ (last ++ back) ∧ AllBlank back := by
  obtain ⟨blanks, back, hcut, -, hback, -⟩ := exists_strip cs
  obtain ⟨before, hbefore⟩ := exists_append_of_collapse h hlast
  refine ⟨blanks ++ before, back, ?_, hback⟩
  rw [hcut, hbefore]
  simp only [List.append_assoc]

end ExpectedDiagnostics.Text
