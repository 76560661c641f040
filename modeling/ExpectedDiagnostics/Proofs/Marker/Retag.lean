import ExpectedDiagnostics.Marker
import Mathlib.Data.List.Forall2
import Mathlib.Tactic.Common

/-!
# Retagging

Retagging changes tags and nothing else (`Retagged`). What makes a tag the tag of a marker stands
around it and holds no tag itself, so it is the same before and after, and a text that has been
retagged once has nothing left to be retagged.

Main results:

* `retagged_retag` — the characters of a retagged text are those of the text, apart from tags.
* `retag_retag` — retagging a second time changes nothing.
-/

namespace ExpectedDiagnostics.Marker

/-- The second text is the first one with some of the compiler's tags turned into the tag of an
annotation. -/
def Retagged : List Char → List Char → Prop :=
  List.Forall₂ fun c d => d = c ∨ (c = compilerTag ∧ d = tag)

theorem retagged_retagFrom (before cs : List Char) : Retagged cs (retagFrom before cs) := by
  induction cs generalizing before with
  | nil => exact .nil
  | cons c cs ih =>
    rw [retagFrom]
    refine .cons ?_ (ih _)
    split
    · rename_i hmarker
      rw [Bool.and_eq_true, Bool.and_eq_true, beq_iff_eq] at hmarker
      exact .inr ⟨hmarker.1.1, rfl⟩
    · exact .inl rfl

/-- The characters of a retagged text are those of the text, apart from tags. -/
theorem retagged_retag (s : String) : Retagged s.toList (retag s).toList := by
  unfold retag
  rw [String.toList_ofList]
  exact retagged_retagFrom [] s.toList

theorem opensMarker_cons {c : Char} (hc : c ≠ ' ') (cs : List Char) :
    opensMarker (c :: cs) = (c == '/' && cs.head? == some '/') := by
  have hstop : ¬ (c == ' ') = true := by rwa [beq_iff_eq]
  unfold opensMarker
  rw [List.dropWhile_cons_of_neg (p := (· == ' ')) hstop]
  cases cs with
  | nil => simp
  | cons d cs => by_cases hboth : c = '/' ∧ d = '/' <;> simp_all

namespace Retagged

variable {cs ds : List Char}

/-- A character that is no tag comes from the text. -/
theorem mem (h : Retagged cs ds) {d : Char} (hd : d ∈ ds) (htag : d ≠ tag) : d ∈ cs := by
  induction h with
  | nil => exact hd
  | cons hhead _ ih =>
    rcases List.mem_cons.mp hd with rfl | hd
    · rcases hhead with rfl | ⟨-, rfl⟩
      · exact List.mem_cons_self
      · exact absurd rfl htag
    · exact List.mem_cons_of_mem _ (ih hd)

/-- Whether a text begins with another one that holds no tag is the same after retagging. -/
theorem isSome_after? (h : Retagged cs ds) {ps : List Char} (hcompiler : compilerTag ∉ ps)
    (htag : tag ∉ ps) : (Text.after? ps ds).isSome = (Text.after? ps cs).isSome := by
  induction ps generalizing cs ds with
  | nil => rfl
  | cons p ps ih =>
    rw [List.mem_cons, not_or] at hcompiler htag
    cases h with
    | nil => rfl
    | @cons c d cs ds hhead htail =>
      rw [Text.after?, Text.after?]
      rcases hhead with rfl | ⟨rfl, rfl⟩
      · split
        · exact ih htail hcompiler.2 htag.2
        · rfl
      -- a tag that was changed begins neither text
      · rw [if_neg (by rw [beq_iff_eq]; exact fun heq => htag.1 heq.symm),
          if_neg (by rw [beq_iff_eq]; exact fun heq => hcompiler.1 heq.symm)]

/-- Whether slashes and spaces open a marker is the same after retagging. -/
theorem opensMarker_eq (h : Retagged cs ds) : opensMarker ds = opensMarker cs := by
  have hspace : compilerTag ≠ ' ' ∧ tag ≠ ' ' := by decide
  have hslash : (compilerTag == '/') = false ∧ (tag == '/') = false := by decide
  induction h with
  | nil => rfl
  | @cons c d cs ds hhead htail ih =>
    rcases hhead with rfl | ⟨rfl, rfl⟩
    · by_cases hd : d = ' '
      · subst hd
        exact ih
      -- the first character is left, and then the second one decides
      · rw [opensMarker_cons hd, opensMarker_cons hd]
        cases htail with
        | nil => rfl
        | cons hsecond _ =>
          rcases hsecond with rfl | ⟨rfl, rfl⟩
          · rfl
          · rw [List.head?_cons, List.head?_cons]
            rfl
    · rw [opensMarker_cons hspace.1, opensMarker_cons hspace.2, hslash.1, hslash.2]
      rfl

end Retagged

/-- Behind a text that has been retagged or not, a retagged text has nothing left to be
retagged. -/
theorem retagFrom_retagFrom {before other : List Char} (h : Retagged before other)
    (cs : List Char) : retagFrom other (retagFrom before cs) = retagFrom before cs := by
  have htoken : compilerTag ∉ token ∧ tag ∉ token := by decide
  induction cs generalizing before other with
  | nil => rfl
  | cons c cs ih =>
    have hrest := retagged_retagFrom (c :: before) cs
    have hafter := hrest.isSome_after? htoken.1 htoken.2
    rw [retagFrom]
    by_cases hmarker : (c == compilerTag && (Text.after? token cs).isSome &&
        opensMarker before) = true
    -- a tag that was changed is not the compiler's any more
    · rw [if_pos hmarker]
      rw [Bool.and_eq_true, Bool.and_eq_true, beq_iff_eq] at hmarker
      obtain ⟨⟨rfl, -⟩, -⟩ := hmarker
      have htag : ¬ (tag == compilerTag) = true := by decide
      rw [retagFrom, ih (.cons (.inr ⟨rfl, rfl⟩) h), if_neg]
      rw [Bool.and_eq_true, Bool.and_eq_true]
      exact fun hall => htag hall.1.1
    -- what did not make a marker before makes none now
    · rw [if_neg hmarker, retagFrom, ih (.cons (.inl rfl) h), hafter, h.opensMarker_eq,
        if_neg hmarker]

/-- **Retagging a second time changes nothing.** -/
theorem retag_retag (s : String) : retag (retag s) = retag s := by
  unfold retag
  rw [String.toList_ofList, retagFrom_retagFrom .nil]

end ExpectedDiagnostics.Marker
