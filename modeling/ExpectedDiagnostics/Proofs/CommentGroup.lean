import ExpectedDiagnostics.CommentGroup
import Mathlib.Data.List.Forall2
import Mathlib.Tactic.Common

/-!
# The annotations among comment groups

A comment group is an annotation if one of its comments begins with a marker. Such a group is
malformed if its text goes on with something other than line comments, blank if the text has neither
a message nor a code, and else it expects something of its line.

Reading the groups of a file ends at the first annotation that is blank or malformed; which of the
two comes first decides what becomes of the file.

Main results:

* `read_eq_none_iff` / `read_eq_some_iff` / `read_eq_error` — what reading one group gives.
* `readAll_eq_none_iff` / `readAll_malformed_iff` — when all groups can be read, and when reading
  ends at a malformed one.
* `forall₂_readAll` — what has been read when all groups can be read: one annotation for each marked
  group, in order, on its line. What holds of these annotations holds of the groups
  (`forall_readAll_iff`).
-/

namespace ExpectedDiagnostics

/-! ## Reading the text of an annotation -/

theorem Marker.firstMarked?_eq_none_iff {parts : List String} :
    Marker.firstMarked? parts = none ↔
      (parts.any fun part => (Marker.afterMarker? part.toList).isSome) = false := by
  induction parts with
  | nil => simp [Marker.firstMarked?]
  | cons part parts ih =>
    rw [Marker.firstMarked?, List.any_cons]
    cases h : Marker.afterMarker? part.toList with
    | none => simpa using ih
    | some rest => simp

/-- The text of a group can only be refused as malformed. -/
theorem Marker.extract_eq_error {parts : List String} {p : Problem}
    (h : Marker.extract parts = .error p) : p = .malformedComment parts := by
  unfold Marker.extract at h
  split at h
  · exact absurd h (by simp)
  · split at h
    · exact (Except.error.inj h).symm
    · exact absurd h (by simp)

/-- The text of an annotation can only be refused as blank. -/
theorem Expectation.parse_eq_error {text : String} {p : Problem}
    (h : Expectation.parse text = .error p) :
    p = .blankExpectation text Problem.blankReason none := by
  unfold Expectation.parse at h
  split at h
  · exact absurd h (by simp)
  · split at h
    · exact absurd h (by simp)
    · exact (Except.error.inj h).symm

namespace CommentGroup

/-! ## Kinds of groups -/

/-- Tells whether a comment of the group begins with a marker, which makes it an annotation. -/
def isMarked (g : CommentGroup) : Bool :=
  g.parts.any fun part => (Marker.afterMarker? part.toList).isSome

/-- An annotation that goes on with something other than line comments. -/
def IsMalformed (g : CommentGroup) : Prop :=
  ∃ p, Marker.extract g.parts = .error p

/-- An annotation whose text says neither a message nor a code. -/
def IsBlank (g : CommentGroup) : Prop :=
  ∃ text, Marker.extract g.parts = .ok (some text) ∧ ∀ e, Expectation.parse text ≠ .ok e

/-- What an annotation expects of its line. -/
def Expects (g : CommentGroup) (e : Expectation) : Prop :=
  ∃ text, Marker.extract g.parts = .ok (some text) ∧ Expectation.parse text = .ok e

theorem extract_eq_none_iff {g : CommentGroup} :
    Marker.extract g.parts = .ok none ↔ g.isMarked = false := by
  unfold isMarked
  rw [← Marker.firstMarked?_eq_none_iff, Marker.extract]
  cases h : Marker.firstMarked? g.parts with
  | none => simp
  | some found =>
    simp only [reduceCtorEq, iff_false]
    split <;> simp

theorem IsMalformed.not_blank {g : CommentGroup} (h : g.IsMalformed) : ¬ g.IsBlank := by
  rintro ⟨text, htext, -⟩
  obtain ⟨p, hp⟩ := h
  rw [hp] at htext
  exact absurd htext (by simp)

/-! ## Reading one group -/

theorem read_eq_none_iff {g : CommentGroup} : g.read = .ok none ↔ g.isMarked = false := by
  rw [← extract_eq_none_iff, read]
  cases Marker.extract g.parts with
  | error p => simp
  | ok text? =>
    cases text? with
    | none => simp
    | some text =>
      simp only [Except.ok.injEq, reduceCtorEq, iff_false]
      split <;> simp

theorem read_eq_some_iff {g : CommentGroup} {a : LineExpectation} :
    g.read = .ok (some a) ↔ a.line = g.line ∧ g.Expects a.expectation := by
  obtain ⟨line, expectation⟩ := a
  unfold read Expects
  cases Marker.extract g.parts with
  | error p => simp
  | ok text? =>
    cases text? with
    | none => simp
    | some text =>
      cases hparse : Expectation.parse text with
      | ok e => simp [hparse, eq_comm]
      | error p =>
        obtain rfl := Expectation.parse_eq_error hparse
        simp [hparse]

/-- A group that cannot be read is blank or malformed, and the problem says which. -/
theorem read_eq_error {g : CommentGroup} {p : Problem} (h : g.read = .error p) :
    (g.IsBlank ∧ p.kind = .blankExpectation) ∨ (g.IsMalformed ∧ p.kind = .malformedComment) := by
  unfold read at h
  cases hextract : Marker.extract g.parts with
  | error q =>
    rw [hextract] at h
    obtain rfl := Except.error.inj h
    refine .inr ⟨⟨q, hextract⟩, ?_⟩
    rw [Marker.extract_eq_error hextract]
    rfl
  | ok text? =>
    rw [hextract] at h
    cases text? with
    | none => exact absurd h (by simp)
    | some text =>
      -- only a text that says nothing is refused, and adding the line keeps the kind of the problem
      dsimp only at h
      cases hparse : Expectation.parse text with
      | ok e =>
        rw [hparse] at h
        exact absurd h (by simp)
      | error q =>
        rw [hparse, Expectation.parse_eq_error hparse] at h
        obtain rfl := Except.error.inj h
        refine .inl ⟨⟨text, hextract, ?_⟩, rfl⟩
        intro e he
        rw [hparse] at he
        exact absurd he (by simp)

/-- A group that expects something is an annotation that is neither blank nor malformed. -/
theorem Expects.kinds {g : CommentGroup} {e : Expectation} (h : g.Expects e) :
    g.isMarked = true ∧ ¬ g.IsBlank ∧ ¬ g.IsMalformed := by
  obtain ⟨text, htext, hparse⟩ := h
  refine ⟨?_, ?_, ?_⟩
  -- an unmarked group has no text at all, and this one has one
  · by_contra hmarked
    rw [Bool.not_eq_true, ← extract_eq_none_iff, htext] at hmarked
    exact absurd hmarked (by simp)
  -- a group has one text only, so a blank one and this one cannot be the same
  · rintro ⟨other, hother, hnone⟩
    rw [htext] at hother
    obtain rfl := Option.some.inj (Except.ok.inj hother)
    exact hnone e hparse
  · rintro ⟨p, hp⟩
    rw [htext] at hp
    exact absurd hp (by simp)

theorem Expects.unique {g : CommentGroup} {e f : Expectation} (he : g.Expects e)
    (hf : g.Expects f) : e = f := by
  obtain ⟨text, htext, hparse⟩ := he
  obtain ⟨other, hother, hparse'⟩ := hf
  rw [htext] at hother
  obtain rfl := Option.some.inj (Except.ok.inj hother)
  rw [hparse] at hparse'
  exact Except.ok.inj hparse'

theorem not_blank_not_malformed_of_unmarked {g : CommentGroup} (h : g.isMarked = false) :
    ¬ g.IsBlank ∧ ¬ g.IsMalformed := by
  rw [← extract_eq_none_iff] at h
  constructor
  · rintro ⟨text, htext, -⟩
    rw [h] at htext
    exact absurd htext (by simp)
  · rintro ⟨p, hp⟩
    rw [h] at hp
    exact absurd hp (by simp)

/-! ## Reading all groups -/

/-- Some annotation is malformed, and none before it is blank. -/
def MalformedFirst (gs : List CommentGroup) : Prop :=
  ∃ before g after, gs = before ++ g :: after ∧ g.IsMalformed ∧ ∀ b ∈ before, ¬ b.IsBlank

theorem malformedFirst_cons {g : CommentGroup} {gs : List CommentGroup} :
    MalformedFirst (g :: gs) ↔ g.IsMalformed ∨ (¬ g.IsBlank ∧ MalformedFirst gs) := by
  constructor
  · rintro ⟨before, m, after, heq, hm, hbefore⟩
    -- the malformed group is the first one, or it is among the others and the first is not blank
    cases before with
    | nil =>
      obtain ⟨rfl, -⟩ := List.cons.inj heq
      exact .inl hm
    | cons b before =>
      obtain ⟨rfl, rfl⟩ := List.cons.inj heq
      exact .inr ⟨hbefore g List.mem_cons_self,
        before, m, after, rfl, hm, fun b hb => hbefore b (List.mem_cons_of_mem _ hb)⟩
  · rintro (hg | ⟨hg, before, m, after, rfl, hm, hbefore⟩)
    · exact ⟨[], g, gs, rfl, hg, by simp⟩
    · refine ⟨g :: before, m, after, rfl, hm, ?_⟩
      intro b hb
      rcases List.mem_cons.mp hb with rfl | hb
      · exact hg
      · exact hbefore b hb

/-- What reading all groups gives, by what reading the first one gives. -/
theorem readAll_cons (g : CommentGroup) (gs : List CommentGroup) :
    (g.isMarked = false ∧ readAll (g :: gs) = readAll gs) ∨
      (∃ e, g.Expects e ∧
        readAll (g :: gs) = (⟨g.line, e⟩ :: (readAll gs).1, (readAll gs).2)) ∨
      (∃ p, g.IsBlank ∧ p.kind = .blankExpectation ∧ readAll (g :: gs) = ([], some p)) ∨
      ∃ p, g.IsMalformed ∧ p.kind = .malformedComment ∧ readAll (g :: gs) = ([], some p) := by
  cases hread : g.read with
  | error p =>
    have hall : readAll (g :: gs) = ([], some p) := by rw [readAll, hread]
    rcases read_eq_error hread with ⟨hg, hp⟩ | ⟨hg, hp⟩
    · exact .inr (.inr (.inl ⟨p, hg, hp, hall⟩))
    · exact .inr (.inr (.inr ⟨p, hg, hp, hall⟩))
  | ok a? =>
    cases a? with
    | none => exact .inl ⟨read_eq_none_iff.mp hread, by rw [readAll, hread]⟩
    | some a =>
      obtain ⟨hline, he⟩ := read_eq_some_iff.mp hread
      refine .inr (.inl ⟨a.expectation, he, ?_⟩)
      rw [readAll, hread, ← hline]

/-- All groups can be read exactly if none is blank or malformed. -/
theorem readAll_eq_none_iff {gs : List CommentGroup} :
    (readAll gs).2 = none ↔ ∀ g ∈ gs, ¬ g.IsBlank ∧ ¬ g.IsMalformed := by
  induction gs with
  | nil => simp [readAll]
  | cons g gs ih =>
    -- in each way to read the first group, the two sides agree on it
    rw [List.forall_mem_cons, ← ih]
    rcases readAll_cons g gs with ⟨hg, hall⟩ | ⟨e, he, hall⟩ | ⟨p, hg, -, hall⟩ | ⟨p, hg, -, hall⟩
    · simp [hall, not_blank_not_malformed_of_unmarked hg]
    · simp [hall, he.kinds]
    · simp [hall, hg]
    · simp [hall, hg]

/-- Reading ends at a malformed group exactly if no blank one comes before. -/
theorem readAll_malformed_iff {gs : List CommentGroup} :
    (∃ p, (readAll gs).2 = some p ∧ p.kind = .malformedComment) ↔ MalformedFirst gs := by
  induction gs with
  | nil =>
    simp only [readAll, reduceCtorEq, false_and, exists_false, false_iff]
    rintro ⟨before, g, after, heq, -⟩
    simp at heq
  | cons g gs ih =>
    rw [malformedFirst_cons, ← ih]
    rcases readAll_cons g gs with ⟨hg, hall⟩ | ⟨e, he, hall⟩ | ⟨p, hg, hp, hall⟩ | ⟨p, hg, hp, hall⟩
    · simp [hall, not_blank_not_malformed_of_unmarked hg]
    · simp [hall, he.kinds]
    -- reading has ended at a blank group, so what comes after it does not matter
    · have hnot : ¬ g.IsMalformed := fun hm => hm.not_blank hg
      simp [hall, hg, hnot, hp]
    · simp [hall, hg, hp]

theorem kind_of_readAll {gs : List CommentGroup} {p : Problem} (h : (readAll gs).2 = some p) :
    p.kind = .blankExpectation ∨ p.kind = .malformedComment := by
  induction gs with
  | nil => simp [readAll] at h
  | cons g gs ih =>
    rcases readAll_cons g gs with ⟨-, hall⟩ | ⟨e, -, hall⟩ | ⟨q, -, hq, hall⟩ | ⟨q, -, hq, hall⟩
    · exact ih (by rwa [hall] at h)
    · exact ih (by rwa [hall] at h)
    · rw [hall] at h
      obtain rfl := Option.some.inj h
      exact .inl hq
    · rw [hall] at h
      obtain rfl := Option.some.inj h
      exact .inr hq

/-- If all groups can be read, there is one annotation for each marked group, in order. -/
theorem forall₂_readAll {gs : List CommentGroup} (h : (readAll gs).2 = none) :
    List.Forall₂ (fun g a => a.line = g.line ∧ g.Expects a.expectation)
      (gs.filter isMarked) (readAll gs).1 := by
  induction gs with
  | nil => exact .nil
  | cons g gs ih =>
    rcases readAll_cons g gs with ⟨hg, hall⟩ | ⟨e, he, hall⟩ | ⟨p, -, -, hall⟩ | ⟨p, -, -, hall⟩
    · rw [hall] at h ⊢
      simpa [hg] using ih h
    -- an annotation is marked, so both lists go on with it
    · rw [hall] at h ⊢
      simpa [he.kinds.1] using ⟨he, ih h⟩
    · rw [hall] at h
      exact absurd h (by simp)
    · rw [hall] at h
      exact absurd h (by simp)

/-- The annotations are then on the lines of the marked groups. -/
theorem map_line_readAll {gs : List CommentGroup} (h : (readAll gs).2 = none) :
    (readAll gs).1.map (·.line) = (gs.filter isMarked).map (·.line) := by
  have hpairs := forall₂_readAll h
  generalize gs.filter isMarked = marked, (readAll gs).1 = as at hpairs ⊢
  induction hpairs with
  | nil => rfl
  | cons hga _ ih => rw [List.map_cons, List.map_cons, hga.1, ih]

/-- What holds of all annotations then holds of what the marked groups expect. -/
theorem forall_readAll_iff {gs : List CommentGroup} {P : Int → Expectation → Prop}
    (h : (readAll gs).2 = none) :
    (∀ a ∈ (readAll gs).1, P a.line a.expectation) ↔
      ∀ g ∈ gs.filter isMarked, ∃ e, g.Expects e ∧ P g.line e := by
  have hpairs := forall₂_readAll h
  -- the induction is on the pairs of groups and annotations, whatever they were read from
  generalize gs.filter isMarked = marked, (readAll gs).1 = as at hpairs ⊢
  induction hpairs with
  | nil => simp
  | cons hga _ ih =>
    obtain ⟨hline, hexpects⟩ := hga
    rw [List.forall_mem_cons, List.forall_mem_cons]
    refine and_congr ?_ ih
    constructor
    · intro hP
      exact ⟨_, hexpects, hline ▸ hP⟩
    · rintro ⟨e, he, hP⟩
      rw [hexpects.unique he, hline]
      exact hP

theorem exists_blank_of_readAll {gs : List CommentGroup} {p : Problem}
    (h : (readAll gs).2 = some p) (hp : p.kind = .blankExpectation) : ∃ g ∈ gs, g.IsBlank := by
  induction gs with
  | nil => simp [readAll] at h
  | cons g gs ih =>
    rcases readAll_cons g gs with ⟨-, hall⟩ | ⟨e, -, hall⟩ | ⟨q, hg, -, -⟩ | ⟨q, -, hq, hall⟩
    · obtain ⟨b, hb, hblank⟩ := ih (by rwa [hall] at h)
      exact ⟨b, List.mem_cons_of_mem _ hb, hblank⟩
    · obtain ⟨b, hb, hblank⟩ := ih (by rwa [hall] at h)
      exact ⟨b, List.mem_cons_of_mem _ hb, hblank⟩
    · exact ⟨g, List.mem_cons_self, hg⟩
    -- a malformed group gives another kind of problem
    · rw [hall] at h
      obtain rfl := Option.some.inj h
      exact absurd (hp.symm.trans hq) (by decide)

end CommentGroup

end ExpectedDiagnostics
