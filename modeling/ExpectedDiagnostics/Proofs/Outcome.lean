import ExpectedDiagnostics.CommentGroup
import ExpectedDiagnostics.Outcome
import ExpectedDiagnostics.Proofs.Index.Lines

/-!
# The outcomes of a file's annotations

The annotations of a file claim their lines one after the other (`claimAll`), so an annotation finds
what is on its line unless an earlier one has been there. This turns the history of takes into a
statement about the lines of the index at the beginning.

Main results:

* `on_claimAll` — afterwards, the lines of annotations are empty and the others as before.
* `judged_claimAll` — the outcome of each annotation, and `eq_of_ok_claimAll`: of those on one line
  at most one holds.
* `all_ok_claimAll_iff` — all annotations hold exactly if they are on different lines, and each one
  accepts the only diagnostic of its line.
* `claimAll_congr` — the outcomes depend on what is on the lines of the index only.
-/

namespace ExpectedDiagnostics.Outcome

/-- The outcomes of annotations that claim their lines one after the other, and the index of what
they leave. -/
def claimAll (ix : LineIndex) : List LineExpectation → List Outcome × LineIndex
  | [] => ([], ix)
  | a :: as =>
    let claimed := claim a.expectation a.line ix
    let others := claimAll claimed.2 as
    (claimed.1 :: others.1, others.2)

theorem claim_eq (e : Expectation) (line : Int) (ix : LineIndex) :
    claim e line ix = (ofDiagnostics e line (ix.on line), ix.drop line) := rfl

theorem length_claimAll (ix : LineIndex) (as : List LineExpectation) :
    (claimAll ix as).1.length = as.length := by
  induction as generalizing ix with
  | nil => rfl
  | cons a as ih =>
    rw [claimAll, List.length_cons, List.length_cons, ih]

/-- The lines of annotations are empty afterwards, and the others are as before. -/
theorem on_claimAll (ix : LineIndex) (as : List LineExpectation) (line : Int) :
    (claimAll ix as).2.on line = if line ∈ as.map (·.line) then [] else ix.on line := by
  induction as generalizing ix with
  | nil => simp [claimAll]
  | cons a as ih =>
    rw [claimAll]
    dsimp only
    rw [ih, claim_eq, LineIndex.on_drop, List.map_cons]
    -- a later annotation, this one, or none is on the line
    by_cases hmem : line ∈ as.map (·.line)
    · rw [if_pos hmem, if_pos (List.mem_cons_of_mem _ hmem)]
    · rw [if_neg hmem]
      by_cases ha : line = a.line
      · rw [if_pos ha, if_pos (ha ▸ List.mem_cons_self)]
      · rw [if_neg ha, if_neg]
        intro hcons
        rcases List.mem_cons.mp hcons with heq | htail
        · exact ha heq
        · exact hmem htail

/-- What is left are the diagnostics on the lines of no annotation, as they were. -/
theorem entries_claimAll (ix : LineIndex) (as : List LineExpectation) :
    (claimAll ix as).2.entries =
      ix.entries.filter fun e => !(as.map (·.line)).contains e.1 := by
  induction as generalizing ix with
  | nil =>
    rw [claimAll, List.map_nil, List.filter_eq_self.mpr]
    intro e _
    rfl
  | cons a as ih =>
    rw [claimAll]
    dsimp only
    rw [ih, claim_eq, LineIndex.drop, List.filter_filter]
    apply List.filter_congr
    intro e _
    rw [List.map_cons, List.contains_cons, Bool.not_or, Bool.and_comm]
    rfl

/-! ## One outcome for each annotation -/

/-- What an annotation comes to. Of the index it is only asked what the line held at the beginning,
and of the annotations before it only whether one of them was on the line. -/
structure Judged (ix : LineIndex) (earlier : List LineExpectation) (a : LineExpectation)
    (o : Outcome) : Prop where
  line : o.line = a.line
  expected : o.expected = a.expectation.toString
  taken : a.line ∈ earlier.map (·.line) → o.actual = noneText ∧ o.ok = false
  nothing : a.line ∉ earlier.map (·.line) → ix.on a.line = [] →
    o.actual = noneText ∧ o.ok = false
  one : a.line ∉ earlier.map (·.line) → ∀ d, ix.on a.line = [d] →
    o.actual = d.display ∧ (o.ok = true ↔ a.expectation.accepts d.flat (some d.code) = true)
  several : a.line ∉ earlier.map (·.line) → 1 < (ix.on a.line).length →
    o.actual = severalText ∧ o.ok = false

theorem judged_first (ix : LineIndex) (a : LineExpectation) :
    Judged ix [] a (ofDiagnostics a.expectation a.line (ix.on a.line)) := by
  match hon : ix.on a.line with
  | [] => constructor <;> simp [ofDiagnostics, hon]
  | [d] => constructor <;> simp [ofDiagnostics, hon]
  | _ :: _ :: _ => constructor <;> simp [ofDiagnostics, hon]

/-- An annotation that comes after another one finds the line of the other one empty, and every
other line as it was. -/
theorem Judged.of_drop {ix : LineIndex} {first a : LineExpectation}
    {earlier : List LineExpectation} {o : Outcome} (h : Judged (ix.drop first.line) earlier a o) :
    Judged ix (first :: earlier) a o := by
  have hon := LineIndex.on_drop ix first.line a.line
  by_cases hline : a.line = first.line
  -- on the line of the first one, it is out of luck: an earlier one took all, or nothing is left
  · rw [if_pos hline] at hon
    have hmem : a.line ∈ (first :: earlier).map (·.line) := by
      rw [List.map_cons, hline]
      exact List.mem_cons_self
    refine ⟨h.line, h.expected, ?_, fun hno => absurd hmem hno, fun hno => absurd hmem hno,
      fun hno => absurd hmem hno⟩
    intro _
    by_cases hearlier : a.line ∈ earlier.map (·.line)
    · exact h.taken hearlier
    · exact h.nothing hearlier hon
  · rw [if_neg hline] at hon
    have hiff : a.line ∈ (first :: earlier).map (·.line) ↔ a.line ∈ earlier.map (·.line) := by
      rw [List.map_cons, List.mem_cons, or_iff_right hline]
    constructor
    · exact h.line
    · exact h.expected
    · rw [hiff]
      exact h.taken
    · rw [hiff, ← hon]
      exact h.nothing
    · rw [hiff, ← hon]
      exact h.one
    · rw [hiff, ← hon]
      exact h.several

/-- Each outcome is that of the annotation at the same place. -/
theorem judged_claimAll {ix : LineIndex} {as : List LineExpectation} {i : Nat}
    {a : LineExpectation} {o : Outcome} (ha : as[i]? = some a)
    (ho : (claimAll ix as).1[i]? = some o) : Judged ix (as.take i) a o := by
  induction as generalizing ix i with
  | nil => simp at ha
  | cons first as ih =>
    rw [claimAll] at ho
    cases i with
    | zero =>
      rw [List.getElem?_cons_zero] at ha ho
      obtain rfl := Option.some.inj ha
      obtain rfl := Option.some.inj ho
      exact judged_first ix first
    | succ i =>
      rw [List.getElem?_cons_succ] at ha ho
      exact (ih ha ho).of_drop

/-- Of the annotations on one line, at most one holds. -/
theorem eq_of_ok_claimAll {ix : LineIndex} {as : List LineExpectation} {i j : Nat} {o p : Outcome}
    (ho : (claimAll ix as).1[i]? = some o) (hp : (claimAll ix as).1[j]? = some p)
    (hok : o.ok = true) (pok : p.ok = true) (hline : o.line = p.line) : i = j := by
  -- the later one of two finds that the earlier one was there
  have hlater : ∀ {i j : Nat} {o p : Outcome}, i < j → (claimAll ix as).1[i]? = some o →
      (claimAll ix as).1[j]? = some p → o.line = p.line → p.ok = false := by
    intro i j o p hlt ho hp hline
    have hjlen : j < as.length := by
      rw [← length_claimAll ix as]
      exact (List.getElem?_eq_some_iff.mp hp).1
    have hi := judged_claimAll (List.getElem?_eq_getElem (Nat.lt_trans hlt hjlen)) ho
    have hj := judged_claimAll (List.getElem?_eq_getElem hjlen) hp
    refine (hj.taken ?_).2
    rw [← hj.line, ← hline, hi.line, List.mem_map]
    refine ⟨as[i], ?_, rfl⟩
    rw [List.mem_take_iff_getElem]
    exact ⟨i, by omega, rfl⟩
  rcases Nat.lt_trichotomy i j with hlt | heq | hgt
  · rw [hlater hlt ho hp hline] at pok
    exact absurd pok Bool.false_ne_true
  · exact heq
  · rw [hlater hgt hp ho hline.symm] at hok
    exact absurd hok Bool.false_ne_true

/-! ## When annotations hold -/

/-- An annotation accepts the only one of these diagnostics. -/
def AcceptsOnly (e : Expectation) (ds : List Diagnostic) : Prop :=
  ∃ d, ds = [d] ∧ e.accepts d.flat (some d.code) = true

theorem not_acceptsOnly_nil (e : Expectation) : ¬ AcceptsOnly e [] := by
  rintro ⟨d, hd, -⟩
  exact absurd hd (List.cons_ne_nil _ _).symm

theorem ok_ofDiagnostics_iff {e : Expectation} {line : Int} {ds : List Diagnostic} :
    (ofDiagnostics e line ds).ok = true ↔ AcceptsOnly e ds := by
  unfold AcceptsOnly
  -- an outcome tells apart no, one and several diagnostics, and only one can do
  match ds with
  | [] => simp [ofDiagnostics]
  | [d] => simp [ofDiagnostics]
  | _ :: _ :: _ => simp [ofDiagnostics]

/-- All annotations hold exactly if they are on different lines, and each one accepts the only
diagnostic of its line. -/
theorem all_ok_claimAll_iff {ix : LineIndex} {as : List LineExpectation} :
    (∀ o ∈ (claimAll ix as).1, o.ok = true) ↔
      as.Pairwise (fun a b => a.line ≠ b.line) ∧
        ∀ a ∈ as, AcceptsOnly a.expectation (ix.on a.line) := by
  induction as generalizing ix with
  | nil => simp [claimAll]
  | cons a as ih =>
    rw [claimAll]
    dsimp only
    rw [List.forall_mem_cons, List.forall_mem_cons, List.pairwise_cons, ih, claim_eq]
    dsimp only
    rw [ok_ofDiagnostics_iff]
    constructor
    · rintro ⟨ha, hdistinct, has⟩
      -- a later annotation on the line of `a` would have found the line empty
      have hline : ∀ b ∈ as, a.line ≠ b.line := by
        intro b hb heq
        have hb' := has b hb
        rw [LineIndex.on_drop, if_pos heq.symm] at hb'
        exact not_acceptsOnly_nil _ hb'
      refine ⟨⟨hline, hdistinct⟩, ha, ?_⟩
      intro b hb
      have hb' := has b hb
      rwa [LineIndex.on_drop, if_neg fun heq => hline b hb heq.symm] at hb'
    · rintro ⟨⟨hline, hdistinct⟩, ha, has⟩
      refine ⟨ha, hdistinct, ?_⟩
      intro b hb
      rw [LineIndex.on_drop, if_neg fun heq => hline b hb heq.symm]
      exact has b hb

/-! ## The lines decide -/

/-- The outcomes depend on what is on the lines only, and so does what is left. -/
theorem claimAll_congr {ix other : LineIndex} (h : LineIndex.SameOnLines ix other)
    (as : List LineExpectation) :
    (claimAll ix as).1 = (claimAll other as).1 ∧
      LineIndex.SameOnLines (claimAll ix as).2 (claimAll other as).2 := by
  induction as generalizing ix other with
  | nil => exact ⟨rfl, h⟩
  | cons a as ih =>
    obtain ⟨houtcomes, hrest⟩ := ih (h.drop a.line)
    rw [claimAll, claimAll, claim_eq, claim_eq, h a.line]
    dsimp only
    exact ⟨by rw [houtcomes], hrest⟩

end ExpectedDiagnostics.Outcome
