import ExpectedDiagnostics.Proofs.Run.File
import ExpectedDiagnostics.Proofs.Run.History

/-!
# What becomes of the diagnostics of a file

A check that finishes a file uses each diagnostic once and loses none: the first annotation on a
line takes all that is on it, whatever it expects, and what is on the lines of no annotation is left
over.

Main results:

* `checkFile_summary` — a check that gives a summary, after whatever has been checked before: the
  annotations are read in order, their outcomes are told one after the other, and the summary is the
  one of these outcomes and of the index that is left.
* `checkFile_usesOnce` — what each diagnostic is used for.
-/

namespace ExpectedDiagnostics.Run

/-- What a finished check has done with the diagnostics of an index, by the annotations of the file,
their outcomes, the index that is left, and the summary. -/
structure UsesOnce (index : LineIndex) (as : List LineExpectation) (os : List Outcome)
    (rest : LineIndex) (summary : FileSummary) : Prop where
  /-- There is one outcome for each annotation, in order. -/
  one_each : os.length = as.length
  judged : ∀ (i : Nat) a o, as[i]? = some a → os[i]? = some o → Outcome.Judged index (as.take i) a o
  /-- No two annotations on one line hold. -/
  one_holds : ∀ (i j : Nat) (o p : Outcome), os[i]? = some o → os[j]? = some p →
    o.ok = true → p.ok = true → o.line = p.line → i = j
  failures : summary.failures = os.filter (!·.ok)
  /-- The annotations have consumed what was on their lines and nothing else. -/
  rest : rest.entries = index.entries.filter fun e => !(as.map (·.line)).contains e.1
  /-- What is left over are the diagnostics on the lines of no annotation, by ascending line and in
  the order in which they were added. -/
  leftovers : ∃ lines : List Int, lines.Pairwise (· < ·) ∧
    (∀ line, line ∈ lines ↔ index.on line ≠ [] ∧ line ∉ as.map (·.line)) ∧
    summary.leftovers = lines.flatMap index.on ∧ summary.counts.leftovers = lines.length

variable {run : Run} {source : Source} {index : LineIndex} {groups : List CommentGroup}
  {summary : FileSummary}

/-- Only a run without an open file can check one. -/
theorem current_of_checkFile_ok {summary? : Option FileSummary}
    (h : (run.checkFile source index groups).2.2 = .ok summary?) : run.current = none := by
  unfold checkFile beginFile at h
  cases hopen : run.current with
  | none => rfl
  | some other =>
    rw [hopen] at h
    exact absurd h (by simp)

theorem checkFile_summary (h : (run.checkFile source index groups).2.2 = .ok (some summary)) :
    (CommentGroup.readAll groups).2 = none ∧
      summary = summaryOf run.unexpected source (claims index groups).1 (claims index groups).2 ∧
      (run.checkFile source index groups).2.1 = (claims index groups).2 ∧
      (run.checkFile source index groups).1.events = run.events ++
        (.begun source.path.toString :: (claims index groups).1.map .checked ++
          [.finished summary]) := by
  have hclosed := current_of_checkFile_ok h
  rw [checkFile_followedBy run hclosed] at h ⊢
  -- at the start of a run, of the ends that are no failure only one gives a summary
  rcases checkFile_ok_cases h with ⟨hread, hcount, hsummary⟩ | ⟨p, -, -, hnone⟩
  · obtain rfl := Option.some.inj hsummary
    rw [checkFile_finished hread hcount]
    exact ⟨hread, rfl, rfl, rfl⟩
  · exact absurd hnone (by simp)

theorem usesOnce_claimAll (unexpected : Bool) (source : Source) (index : LineIndex)
    (as : List LineExpectation) :
    UsesOnce index as (Outcome.claimAll index as).1 (Outcome.claimAll index as).2
      (summaryOf unexpected source (Outcome.claimAll index as).1
        (Outcome.claimAll index as).2) := by
  obtain ⟨lines, hasc, hlines⟩ := (Outcome.claimAll index as).2.exists_ascending_lines
  obtain ⟨hleftovers, hcount⟩ := LineIndex.leftovers_eq_flatMap hasc hlines
  -- a line that still holds something is the line of no annotation, and holds what it held before
  have hmem : ∀ line, line ∈ lines ↔ index.on line ≠ [] ∧ line ∉ as.map (·.line) := by
    intro line
    rw [hlines, Outcome.on_claimAll]
    by_cases hline : line ∈ as.map (·.line)
    · simp [hline]
    · simp [hline]
  refine ⟨Outcome.length_claimAll index as, fun i a o ha ho => Outcome.judged_claimAll ha ho,
    fun i j o p ho hp => Outcome.eq_of_ok_claimAll ho hp, rfl, Outcome.entries_claimAll index as,
    lines, hasc, hmem, ?_, ?_⟩
  · have hon : lines.flatMap (Outcome.claimAll index as).2.on = lines.flatMap index.on := by
      rw [List.flatMap_def, List.flatMap_def]
      congr 1
      apply List.map_congr_left
      intro line hline
      rw [Outcome.on_claimAll, if_neg ((hmem line).mp hline).2]
    exact hleftovers.trans hon
  · exact congrArg Int.ofNat hcount

/-- **Each diagnostic is used once and none is lost.** A check that gives a summary has told one
outcome for each annotation of its file, and has used the diagnostics of the index once. What it has
consumed does not depend on what the annotations expect: another check of annotations on the same
lines leaves the same index. -/
theorem checkFile_usesOnce
    (h : (run.checkFile source index groups).2.2 = .ok (some summary)) :
    (∃ as os,
      List.Forall₂ (fun g a => a.line = g.line ∧ g.Expects a.expectation)
        (groups.filter CommentGroup.isMarked) as ∧
      (run.checkFile source index groups).1.events = run.events ++
        (.begun source.path.toString :: os.map .checked ++ [.finished summary]) ∧
      UsesOnce index as os (run.checkFile source index groups).2.1 summary) ∧
    ∀ (other : Run) (otherSource : Source) (otherGroups : List CommentGroup)
      (otherSummary : FileSummary),
      (other.checkFile otherSource index otherGroups).2.2 = .ok (some otherSummary) →
      (otherGroups.filter CommentGroup.isMarked).map (·.line) =
        (groups.filter CommentGroup.isMarked).map (·.line) →
      (other.checkFile otherSource index otherGroups).2.1 =
        (run.checkFile source index groups).2.1 := by
  obtain ⟨hread, hsummary, hrest, hevents⟩ := checkFile_summary h
  constructor
  · refine ⟨(CommentGroup.readAll groups).1, (claims index groups).1,
      CommentGroup.forall₂_readAll hread, hevents, ?_⟩
    rw [hrest, hsummary]
    exact usesOnce_claimAll _ _ _ _
  · intro other otherSource otherGroups otherSummary hother hlines
    obtain ⟨hread', -, hrest', -⟩ := checkFile_summary hother
    -- both leave what is on no line of an annotation, and these lines are those of the groups
    rw [hrest, hrest']
    unfold claims
    have hentries : ∀ {a b : LineIndex}, a.entries = b.entries → a = b := by
      rintro ⟨_⟩ ⟨_⟩ rfl
      rfl
    apply hentries
    rw [Outcome.entries_claimAll, Outcome.entries_claimAll, CommentGroup.map_line_readAll hread,
      CommentGroup.map_line_readAll hread', hlines]

/-! A file with two annotations on one line, of which only the first one finds the diagnostic there,
and a diagnostic on another line. -/

def crowdedSource : Source :=
  ⟨.ofString "a.ts", "//%ts-expect-error:a//%ts-expect-error:a"⟩

def crowdedGroups : List CommentGroup :=
  [⟨1, ["//%ts-expect-error:a"]⟩, ⟨1, ["//%ts-expect-error:a"]⟩]

def crowdedIndex : LineIndex :=
  .ofList [⟨none, 4, .text "b", 2, 0, "error"⟩, ⟨none, 1, .text "a", 1, 0, "error"⟩]

theorem checkFile_crowded :
    ((start true).checkFile crowdedSource crowdedIndex crowdedGroups).2.2 =
      .ok (some (summaryOf true crowdedSource (claims crowdedIndex crowdedGroups).1
        (claims crowdedIndex crowdedGroups).2)) := by
  rw [checkFile_finished (by decide) (by decide)]

theorem outcomes_crowded : (claims crowdedIndex crowdedGroups).1 =
    [⟨1, "a", "a (1)", true⟩, ⟨1, "a", Outcome.noneText, false⟩] := by
  decide

/-- The check of this file gives a summary, and has used each diagnostic once. -/
theorem crowded_usesOnce :
    ∃ summary, ((start true).checkFile crowdedSource crowdedIndex crowdedGroups).2.2 =
        .ok (some summary) ∧
      summary.failures = [⟨1, "a", Outcome.noneText, false⟩] ∧ summary.counts = ⟨1, 1, 1⟩ ∧
      ∃ as os, UsesOnce crowdedIndex as os
        ((start true).checkFile crowdedSource crowdedIndex crowdedGroups).2.1 summary := by
  obtain ⟨⟨as, os, -, -, h⟩, -⟩ := checkFile_usesOnce checkFile_crowded
  refine ⟨_, checkFile_crowded, ?_, ?_, as, os, h⟩
  · unfold summaryOf
    rw [outcomes_crowded]
    rfl
  · unfold summaryOf countsOf
    rw [outcomes_crowded]
    decide

end ExpectedDiagnostics.Run
