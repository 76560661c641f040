import ExpectedDiagnostics.Proofs.CommentGroup
import ExpectedDiagnostics.Proofs.Counts
import ExpectedDiagnostics.Proofs.Outcome
import ExpectedDiagnostics.Run
import Mathlib.Data.List.Count

/-!
# The check of one file

At the start of a run, the check of a file is a function of its annotations and of its index: the
annotations that can be read claim their lines (`checking`), and then the file ends in one of four
ways. If all groups can be read, the file is finished when there are as many annotations as markers,
and fails otherwise; if a group is blank the file is given up; if it is malformed the check fails.

Main results:

* `checkFile_start` — the check of a file up to its end.
* `checkFile_finished`, `checkFile_mismatch`, `checkFile_blank`, `checkFile_malformed` — the four
  ends, with all they change.
* `checkFile_error_iff` — which checks fail: those of files whose comments and markers disagree.
* `checkFile_ok_cases` / `closed_of_checkFile_ok` — what every other check gives, and what it
  leaves: no open file, and one file more.
-/

namespace ExpectedDiagnostics.Run

/-- The counts of a file, by the outcomes of its annotations and the index of what they leave. -/
def countsOf (os : List Outcome) (rest : LineIndex) : Counts :=
  ⟨os.countP (·.ok), os.countP (!·.ok), rest.leftoverCount⟩

/-- What is told of a finished file, by the outcomes of its annotations and the index of what they
leave. -/
def summaryOf (unexpected : Bool) (source : Source) (os : List Outcome) (rest : LineIndex) :
    FileSummary :=
  ⟨source.path.toString, countsOf os rest, os.filter (!·.ok), rest.leftovers,
    (countsOf os rest).passed unexpected⟩

/-- The run that has begun with a file and has counted these outcomes of its annotations. -/
def checking (unexpected : Bool) (source : Source) (os : List Outcome) : Run :=
  { start unexpected with
    counts := ⟨os.countP (·.ok), os.countP (!·.ok), 0⟩
    current := some source
    failures := os.filter (!·.ok)
    events := .begun source.path.toString :: os.map .checked
    log := os.map fun o => ⟨.debug, Log.runnerPart, outcomeText source o⟩ }

theorem nonnegative_countsOf (os : List Outcome) (rest : LineIndex) :
    (countsOf os rest).Nonnegative :=
  ⟨Int.natCast_nonneg _, Int.natCast_nonneg _, Int.natCast_nonneg _⟩

/-- Every outcome is counted, as a success or as a failure. -/
theorem checks_countsOf (os : List Outcome) (rest : LineIndex) :
    (countsOf os rest).checks = os.length := by
  have hall := List.length_eq_countP_add_countP (fun o : Outcome => o.ok) (l := os)
  -- the library counts by a proposition, the run by the boolean
  have hneg : os.countP (fun o => decide (¬ o.ok = true)) = os.countP (!·.ok) := by
    congr 1
    funext o
    cases o.ok <;> rfl
  rw [hneg] at hall
  unfold countsOf Counts.checks
  dsimp only
  omega

/-- A file has no problem exactly if all its annotations hold and, where leftovers are problems,
nothing is left over. -/
theorem passed_countsOf_iff {unexpected : Bool} {os : List Outcome} {rest : LineIndex} :
    (countsOf os rest).passed unexpected = true ↔
      (∀ o ∈ os, o.ok = true) ∧ (unexpected = true → ∀ line, rest.on line = []) := by
  rw [Counts.passed_iff (nonnegative_countsOf os rest), ← LineIndex.leftoverCount_eq_zero_iff]
  unfold countsOf
  dsimp only
  rw [Int.natCast_eq_zero, Int.natCast_eq_zero, List.countP_eq_zero]
  simp

/-! ## Up to the end -/

section

variable {unexpected : Bool} {source : Source} {index : LineIndex} {groups : List CommentGroup}

theorem record_checking (done : List Outcome) (o : Outcome) :
    (checking unexpected source done).record o =
      .ok (checking unexpected source (done ++ [o])) := by
  unfold record
  simp only [openFile, checking, bind, Except.bind, pure, Except.pure, note, tell, countOutcome,
    Except.ok.injEq]
  cases hok : o.ok <;> simp [hok]

/-- The annotations claim their lines one after the other, and their outcomes are counted. -/
theorem recordAll_checking (done : List Outcome) (as : List LineExpectation) :
    (checking unexpected source done).recordAll index as =
      (checking unexpected source (done ++ (Outcome.claimAll index as).1),
        (Outcome.claimAll index as).2, none) := by
  -- the outcomes so far are the invariant; each claim leaves another index to the next one
  induction as generalizing done index with
  | nil => simp [recordAll, Outcome.claimAll]
  | cons a as ih =>
    rw [recordAll, Outcome.claimAll]
    dsimp only
    rw [record_checking]
    dsimp only
    rw [ih, List.append_assoc]
    rfl

/-- The outcomes of the annotations that can be read, and the index of what they leave. -/
def claims (index : LineIndex) (groups : List CommentGroup) : List Outcome × LineIndex :=
  Outcome.claimAll index (CommentGroup.readAll groups).1

theorem checkFile_start :
    (start unexpected).checkFile source index groups =
      let ended := (checking unexpected source (claims index groups).1).closeFile
        (claims index groups).2 (CommentGroup.readAll groups).2
      (ended.1, (claims index groups).2, ended.2) := by
  have hbegin : (start unexpected).beginFile source = .ok (checking unexpected source []) := rfl
  unfold checkFile
  rw [hbegin]
  dsimp only
  rw [recordAll_checking, List.nil_append]
  rfl

theorem length_claims :
    (claims index groups).1.length = (CommentGroup.readAll groups).1.length :=
  Outcome.length_claimAll _ _

/-! ## The four ends -/

theorem openFile_checking (os : List Outcome) :
    (checking unexpected source os).openFile = .ok source := rfl

private theorem withLeftovers_checking (os : List Outcome) (rest : LineIndex) :
    withLeftovers (checking unexpected source os).counts rest = countsOf os rest := by
  unfold withLeftovers checking countsOf
  simp

/-- All groups can be read, and there are as many annotations as markers: the file is finished. -/
theorem checkFile_finished (hread : (CommentGroup.readAll groups).2 = none)
    (hcount : Marker.count source.text = (CommentGroup.readAll groups).1.length) :
    (start unexpected).checkFile source index groups =
      let os := (claims index groups).1
      let rest := (claims index groups).2
      let summary := summaryOf unexpected source os rest
      ({ checking unexpected source os with
          counts := countsOf os rest, totals := countsOf os rest, fileCount := 1, current := none,
          failures := [] }.tell (.finished summary), rest, .ok (some summary)) := by
  rw [checkFile_start, hread]
  dsimp only
  unfold closeFile finishFile
  -- the number of outcomes is that of the annotations, which is that of the markers
  simp only [openFile_checking, withLeftovers_checking, checks_countsOf, length_claims, hcount,
    beq_self_eq_true, if_true]
  rw [show (checking unexpected source (claims index groups).1).totals = (0 : Counts) from rfl,
    zero_add]
  rfl

/-- All groups can be read, but there are more or fewer annotations than markers: the check
fails. -/
theorem checkFile_mismatch (hread : (CommentGroup.readAll groups).2 = none)
    (hcount : Marker.count source.text ≠ (CommentGroup.readAll groups).1.length) :
    (start unexpected).checkFile source index groups =
      ({ checking unexpected source (claims index groups).1 with
          counts := countsOf (claims index groups).1 (claims index groups).2 },
        (claims index groups).2,
        .error (.problem (.countMismatch (Marker.count source.text)
          (CommentGroup.readAll groups).1.length source.path))) := by
  -- both numbers are natural, but the run compares them as integers
  have hne : ((Marker.count source.text : Int) ==
      ((CommentGroup.readAll groups).1.length : Int)) = false := by
    rw [beq_eq_false_iff_ne]
    omega
  rw [checkFile_start, hread]
  dsimp only
  unfold closeFile finishFile
  simp only [openFile_checking, withLeftovers_checking, checks_countsOf, length_claims, hne,
    Bool.false_eq_true, if_false]
  rfl

/-- A group is blank: the file is given up. -/
theorem checkFile_blank {p : Problem} (hread : (CommentGroup.readAll groups).2 = some p)
    (hp : p.kind = .blankExpectation) :
    (start unexpected).checkFile source index groups =
      let path := source.path.toString
      let os := (claims index groups).1
      ({ (checking unexpected source os).note .error (path ++ ": " ++ p.message) with
          counts := .zero, fileCount := 1, aborted := [path], current := none,
          failures := [] }.tell (.aborted path p), (claims index groups).2, .ok none) := by
  rw [checkFile_start, hread]
  dsimp only
  unfold closeFile
  dsimp only
  rw [hp]
  unfold abortFile
  rw [openFile_checking]
  rfl

/-- A group is malformed: the check fails. -/
theorem checkFile_malformed {p : Problem} (hread : (CommentGroup.readAll groups).2 = some p)
    (hp : p.kind = .malformedComment) :
    (start unexpected).checkFile source index groups =
      (checking unexpected source (claims index groups).1, (claims index groups).2,
        .error (.problem p)) := by
  rw [checkFile_start, hread]
  dsimp only
  unfold closeFile
  dsimp only
  rw [hp]
  rfl

theorem end_cases (source : Source) (groups : List CommentGroup) :
    ((CommentGroup.readAll groups).2 = none ∧
        Marker.count source.text = (CommentGroup.readAll groups).1.length) ∨
      ((CommentGroup.readAll groups).2 = none ∧
        Marker.count source.text ≠ (CommentGroup.readAll groups).1.length) ∨
      (∃ p, (CommentGroup.readAll groups).2 = some p ∧ p.kind = .blankExpectation) ∨
      ∃ p, (CommentGroup.readAll groups).2 = some p ∧ p.kind = .malformedComment := by
  cases hread : (CommentGroup.readAll groups).2 with
  | none =>
    by_cases hcount : Marker.count source.text = (CommentGroup.readAll groups).1.length
    · exact .inl ⟨rfl, hcount⟩
    · exact .inr (.inl ⟨rfl, hcount⟩)
  | some p =>
    rcases CommentGroup.kind_of_readAll hread with hp | hp
    · exact .inr (.inr (.inl ⟨p, rfl, hp⟩))
    · exact .inr (.inr (.inr ⟨p, rfl, hp⟩))

/-! ## Failed and other checks -/

/-- The comments of a file and its markers disagree: an annotation is malformed and none before it
is blank, or all annotations can be read but are more or fewer than the markers. -/
def Disagrees (source : Source) (groups : List CommentGroup) : Prop :=
  CommentGroup.MalformedFirst groups ∨
    ((∀ g ∈ groups, ¬ g.IsBlank ∧ ¬ g.IsMalformed) ∧
      groups.countP CommentGroup.isMarked ≠ Marker.count source.text)

theorem length_readAll (hread : (CommentGroup.readAll groups).2 = none) :
    (CommentGroup.readAll groups).1.length = groups.countP CommentGroup.isMarked := by
  rw [List.countP_eq_length_filter]
  exact (CommentGroup.forall₂_readAll hread).length_eq.symm

/-- A check fails exactly if the comments and the markers of its file disagree. -/
theorem checkFile_error_iff :
    (∃ f, ((start unexpected).checkFile source index groups).2.2 = .error f) ↔
      Disagrees source groups := by
  unfold Disagrees
  -- said by what reading gives, each end decides both sides
  rw [← CommentGroup.readAll_malformed_iff, ← CommentGroup.readAll_eq_none_iff]
  rcases end_cases source groups with
    ⟨hread, hcount⟩ | ⟨hread, hcount⟩ | ⟨p, hread, hp⟩ | ⟨p, hread, hp⟩
  · rw [checkFile_finished hread hcount]
    simp [hread, ← length_readAll hread, hcount]
  · rw [checkFile_mismatch hread hcount]
    simp [hread, ← length_readAll hread, Ne.symm hcount]
  · rw [checkFile_blank hread hp]
    simp [hread, hp]
  · rw [checkFile_malformed hread hp]
    simp [hread, hp]

theorem internal_of_checkFile_error {f : Failure}
    (h : ((start unexpected).checkFile source index groups).2.2 = .error f) :
    ∃ p, f = .problem p ∧ p.kind.isUnder .internal = true := by
  rcases end_cases source groups with
    ⟨hread, hcount⟩ | ⟨hread, hcount⟩ | ⟨p, hread, hp⟩ | ⟨p, hread, hp⟩
  · rw [checkFile_finished hread hcount] at h
    exact absurd h (by simp)
  · rw [checkFile_mismatch hread hcount] at h
    -- the two problems that fail a check are both of the internal kind
    exact ⟨_, (Except.error.inj h).symm, rfl⟩
  · rw [checkFile_blank hread hp] at h
    exact absurd h (by simp)
  · rw [checkFile_malformed hread hp] at h
    exact ⟨p, (Except.error.inj h).symm, by rw [hp]; decide⟩

/-- A check that does not fail has finished the file, and gives its summary, or has given the file
up. -/
theorem checkFile_ok_cases {summary? : Option FileSummary}
    (h : ((start unexpected).checkFile source index groups).2.2 = .ok summary?) :
    ((CommentGroup.readAll groups).2 = none ∧
        Marker.count source.text = (CommentGroup.readAll groups).1.length ∧
        summary? =
          some (summaryOf unexpected source (claims index groups).1 (claims index groups).2)) ∨
      ∃ p, (CommentGroup.readAll groups).2 = some p ∧ p.kind = .blankExpectation ∧
        summary? = none := by
  rcases end_cases source groups with
    ⟨hread, hcount⟩ | ⟨hread, hcount⟩ | ⟨p, hread, hp⟩ | ⟨p, hread, hp⟩
  · rw [checkFile_finished hread hcount] at h
    exact .inl ⟨hread, hcount, (Except.ok.inj h).symm⟩
  · rw [checkFile_mismatch hread hcount] at h
    exact absurd h (by simp)
  · rw [checkFile_blank hread hp] at h
    exact .inr ⟨p, hread, hp, (Except.ok.inj h).symm⟩
  · rw [checkFile_malformed hread hp] at h
    exact absurd h (by simp)

/-- A check that does not fail leaves no file open, counts one file, and counts nothing below
zero. -/
theorem closed_of_checkFile_ok {summary? : Option FileSummary}
    (h : ((start unexpected).checkFile source index groups).2.2 = .ok summary?) :
    let run := ((start unexpected).checkFile source index groups).1
    run.current = none ∧ run.unexpected = unexpected ∧ run.fileCount = 1 ∧
      run.totals.Nonnegative := by
  rcases checkFile_ok_cases h with ⟨hread, hcount, -⟩ | ⟨p, hread, hp, -⟩
  · rw [checkFile_finished hread hcount]
    exact ⟨rfl, rfl, rfl, nonnegative_countsOf _ _⟩
  · rw [checkFile_blank hread hp]
    exact ⟨rfl, rfl, rfl, .zero⟩

end

end ExpectedDiagnostics.Run
