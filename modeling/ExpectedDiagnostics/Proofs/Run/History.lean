import ExpectedDiagnostics.Proofs.Counts
import ExpectedDiagnostics.Run

/-!
# What came before a file

A run carries its past along without looking at it: the totals, the number of files, the files given
up, the events and the log only grow at their ends. So the check of a file does the same whatever
has been checked before it, and what it does is added to the past (`checkFile_followedBy`).
-/

namespace ExpectedDiagnostics.Run

/-- A run with a later one added to it: the totals and the files of both count, what was told and
logged comes one after the other, and the later one says which file is open. -/
def followedBy (run later : Run) : Run :=
  { later with
    totals := run.totals + later.totals, fileCount := run.fileCount + later.fileCount,
    aborted := run.aborted ++ later.aborted, events := run.events ++ later.events,
    log := run.log ++ later.log }

variable (run later : Run)

/-! ## Steps of the later run -/

theorem tell_followedBy (e : Event) :
    (run.followedBy later).tell e = run.followedBy (later.tell e) := by
  unfold tell followedBy
  rw [List.append_assoc]

theorem note_followedBy (level : Level) (text : String) :
    (run.followedBy later).note level text = run.followedBy (later.note level text) := by
  unfold note followedBy
  rw [List.append_assoc]

theorem record_followedBy (o : Outcome) :
    (run.followedBy later).record o = (later.record o).map run.followedBy := by
  unfold record openFile
  -- only the later run knows a file, so whether there is one to count for is up to it
  cases hopen : later.current with
  | none => rw [show (run.followedBy later).current = none from hopen]; rfl
  | some source =>
    rw [show (run.followedBy later).current = some source from hopen]
    simp only [bind, Except.bind, pure, Except.pure, Except.map]
    rw [← tell_followedBy, ← note_followedBy]
    rfl

theorem recordAll_followedBy (index : LineIndex) (as : List LineExpectation) :
    (run.followedBy later).recordAll index as =
      (run.followedBy (later.recordAll index as).1, (later.recordAll index as).2) := by
  -- each step changes the later run and the index, so both vary in the induction
  induction as generalizing later index with
  | nil => rfl
  | cons a as ih =>
    rw [recordAll, recordAll]
    dsimp only
    rw [record_followedBy]
    cases later.record (Outcome.claim a.expectation a.line index).1 with
    | error f => rfl
    | ok next => exact ih next _

theorem finishFile_followedBy (index : LineIndex) :
    (run.followedBy later).finishFile index =
      (run.followedBy (later.finishFile index).1, (later.finishFile index).2) := by
  unfold finishFile openFile
  cases hopen : later.current with
  | none => rw [show (run.followedBy later).current = none from hopen]
  | some source =>
    rw [show (run.followedBy later).current = some source from hopen]
    dsimp only
    rw [show (run.followedBy later).counts = later.counts from rfl]
    -- as many annotations as markers, or not: the counts compared are those of the later run
    split
    · rw [← tell_followedBy]
      unfold followedBy
      simp only [Prod.mk.injEq, add_assoc]
      exact ⟨rfl, rfl⟩
    · rfl

theorem abortFile_followedBy (problem : Problem) :
    (run.followedBy later).abortFile problem =
      (later.abortFile problem).map run.followedBy := by
  unfold abortFile openFile
  cases hopen : later.current with
  | none => rw [show (run.followedBy later).current = none from hopen]; rfl
  | some source =>
    rw [show (run.followedBy later).current = some source from hopen]
    simp only [bind, Except.bind, pure, Except.pure, Except.map]
    rw [note_followedBy, ← tell_followedBy]
    unfold followedBy
    simp only [add_assoc, List.append_assoc]

theorem closeFile_followedBy (index : LineIndex) (problem : Option Problem) :
    (run.followedBy later).closeFile index problem =
      (run.followedBy (later.closeFile index problem).1, (later.closeFile index problem).2) := by
  cases problem with
  | none =>
    unfold closeFile
    dsimp only
    rw [finishFile_followedBy]
  | some problem =>
    unfold closeFile
    dsimp only
    rw [abortFile_followedBy]
    split
    · cases later.abortFile problem with
      | error f => rfl
      | ok next => rfl
    · rfl

/-! ## A whole file -/

/-- A file is begun after a past as it is begun at the start of a run. -/
theorem beginFile_eq_start (hclosed : run.current = none) (source : Source) :
    run.beginFile source =
      ((start run.unexpected).beginFile source).map run.followedBy := by
  unfold beginFile
  rw [hclosed]
  unfold tell followedBy start
  -- what remains is that nothing has been added to the totals yet
  simp [Except.map]
  exact (add_zero run.totals).symm

/-- The check of a file does the same whatever has been checked before it, and is added to the
past. -/
theorem checkFile_followedBy (hclosed : run.current = none) (source : Source) (index : LineIndex)
    (groups : List CommentGroup) :
    run.checkFile source index groups =
      (run.followedBy ((start run.unexpected).checkFile source index groups).1,
        ((start run.unexpected).checkFile source index groups).2) := by
  unfold checkFile
  rw [beginFile_eq_start run hclosed]
  -- a run that has just started has no open file, so it can always begin with one
  cases hbegin : (start run.unexpected).beginFile source with
  | error f => exact absurd hbegin (by simp [beginFile, start])
  | ok opened =>
    simp only [Except.map]
    rw [recordAll_followedBy]
    dsimp only
    cases (opened.recordAll index (CommentGroup.readAll groups).1).2.2 with
    | some f => rfl
    | none =>
      dsimp only
      rw [closeFile_followedBy]

end ExpectedDiagnostics.Run
