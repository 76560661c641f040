import ExpectedDiagnostics.Run

/-!
# Sequences of operations

The five operations of a run can be asked for in any order. One that is out of turn fails, and the
run goes on from the state that the failure leaves. For each operation one equation says what it
does while no file is open, and one what it does with the open file.
-/

namespace ExpectedDiagnostics.Run

/-- An operation that a run is asked for. -/
inductive Operation
  | beginFile (source : Source)
  | record (o : Outcome)
  | finishFile (index : LineIndex)
  | abortFile (problem : Problem)
  | finish

/-- What an operation answers. -/
inductive Answer
  | nothing
  | file (summary : FileSummary)
  | whole (summary : RunSummary)
  | failed (f : Failure)

/-- The run after an operation, be it one that fails, and the answer. -/
def perform (run : Run) : Operation → Run × Answer
  | .beginFile source =>
    match run.beginFile source with
    | .error f => (run, .failed f)
    | .ok next => (next, .nothing)
  | .record o =>
    match run.record o with
    | .error f => (run, .failed f)
    | .ok next => (next, .nothing)
  | .finishFile index =>
    match run.finishFile index with
    | (next, .error f) => (next, .failed f)
    | (next, .ok summary) => (next, .file summary)
  | .abortFile problem =>
    match run.abortFile problem with
    | .error f => (run, .failed f)
    | .ok next => (next, .nothing)
  | .finish =>
    match run.finish with
    | .error f => (run, .failed f)
    | .ok (next, summary) => (next, .whole summary)

variable {run : Run} {source : Source}

/-! ## No file is open -/

section

variable (hclosed : run.current = none)

include hclosed

theorem perform_beginFile (source : Source) :
    run.perform (.beginFile source) =
      ({ run with counts := .zero, current := some source, failures := [] }.tell
        (.begun source.path.toString), .nothing) := by
  simp only [perform, beginFile, hclosed]

theorem perform_record_closed (o : Outcome) :
    run.perform (.record o) = (run, .failed .noFile) := by
  simp only [perform, record, openFile, hclosed]
  rfl

theorem perform_finishFile_closed (index : LineIndex) :
    run.perform (.finishFile index) = (run, .failed .noFile) := by
  simp only [perform, finishFile, openFile, hclosed]

theorem perform_abortFile_closed (problem : Problem) :
    run.perform (.abortFile problem) = (run, .failed .noFile) := by
  simp only [perform, abortFile, openFile, hclosed]
  rfl

theorem perform_finish :
    run.perform .finish = (run.tell (.done run.summary), .whole run.summary) := by
  simp only [perform, finish, hclosed]

end

/-! ## A file is open -/

section

variable (hopen : run.current = some source)

include hopen

theorem perform_beginFile_open (other : Source) :
    run.perform (.beginFile other) = (run, .failed (.unfinished source.path)) := by
  simp only [perform, beginFile, hopen]

theorem perform_record (o : Outcome) :
    run.perform (.record o) =
      (({ run with
          counts := countOutcome run.counts o
          failures := if o.ok then run.failures else run.failures ++ [o] }.note .debug
        (outcomeText source o)).tell (.checked o), .nothing) := by
  simp only [perform, record, openFile, hopen]
  rfl

/-- The file is finished if it has as many markers as checked annotations. -/
theorem perform_finishFile {index : LineIndex}
    (hcount : (Marker.count source.text : Int) = run.counts.checks) :
    run.perform (.finishFile index) =
      let counts := withLeftovers run.counts index
      let summary := run.fileSummary source counts index
      ({ run with
          counts, totals := run.totals + counts, fileCount := run.fileCount + 1, current := none,
          failures := [] }.tell (.finished summary), .file summary) := by
  have hbeq : ((Marker.count source.text : Int) == (withLeftovers run.counts index).checks) =
      true := beq_iff_eq.mpr hcount
  simp only [perform, finishFile, openFile, hopen, hbeq, if_true]

/-- Otherwise it stays open, and the lines that are left over have been counted. -/
theorem perform_finishFile_mismatch {index : LineIndex}
    (hcount : (Marker.count source.text : Int) ≠ run.counts.checks) :
    run.perform (.finishFile index) =
      ({ run with counts := withLeftovers run.counts index },
        .failed (.problem (.countMismatch (Marker.count source.text) run.counts.checks
          source.path))) := by
  have hbeq : ((Marker.count source.text : Int) == (withLeftovers run.counts index).checks) =
      false := beq_eq_false_iff_ne.mpr hcount
  simp only [perform, finishFile, openFile, hopen, hbeq, Bool.false_eq_true, if_false]
  rfl

theorem perform_abortFile (problem : Problem) :
    run.perform (.abortFile problem) =
      let path := source.path.toString
      ({ run.note .error (path ++ ": " ++ problem.message) with
          counts := .zero, fileCount := run.fileCount + 1, aborted := run.aborted ++ [path],
          current := none, failures := [] }.tell (.aborted path problem), .nothing) := by
  simp only [perform, abortFile, openFile, hopen]
  rfl

theorem perform_finish_open :
    run.perform .finish = (run, .failed (.unfinished source.path)) := by
  simp only [perform, finish, hopen]

end

end ExpectedDiagnostics.Run
