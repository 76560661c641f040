import ExpectedDiagnostics.CommentGroup
import ExpectedDiagnostics.Event
import ExpectedDiagnostics.Failure
import ExpectedDiagnostics.Log
import ExpectedDiagnostics.Source

/-!
# Runs

A run checks files one after the other. While a file is open its outcomes are counted; when it is
finished its counts go into the totals, and when it is given up they are dropped. A run keeps the
history of its events and its log.

A step that is out of turn fails: outcomes need an open file, and neither the next file nor the end
of the run can come before the open one is finished or given up.
-/

namespace ExpectedDiagnostics

/-- A run: whether unexpected diagnostics are problems, the totals, the counts of the open file,
the number of files done with, those that were given up, the open file with its failures so far,
and what has happened. -/
structure Run where
  unexpected : Bool
  totals : Counts
  counts : Counts
  fileCount : Nat
  aborted : List String
  current : Option Source
  failures : List Outcome
  events : List Event
  log : List LogRecord

namespace Run

/-- A run before its first file. -/
def start (unexpected : Bool) : Run :=
  ⟨unexpected, .zero, .zero, 0, [], none, [], [], []⟩

/-- Tells the report of an event. -/
def tell (run : Run) (e : Event) : Run :=
  { run with events := run.events ++ [e] }

/-- Writes a record to the log. -/
def note (run : Run) (level : Level) (text : String) : Run :=
  { run with log := run.log ++ [⟨level, Log.runnerPart, text⟩] }

/-- The open file. -/
def openFile (run : Run) : Except Failure Source :=
  match run.current with
  | some source => .ok source
  | none => .error .noFile

/-- Opens a file. -/
def beginFile (run : Run) (source : Source) : Except Failure Run :=
  match run.current with
  | some other => .error (.unfinished other.path)
  | none =>
    .ok ({ run with counts := .zero, current := some source, failures := [] }.tell
      (.begun source.path.toString))

/-- The counts with one more outcome. -/
def countOutcome (c : Counts) (o : Outcome) : Counts :=
  if o.ok then { c with successes := c.successes + 1 } else { c with failures := c.failures + 1 }

/-- What the log says of an outcome. -/
def outcomeText (source : Source) (o : Outcome) : String :=
  source.path.toString ++ ":" ++ toString (o.line + 1) ++
    (if o.ok then " ok: " else " FAILED: ") ++ o.expected

/-- Counts the outcome of an annotation of the open file. -/
def record (run : Run) (o : Outcome) : Except Failure Run := do
  let source ← run.openFile
  let failures := if o.ok then run.failures else run.failures ++ [o]
  let run := { run with counts := countOutcome run.counts o, failures }
  return (run.note .debug (outcomeText source o)).tell (.checked o)

/-- The counts of a file together with the lines of an index that are left over. -/
def withLeftovers (c : Counts) (index : LineIndex) : Counts :=
  { c with leftovers := c.leftovers + index.leftoverCount }

/-- What is told of a file with its counts, its failures, and the index of what is left over. -/
def fileSummary (run : Run) (source : Source) (counts : Counts) (index : LineIndex) :
    FileSummary :=
  ⟨source.path.toString, counts, run.failures, index.leftovers, counts.passed run.unexpected⟩

/-- Finishes the open file. The annotations that were checked must be as many as the markers of its
text. If they are not, the file stays open, and what is left over counts again when it is finished
at last. -/
def finishFile (run : Run) (index : LineIndex) : Run × Except Failure FileSummary :=
  match run.openFile with
  | .error f => (run, .error f)
  | .ok source =>
    let counts := withLeftovers run.counts index
    let markers : Int := Marker.count source.text
    if markers == counts.checks then
      let summary := run.fileSummary source counts index
      let run := { run with
        counts, totals := run.totals + counts, fileCount := run.fileCount + 1, current := none,
        failures := [] }
      (run.tell (.finished summary), .ok summary)
    else
      ({ run with counts }, .error (.problem (.countMismatch markers counts.checks source.path)))

/-- Gives the open file up. Its counts are dropped. -/
def abortFile (run : Run) (problem : Problem) : Except Failure Run := do
  let source ← run.openFile
  let path := source.path.toString
  let run := run.note .error (path ++ ": " ++ problem.message)
  return { run with
    counts := .zero, fileCount := run.fileCount + 1, aborted := run.aborted ++ [path],
    current := none, failures := [] }.tell (.aborted path problem)

/-- What is told at the end of a run. -/
def summary (run : Run) : RunSummary :=
  ⟨run.totals, run.fileCount, run.aborted,
    run.totals.passed run.unexpected && run.aborted.isEmpty⟩

/-- Ends the run. -/
def finish (run : Run) : Except Failure (Run × RunSummary) :=
  match run.current with
  | some source => .error (.unfinished source.path)
  | none => .ok (run.tell (.done run.summary), run.summary)

/-! ## Checking a file -/

/-- Checks annotations of the open file one after the other; each takes the diagnostics of its
line. -/
def recordAll (run : Run) (index : LineIndex) :
    List LineExpectation → Run × LineIndex × Option Failure
  | [] => (run, index, none)
  | a :: as =>
    let (outcome, index) := Outcome.claim a.expectation a.line index
    match run.record outcome with
    | .error f => (run, index, some f)
    | .ok run => run.recordAll index as

/-- Ends the check of a file: it is finished if all its comment groups could be read, and given up
if one is blank. A malformed group leaves it open. -/
def closeFile (run : Run) (index : LineIndex) :
    Option Problem → Run × Except Failure (Option FileSummary)
  | none =>
    let (run, result) := run.finishFile index
    (run, result.map some)
  | some problem =>
    if problem.kind == .blankExpectation then
      match run.abortFile problem with
      | .error f => (run, .error f)
      | .ok run => (run, .ok none)
    else (run, .error (.problem problem))

/-- Checks a file with these comment groups against the diagnostics of its index. The result is
its summary, or none if the file was given up. -/
def checkFile (run : Run) (source : Source) (index : LineIndex) (groups : List CommentGroup) :
    Run × LineIndex × Except Failure (Option FileSummary) :=
  match run.beginFile source with
  | .error f => (run, index, .error f)
  | .ok run =>
    let (annotations, problem) := CommentGroup.readAll groups
    let (run, index, failure) := run.recordAll index annotations
    match failure with
    | some f => (run, index, .error f)
    | none =>
      let (run, result) := run.closeFile index problem
      (run, index, result)

end Run

end ExpectedDiagnostics
