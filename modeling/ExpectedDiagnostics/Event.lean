import ExpectedDiagnostics.Counts
import ExpectedDiagnostics.Diagnostic
import ExpectedDiagnostics.Outcome
import ExpectedDiagnostics.Problem

/-!
# Events

What happens while files are checked, as a report is told of it: a file is begun, its annotations
have their outcomes, the file is finished or given up, and at the end the run is done.
-/

namespace ExpectedDiagnostics

/-- What is told of a file that is finished. -/
structure FileSummary where
  path : String
  counts : Counts
  failures : List Outcome
  leftovers : List Diagnostic
  passed : Bool

/-- What is told at the end of a run. -/
structure RunSummary where
  totals : Counts
  fileCount : Nat
  aborted : List String
  passed : Bool
  deriving DecidableEq, Repr

/-- The status that a run ends the program with. -/
def RunSummary.exitStatus (s : RunSummary) : Nat :=
  if s.passed then 0 else 1

theorem RunSummary.exitStatus_eq_zero_iff {s : RunSummary} :
    s.exitStatus = 0 ↔ s.passed = true := by
  unfold exitStatus
  cases s.passed <;> decide

theorem RunSummary.exitStatus_cases (s : RunSummary) : s.exitStatus = 0 ∨ s.exitStatus = 1 := by
  unfold exitStatus
  cases s.passed <;> decide

/-- What happens during a run. -/
inductive Event
  | begun (path : String)
  | checked (outcome : Outcome)
  | finished (summary : FileSummary)
  | aborted (path : String) (problem : Problem)
  | done (summary : RunSummary)

end ExpectedDiagnostics
