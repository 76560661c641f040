/-!
# Counts

How many annotations of a file, or of a whole run, were met and missed, and on how many lines
diagnostics are left over. A left-over diagnostic is a problem only where unexpected diagnostics
are to be reported.
-/

namespace ExpectedDiagnostics

/-- The counts of a file or of a run. -/
structure Counts where
  successes : Int
  failures : Int
  leftovers : Int
  deriving DecidableEq, Repr

namespace Counts

/-- No annotation, and nothing left over. -/
def zero : Counts := ⟨0, 0, 0⟩

instance : Zero Counts := ⟨zero⟩

/-- The sums of two counts. -/
def add (a b : Counts) : Counts :=
  ⟨a.successes + b.successes, a.failures + b.failures, a.leftovers + b.leftovers⟩

instance : Add Counts := ⟨add⟩

/-- The number of annotations that were checked. -/
def checks (c : Counts) : Int :=
  c.successes + c.failures

/-- The number of problems. -/
def problems (c : Counts) (unexpected : Bool) : Int :=
  c.failures + if unexpected then c.leftovers else 0

/-- Tells whether there is no problem. -/
def passed (c : Counts) (unexpected : Bool) : Bool :=
  c.problems unexpected == 0

/-- The counts in words. -/
def describe (c : Counts) (unexpected : Bool) : String :=
  "successes: " ++ toString c.successes ++ ", failures: " ++ toString c.failures ++
    if unexpected then ", errors: " ++ toString c.leftovers else ""

end Counts

end ExpectedDiagnostics
