import ExpectedDiagnostics.Expectation
import ExpectedDiagnostics.Index.Lines

/-!
# Outcomes

An annotation claims the diagnostics of its line and holds if there is exactly one and the
expectation accepts it. With several diagnostics on the line there is no telling which one the
annotation is about, so it fails.
-/

namespace ExpectedDiagnostics

/-- What became of one annotation: its line, what it expects, what there was, and whether it
holds. -/
structure Outcome where
  line : Int
  expected : String
  actual : String
  ok : Bool
  deriving DecidableEq, Repr

namespace Outcome

/-- What is said of a line without diagnostics. -/
def noneText : String :=
  "no diagnostic on this line"

/-- What is said of a line with several diagnostics. -/
def severalText : String :=
  "more than one diagnostic on this line"

/-- The outcome of an annotation by the diagnostics of its line. -/
def ofDiagnostics (e : Expectation) (line : Int) : List Diagnostic → Outcome
  | [] => ⟨line, e.toString, noneText, false⟩
  | [d] => ⟨line, e.toString, d.display, e.accepts d.flat (some d.code)⟩
  | _ :: _ :: _ => ⟨line, e.toString, severalText, false⟩

/-- The outcome of an annotation, which takes the diagnostics of its line. -/
def claim (e : Expectation) (line : Int) (ix : LineIndex) : Outcome × LineIndex :=
  let (ds, rest) := ix.take line
  (ofDiagnostics e line ds, rest)

end Outcome

end ExpectedDiagnostics
