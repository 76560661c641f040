import ExpectedDiagnostics.Json.Writer
import ExpectedDiagnostics.Report.Document
import ExpectedDiagnostics.Report.Terminal
import ExpectedDiagnostics.Report.WorkflowCommand

/-!
# Reporters

What is printed of a run, in one of four styles. A reporter prints something at each event; what it
prints depends on the event and, in the styles that print everything at the end, on the events
before it.
-/

namespace ExpectedDiagnostics.Report

/-- The styles of reports. -/
inductive Style
  | rich
  | json
  | github
  | quiet
  deriving DecidableEq, Repr

namespace Style

/-- All styles. -/
def all : List Style :=
  [rich, json, github, quiet]

/-- The name of a style. -/
def name : Style → String
  | rich => "rich"
  | json => "json"
  | github => "github"
  | quiet => "quiet"

/-- The style with a name. -/
def ofName? (name : String) : Option Style :=
  all.find? (·.name == name)

/-- What is said of a name that no style has. -/
def unknownText (name : String) : String :=
  "Unknown reporter: " ++ Text.quote name ++ ". Choose from: " ++
    String.intercalate ", " ((all.map Style.name).mergeSort fun a b => decide (a ≤ b))

end Style

/-- A reporter: its style, the setting about unexpected diagnostics as it was given, and whether
there is only a single file. -/
structure Reporter where
  style : Style
  unexpected : Data
  single : Bool

namespace Reporter

/-- Tells whether unexpected diagnostics are reported. -/
def countsUnexpected (r : Reporter) : Bool :=
  !r.unexpected.isFalsy

/-- The lines that are printed at an event after others. -/
def lines (r : Reporter) (past : List Event) (e : Event) : List String :=
  match r.style, e with
  | .rich, e => (Terminal.lines r.countsUnexpected r.single e).map Terminal.shown
  | .json, .done s => [Json.indented (Document.ofRun r.unexpected past s)]
  | .github, .done s => WorkflowCommand.lines r.countsUnexpected past s
  | .quiet, .done s => [Terminal.doneText r.countsUnexpected s]
  | _, _ => []

/-- The text that is printed at an event after others. -/
def printed (r : Reporter) (past : List Event) (e : Event) : String :=
  String.join ((r.lines past e).map (· ++ "\n"))

/-- The texts that are printed at events after others. -/
def printedAll (r : Reporter) (past : List Event) : List Event → List String
  | [] => []
  | e :: es => r.printed past e :: r.printedAll (past ++ [e]) es

/-- The report of events. -/
def report (r : Reporter) (events : List Event) : String :=
  String.join (r.printedAll [] events)

end Reporter

end ExpectedDiagnostics.Report
