import ExpectedDiagnostics.Event

/-!
# Reports as workflow commands

Commands that a build service shows at the lines of the files: one for every failure, for every
file that was given up and, if they are asked for, for every diagnostic that is left over. All of
them are printed at the end of the run, each on a line of its own.

The characters that separate the parts of a command are escaped by a percent sign and two digits,
so that no path and no message can end a part early.
-/

namespace ExpectedDiagnostics.Report.WorkflowCommand

/-- A character as it stands in the message of a command. -/
def messageChar (c : Char) : List Char :=
  if c == '%' then ['%', '2', '5']
  else if c == '\r' then ['%', '0', 'D']
  else if c == '\n' then ['%', '0', 'A']
  else [c]

/-- A character as it stands in a property of a command. -/
def propertyChar (c : Char) : List Char :=
  if c == ':' then ['%', '3', 'A']
  else if c == ',' then ['%', '2', 'C']
  else messageChar c

/-- A text as the message of a command. -/
def messageText (s : String) : String :=
  .ofList (s.toList.flatMap messageChar)

/-- A text as a property of a command. -/
def propertyText (s : String) : String :=
  .ofList (s.toList.flatMap propertyChar)

/-- The command for a line of a file. Lines are numbered from one. -/
def lineCommand (path : String) (line : Int) (message : String) : String :=
  "::error file=" ++ propertyText path ++ ",line=" ++ toString (line + 1) ++ "::" ++
    messageText message

/-- The command for a file. -/
def fileCommand (path message : String) : String :=
  "::error file=" ++ propertyText path ++ "::" ++ messageText message

/-- The commands of an event. -/
def commands (unexpected : Bool) : Event → List String
  | .finished s =>
    s.failures.map (fun o =>
        lineCommand s.path o.line ("Expected: " ++ o.expected ++ " / Actual: " ++ o.actual)) ++
      if unexpected then
        s.leftovers.map fun d => lineCommand s.path d.line ("Unexpected error: " ++ d.display)
      else []
  | .aborted path problem => [fileCommand path problem.message]
  | .begun _ | .checked _ | .done _ => []

/-- The command of a run. -/
def doneCommand (unexpected : Bool) (s : RunSummary) : String :=
  "::" ++ (if s.passed then "notice" else "error") ++ "::ts-expect-error DONE (" ++
    s.totals.describe unexpected ++ ")"

/-- The commands of a run, after those of its events. -/
def lines (unexpected : Bool) (past : List Event) (s : RunSummary) : List String :=
  past.flatMap (commands unexpected) ++ [doneCommand unexpected s]

end ExpectedDiagnostics.Report.WorkflowCommand
