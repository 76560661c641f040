import ExpectedDiagnostics.Event
import ExpectedDiagnostics.Text.Column

/-!
# Reports for a terminal

One line for every file with its counts, below it the failures and, if they are asked for, the
diagnostics that are left over, and one line for the whole run. With a single file its own line and
the empty lines between files are left out.

The terminal takes `[` followed by a letter for a style command, so texts are guarded against that.
The guard has two effects that can be seen: a backslash at the end of a text is written twice, and
a backslash in front of a bracket that begins no command is left out. The terminal also drops a few
control characters and writes tabs as spaces.
-/

namespace ExpectedDiagnostics.Report.Terminal

/-! ## Texts -/

/-- Tells whether a character can begin the name of a style command. -/
def startsCommand (c : Char) : Bool :=
  ('a' ≤ c && c ≤ 'z') || c == '#' || c == '/' || c == '@'

/-- Tells whether what follows an opening bracket makes it a style command: a name, and a closing
bracket before the next opening one. -/
def isCommand : List Char → Bool
  | [] => false
  | c :: cs => startsCommand c && (cs.find? fun d => d == '[' || d == ']') == some ']'

/-- Leaves out the backslashes in front of brackets that begin no style command. -/
def showBrackets : List Char → List Char
  | [] => []
  | '\\' :: '[' :: cs =>
    if isCommand cs then '\\' :: '[' :: showBrackets cs else '[' :: showBrackets cs
  | c :: cs => c :: showBrackets cs

/-- Writes a single backslash at the end of a text twice. -/
def doubleLast (cs : List Char) : List Char :=
  match cs.reverse with
  | ['\\'] => ['\\', '\\']
  | '\\' :: c :: _ => if c == '\\' then cs else cs ++ ['\\']
  | _ => cs

/-- A text as it is guarded against style commands. -/
def guarded (s : String) : String :=
  .ofList (showBrackets (doubleLast s.toList))

/-- Tells whether the terminal drops a character: bell, backspace, vertical tab, form feed and
carriage return. -/
def isDropped (c : Char) : Bool :=
  c.toNat == 7 || c.toNat == 8 || (11 ≤ c.toNat && c.toNat ≤ 13)

/-- A line as the terminal shows it. -/
def shown (s : String) : String :=
  .ofList (Text.expandTabs (s.toList.filter (!isDropped ·)))

/-! ## Lines -/

/-- The mark of what passed. -/
def passMark : String := "✔︎"

/-- The mark of what failed. -/
def failMark : String := "×"

/-- The mark of a result. -/
def mark (passed : Bool) : String :=
  if passed then passMark else failMark

/-- The line of a file. -/
def fileLine (unexpected : Bool) (s : FileSummary) : String :=
  "::::: " ++ guarded s.path ++ " (" ++ s.counts.describe unexpected ++ ") " ++
    mark (s.counts.passed unexpected)

/-- The lines of a failure. Lines are numbered from one. -/
def failureLines (o : Outcome) : List String :=
  ["• LINE " ++ toString (o.line + 1) ++ ":",
    "  EXPECTED ERROR: " ++ guarded o.expected,
    "  ACTUAL ERROR:   " ++ guarded o.actual]

/-- The line of a diagnostic that is left over. -/
def leftoverLine (d : Diagnostic) : String :=
  "• LINE " ++ toString (d.line + 1) ++ ": " ++ guarded d.display

/-- The lines of a file that is finished. -/
def finishedLines (unexpected single : Bool) (s : FileSummary) : List String :=
  (if single then [] else [fileLine unexpected s]) ++
    s.failures.flatMap failureLines ++
    (if unexpected then s.leftovers.map leftoverLine else []) ++
    (if single then [] else [""])

/-- The lines of a file that was given up. -/
def abortedLines (single : Bool) (path : String) (problem : Problem) : List String :=
  ("::::: " ++ guarded path ++ " " ++ failMark ++ " aborted: " ++ guarded problem.message) ::
    (if single then [] else [""])

/-- What a run comes to, on one line. -/
def doneText (unexpected : Bool) (s : RunSummary) : String :=
  mark s.passed ++ " DONE (" ++ s.totals.describe unexpected ++ ")"

/-- The line of a run. -/
def doneLine (unexpected : Bool) (s : RunSummary) : String :=
  doneText unexpected s ++
    if s.aborted.isEmpty then "" else " aborted files: " ++ toString s.aborted.length

/-- The lines of an event. -/
def lines (unexpected single : Bool) : Event → List String
  | .begun _ | .checked _ => []
  | .finished s => finishedLines unexpected single s
  | .aborted path problem => abortedLines single path problem
  | .done s => [doneLine unexpected s]

end ExpectedDiagnostics.Report.Terminal
