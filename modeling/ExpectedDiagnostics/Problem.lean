import ExpectedDiagnostics.Data
import ExpectedDiagnostics.Path

/-!
# Problems

What can be wrong with annotations, diagnostics, settings and paths. A problem is told in a short
summary and named details; its kind decides the status that the program ends with when the problem
stops a run.

Kinds form a tree. The three large families are the author's mistakes in an annotation (status 1),
the disagreements between the comments read and the markers counted (status 3), and everything
about the type checker, settings and paths (status 2).
-/

namespace ExpectedDiagnostics

/-- The kinds of problems. -/
inductive Kind
  | any
  | authoring
  | blankExpectation
  | internal
  | malformedComment
  | countMismatch
  | checker
  | checkerNotFound
  | diagnosticsFormat
  | configuration
  | invalidPath
  | missingSettingsFile
  | unknownSettings
  | invalidSetting
  deriving DecidableEq, Repr

namespace Kind

/-- The kind that a kind is a special case of. -/
def parent? : Kind → Option Kind
  | any => none
  | authoring | internal | checker | configuration => some any
  | blankExpectation => some authoring
  | malformedComment | countMismatch => some internal
  | checkerNotFound | diagnosticsFormat => some checker
  | invalidPath | missingSettingsFile | unknownSettings | invalidSetting => some configuration

/-- The kinds that a kind is a special case of, the nearest first. -/
def ancestors (k : Kind) : List Kind :=
  match k.parent? with
  | none => []
  | some p =>
    match p.parent? with
    | none => [p]
    | some q => [p, q]

/-- Tells whether a kind is another one, or a special case of it. -/
def isUnder (k other : Kind) : Bool :=
  k == other || k.ancestors.contains other

/-- The status that a problem of this kind ends the program with. -/
def exitStatus : Kind → Nat
  | authoring | blankExpectation => 1
  | internal | malformedComment | countMismatch => 3
  | _ => 2

end Kind

/-- A problem that the program reports in its own words. -/
inductive Problem
  /-- An annotation with neither a message nor a code. -/
  | blankExpectation (text reason : String) (line : Option Int)
  /-- A comment group that goes on after its marker with something other than line comments. -/
  | malformedComment (parts : List String)
  /-- A file whose markers are more or fewer than the annotations that were checked. -/
  | countMismatch (markers checks : Int) (file : Option Path)
  /-- A type checker that gave no diagnostics. -/
  | checker (reason : String) (command : Option String)
  /-- A type checker that is not there. -/
  | checkerNotFound (command : String)
  /-- A diagnostics file that cannot be read or has the wrong shape. -/
  | diagnosticsFormat (path : Path) (reason : String)
  /-- A path argument that does not exist or cannot be read. -/
  | invalidPath (path : Path) (reason : String)
  /-- A settings file that was asked for and does not exist. -/
  | missingSettingsFile (path : Path)
  /-- Names that no setting has. -/
  | unknownSettings (names : List String)
  /-- A setting with a value of the wrong kind or out of range. -/
  | invalidSetting (name : String) (value : Data) (reason : String)
  /-- Any other problem of a kind. -/
  | other (kind : Kind) (summary : String) (details : List (String × String))

namespace Problem

/-- The usual reason given for a blank annotation. -/
def blankReason : String :=
  "Neither message nor code was provided"

/-- The kind of a problem. -/
def kind : Problem → Kind
  | blankExpectation .. => .blankExpectation
  | malformedComment .. => .malformedComment
  | countMismatch .. => .countMismatch
  | checker .. => .checker
  | checkerNotFound .. => .checkerNotFound
  | diagnosticsFormat .. => .diagnosticsFormat
  | invalidPath .. => .invalidPath
  | missingSettingsFile .. => .missingSettingsFile
  | unknownSettings .. => .unknownSettings
  | invalidSetting .. => .invalidSetting
  | other k .. => k

/-- The details of a type checker's failure. An empty command is left out. -/
def checkerDetails (reason : String) (command : Option String) : List (String × String) :=
  ("reason", reason) :: (command.filter (· != "")).toList.map fun c => ("command", c)

/-- The details of a problem, in the order in which they are told. -/
def details : Problem → List (String × String)
  | blankExpectation text _ line =>
    ("text", Text.quote text) :: line.toList.map fun l => ("line", toString (l + 1))
  | malformedComment parts => [("parts", (Data.list (parts.map .text)).quoted)]
  | countMismatch markers checks file =>
    [("markers", toString markers), ("checks", toString checks)] ++
      file.toList.map fun p => ("filepath", p.toString)
  | checker reason command => checkerDetails reason command
  | checkerNotFound command => checkerDetails ("executable not found: " ++ command) (some command)
  | diagnosticsFormat path reason => [("reason", path.toString ++ ": " ++ reason)]
  | invalidPath _ reason => [("reason", reason)]
  | missingSettingsFile _ => []
  | unknownSettings _ => []
  | invalidSetting _ _ reason => [("reason", reason)]
  | other _ _ details => details

/-- What a problem says before its details. -/
def summary : Problem → String
  | blankExpectation _ reason _ => reason
  | malformedComment _ => "Malformed comment group"
  | countMismatch markers checks _ =>
    "File contains " ++ toString markers ++ " check(s), we only found " ++ toString checks ++
      " check(s)"
  | checker .. | checkerNotFound .. | diagnosticsFormat .. => "Type checker failed"
  | invalidPath path _ => "Invalid path: " ++ path.toString
  | missingSettingsFile path => "Config file not found: " ++ path.toString
  | unknownSettings names =>
    "Unknown configuration key(s): " ++
      String.intercalate ", " (names.mergeSort fun a b => decide (a ≤ b))
  | invalidSetting name value _ => "Invalid value for " ++ name ++ ": " ++ value.quoted
  | other _ summary _ => summary

/-- The text of a problem: its summary, and its details in parentheses. -/
def message (p : Problem) : String :=
  match p.details with
  | [] => p.summary
  | details =>
    p.summary ++ " (" ++
      String.intercalate ", " (details.map fun d => d.1 ++ "=" ++ d.2) ++ ")"

/-- The status that a problem ends the program with. -/
def exitStatus (p : Problem) : Nat :=
  p.kind.exitStatus

end Problem

end ExpectedDiagnostics
