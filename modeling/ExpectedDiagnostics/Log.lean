/-!
# Log

What the program tells about its work besides the report. A record has a level and the name of the
part that wrote it; the verbosity decides from which level on records are kept.
-/

namespace ExpectedDiagnostics

/-- The levels of records, the least important first. -/
inductive Level
  | debug
  | info
  | warning
  | error
  | critical
  deriving DecidableEq, Repr

namespace Level

/-- All levels, the least important first. -/
def all : List Level :=
  [debug, info, warning, error, critical]

/-- The place of a level among all levels. -/
def rank : Level → Nat
  | debug => 0
  | info => 1
  | warning => 2
  | error => 3
  | critical => 4

/-- The name of a level. -/
def name : Level → String
  | debug => "DEBUG"
  | info => "INFO"
  | warning => "WARNING"
  | error => "ERROR"
  | critical => "CRITICAL"

/-- The name of a level, filled up to eight characters. -/
def paddedName (l : Level) : String :=
  l.name ++ .ofList (List.replicate (8 - l.name.length) ' ')

end Level

/-- One record of the log: its level, the part of the program that wrote it, and its text. -/
structure LogRecord where
  level : Level
  part : String
  text : String
  deriving DecidableEq, Repr

/-- How much the program tells. -/
inductive Verbosity
  | quiet
  | normal
  | verbose
  deriving DecidableEq, Repr

namespace Verbosity

/-- All verbosities. -/
def all : List Verbosity :=
  [quiet, normal, verbose]

/-- The name of a verbosity. -/
def name : Verbosity → String
  | quiet => "quiet"
  | normal => "normal"
  | verbose => "verbose"

/-- The verbosity with a name. -/
def ofName? (name : String) : Option Verbosity :=
  all.find? (·.name == name)

/-- The least level of the records that are kept. -/
def threshold : Verbosity → Level
  | quiet => .error
  | normal => .warning
  | verbose => .debug

/-- The least level of the records that are kept under a verbosity given by name. An unknown name
stands for the normal one. -/
def thresholdOf (name : String) : Level :=
  ((ofName? name).getD normal).threshold

end Verbosity

namespace Log

/-- The name that all parts of the program have in front of their own. -/
def rootName : String := "ts_expect_error"

/-- The name of a part of the program. A name that already begins with the common one is kept. -/
def partName (name : Option String) : String :=
  match name with
  | none => rootName
  | some name =>
    if rootName.toList.isPrefixOf name.toList then name else rootName ++ "." ++ name

/-- The part that checks files. -/
def runnerPart : String := partName (some "core.runner")

/-- The part that runs the compiler. -/
def compilerPart : String := partName (some "checker.tsc")

/-- The part that looks for files. -/
def discoveryPart : String := partName (some "discovery")

/-- Tells whether a record is kept. -/
def keeps (threshold : Level) (r : LogRecord) : Bool :=
  threshold.rank ≤ r.level.rank

/-- The line of a record in a log file, after its time. -/
def fileLine (r : LogRecord) : String :=
  r.level.paddedName ++ " " ++ r.part ++ ": " ++ r.text

end Log

end ExpectedDiagnostics
