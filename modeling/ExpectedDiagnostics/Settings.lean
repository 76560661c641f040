import ExpectedDiagnostics.Failure
import ExpectedDiagnostics.Log
import ExpectedDiagnostics.Report.Reporter
import ExpectedDiagnostics.Setting
import ExpectedDiagnostics.Text.Blank

/-!
# Settings

The settings of one run. Every setting has a value, given or not. The style, the command, the
timeout, the suffixes and the verbosity are checked, in a fixed order of which the first fault is
told; the other values are taken as they are.
-/

namespace ExpectedDiagnostics

/-- The settings of one run. Values that are not checked, or only in part, are kept as they were
given. -/
structure Settings where
  compilerConfig : Data
  unexpected : Data
  style : Report.Style
  command : String
  timeout : Data
  extensions : Data
  excluded : Data
  compilerOptions : Data
  verbosity : Verbosity

namespace Settings

/-- The value of a setting. -/
def value (s : Settings) : Setting → Data
  | .compilerConfig => s.compilerConfig
  | .unexpected => s.unexpected
  | .style => .text s.style.name
  | .command => .text s.command
  | .timeout => s.timeout
  | .extensions => s.extensions
  | .excluded => s.excluded
  | .compilerOptions => s.compilerOptions
  | .verbosity => .text s.verbosity.name

/-! ## Checking values -/

/-- What is asked of a value in the course of a check. Not every kind of value allows it. -/
inductive Use
  | strip
  | compare
  | iterate
  | startsWith
  deriving DecidableEq, Repr

/-- What is said of a value of a kind that does not allow what is asked of it. -/
def Use.complaint (use : Use) (value : Data) : String :=
  match use with
  | strip => "'" ++ value.kindName ++ "' object has no attribute 'strip'"
  | compare => "'<' not supported between instances of '" ++ value.kindName ++ "' and 'int'"
  | iterate => "'" ++ value.kindName ++ "' object is not iterable"
  | startsWith => "'" ++ value.kindName ++ "' object has no attribute 'startswith'"

/-- What is wrong with the value of a setting. -/
inductive Fault
  /-- A value out of range, with the range in words. -/
  | invalid (setting : Setting) (value : Data) (reason : String)
  /-- A value of a kind for which the range makes no sense. -/
  | unusable (value : Data) (use : Use)

/-- A fault as a problem of the program. -/
def Fault.problem : Fault → Problem
  | invalid setting value reason => .invalidSetting setting.name value reason
  | unusable value use =>
    .other .configuration ("Invalid configuration: " ++ use.complaint value) []

/-- The range of a setting that has to be one of a few names. -/
def oneOf (names : List String) : String :=
  "must be one of " ++ String.intercalate ", " names

/-- Checks a setting that has to be one of a few names. -/
def checkName {α : Type} (setting : Setting) (names : List String) (ofName? : String → Option α)
    (value : Data) : Except Fault α :=
  let fault : Except Fault α := .error (.invalid setting value (oneOf names))
  match value with
  | .text name => (ofName? name).elim fault .ok
  | _ => fault

/-- Checks a command: it must not be blank. -/
def checkCommand : Data → Except Fault String
  | .text command =>
    if (Text.strip command.toList).isEmpty then
      .error (.invalid .command (.text command) "must not be empty")
    else .ok command
  | value => .error (.unusable value .strip)

/-- Tells whether a number is less than one; other values cannot be told. -/
def isBelowOne? : Data → Option Bool
  | .bool b => some !b
  | .int n => some (n < 1)
  | .float x => some (x < 1.0)
  | _ => none

/-- Checks a timeout: there is none, or it is at least a second. -/
def checkTimeout : Data → Except Fault Data
  | .null => .ok .null
  | value =>
    match isBelowOne? value with
    | some true => .error (.invalid .timeout value "must be at least 1")
    | some false => .ok value
    | none => .error (.unusable value .compare)

/-- The items of a value: those of a list, the characters of a text, or the names of the fields of
a table. -/
def items? : Data → Option (List Data)
  | .list items => some items
  | .text s => some (s.toList.map fun c => .text (.singleton c))
  | .table fields => some (fields.map fun f => .text f.1)
  | _ => none

/-- Checks suffixes one after the other: each must start with a dot. -/
def checkSuffixes : List Data → Except Fault Unit
  | [] => .ok ()
  | .text s :: items =>
    if s.toList.head? == some '.' then checkSuffixes items
    else .error (.invalid .extensions (.text s) "must start with '.'")
  | item :: _ => .error (.unusable item .startsWith)

/-- Checks the suffixes of files: there are some, and each starts with a dot. -/
def checkExtensions (value : Data) : Except Fault Data :=
  if value.isFalsy then .error (.invalid .extensions value "must not be empty")
  else
    match items? value with
    | none => .error (.unusable value .iterate)
    | some items => do
      checkSuffixes items
      return value

/-- The settings with these values. -/
def ofValues (given : Setting → Data) : Except Fault Settings := do
  let style ← checkName .style (Report.Style.all.map (·.name)) Report.Style.ofName? (given .style)
  let verbosity ←
    checkName .verbosity (Verbosity.all.map (·.name)) Verbosity.ofName? (given .verbosity)
  let command ← checkCommand (given .command)
  let timeout ← checkTimeout (given .timeout)
  let extensions ← checkExtensions (given .extensions)
  return {
    compilerConfig := given .compilerConfig
    unexpected := given .unexpected
    style := style
    command := command
    timeout := timeout
    extensions := extensions
    excluded := given .excluded
    compilerOptions := given .compilerOptions
    verbosity := verbosity }

/-- The settings that a table gives, with defaults for those that it does not name. -/
def ofFields (fields : List (String × Data)) : Except Fault Settings :=
  ofValues fun s => (Data.field? fields s.name).getD s.default

/-! ## What the settings come to -/

/-- The suffixes of the files that are looked for. -/
def suffixes (s : Settings) : List String :=
  ((items? s.extensions).getD []).filterMap fun item =>
    match item with
    | .text suffix => some suffix
    | _ => none

/-- The path of the configuration file, if there is one. A value that is neither nothing nor a text
names no path. -/
def configPath (s : Settings) : Except Failure (Option Path) :=
  match s.compilerConfig with
  | .text "" => .ok none
  | .text path => .ok (some (.ofString path))
  | value => if value.isFalsy then .ok none else .error (.noPath value)

/-- The options of the compiler. -/
def optionFields (s : Settings) : List (String × Data) :=
  match s.compilerOptions with
  | .table fields => fields
  | _ => []

end Settings

end ExpectedDiagnostics
