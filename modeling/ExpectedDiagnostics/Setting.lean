import ExpectedDiagnostics.Data
import ExpectedDiagnostics.Text.LetterCase
import ExpectedDiagnostics.Text.Numeral

/-!
# Single settings

What can be set: the name of each setting, its value if nobody gives one, the environment variable
that gives one, and how the text of the variable is read.
-/

namespace ExpectedDiagnostics

/-- The settings, in the order in which they are documented. -/
inductive Setting
  /-- The configuration file that the compiler goes by. -/
  | compilerConfig
  /-- Whether diagnostics that no annotation expects count as failures. -/
  | unexpected
  /-- The style of the report. -/
  | style
  /-- The command line that starts the compiler. -/
  | command
  /-- The seconds that the compiler is given. -/
  | timeout
  /-- The suffixes of the files that are looked for in directories. -/
  | extensions
  /-- The names of the directories that are left out. -/
  | excluded
  /-- The options that the compiler is given in place of a configuration file. -/
  | compilerOptions
  /-- How much the log tells. -/
  | verbosity
  deriving DecidableEq, Repr

namespace Setting

/-- All settings. -/
def all : List Setting :=
  [compilerConfig, unexpected, style, command, timeout, extensions, excluded, compilerOptions,
    verbosity]

/-- The name of a setting in documents. -/
def name : Setting → String
  | compilerConfig => "tsconfig"
  | unexpected => "report_unexpected_errors"
  | style => "output_format"
  | command => "tsc_command"
  | timeout => "tsc_timeout_seconds"
  | extensions => "extensions"
  | excluded => "exclude_patterns"
  | compilerOptions => "compiler_options"
  | verbosity => "verbosity"

/-- The setting with a name. -/
def ofName? (name : String) : Option Setting :=
  all.find? (·.name == name)

/-- The compiler options that are used if no others are given: strict ones. -/
def strictOptions : List (String × Data) :=
  [("noEmit", .bool true), ("module", .text "NodeNext"), ("target", .text "ESNext"),
    ("resolveJsonModule", .bool true), ("strict", .bool true),
    ("exactOptionalPropertyTypes", .bool true), ("noFallthroughCasesInSwitch", .bool true),
    ("noImplicitOverride", .bool true), ("noImplicitReturns", .bool true),
    ("noPropertyAccessFromIndexSignature", .bool true), ("noUncheckedIndexedAccess", .bool true)]

/-- The value of a setting that nobody gives one. -/
def default : Setting → Data
  | compilerConfig => .null
  | unexpected => .bool false
  | style => .text "rich"
  | command => .text "tsc"
  | timeout => .null
  | extensions => .list [.text ".ts", .text ".tsx", .text ".mts", .text ".cts"]
  | excluded => .list [.text "node_modules"]
  | compilerOptions => .table strictOptions
  | verbosity => .text "normal"

/-! ## Values from the environment -/

/-- How the text of an environment variable is read. -/
inductive Form
  | flag
  | integer
  | text
  | structured
  deriving DecidableEq, Repr

/-- The words that turn a flag on. -/
def onWords : List String :=
  ["true", "1", "yes", "on"]

/-- The words that turn a flag off. -/
def offWords : List String :=
  ["false", "0", "no", "off"]

/-- The number of characters of a faulty integer, with its quotes, that are told. -/
def integerTextLimit : Nat := 200

/-- What is said of a text that is no integer. -/
def noInteger (text : String) : String :=
  "invalid literal for int() with base 10: " ++
    .ofList ((Text.quote text).toList.take integerTextLimit)

/-- Reads the text of a variable. Lists and tables have no such text, so nothing comes of it. The
fault is told in words. -/
def Form.read (form : Form) (text : String) : Except String (Option Data) :=
  match form with
  | .flag =>
    if onWords.contains (Text.lower text) then .ok (some (.bool true))
    else if offWords.contains (Text.lower text) then .ok (some (.bool false))
    else .error ("expected true/false, got '" ++ text ++ "'")
  | .integer =>
    match Text.integer? text.toList with
    | some n => .ok (some (.int n))
    | none => .error (noInteger text)
  | .text => .ok (some (.text text))
  | .structured => .ok none

/-- How the environment variable of a setting is read. -/
def form : Setting → Form
  | unexpected => .flag
  | timeout => .integer
  | compilerConfig | style | command | verbosity => .text
  | extensions | excluded | compilerOptions => .structured

/-- The environment variable of a setting. -/
def variableName (s : Setting) : String :=
  "TS_EXPECT_ERROR_" ++ s.name.toUpper

end Setting

end ExpectedDiagnostics
