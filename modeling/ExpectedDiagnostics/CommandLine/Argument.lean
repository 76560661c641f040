/-!
# Arguments of the command line

How the words of a command line are read. A word that starts with a dash is an option, all other
words are paths, wherever they stand; after the word `--` every word is a path.

An option has a long name after two dashes, and some have a letter after one dash. The value of an
option is what follows the equals sign of its long name, the rest of the word after its letter, or
the next word. Letters of options without a value may be written together.
-/

namespace ExpectedDiagnostics.CommandLine

/-! ## Options -/

/-- The options without a value. -/
inductive Switch
  | unexpected
  | verbose
  | quiet
  | version
  | help
  deriving DecidableEq, Repr

namespace Switch

/-- All options without a value. -/
def all : List Switch :=
  [unexpected, verbose, quiet, version, help]

/-- The long name. -/
def longName : Switch → String
  | unexpected => "--unexpected-errors"
  | verbose => "--verbose"
  | quiet => "--quiet"
  | version => "--version"
  | help => "--help"

/-- The letter. -/
def letter? : Switch → Option Char
  | unexpected => some 'e'
  | verbose => none
  | quiet => some 'q'
  | version => some 'v'
  | help => some 'h'

/-- Tells whether an option is answered at once, before anything else is looked at. -/
def isEager : Switch → Bool
  | version | help => true
  | _ => false

end Switch

/-- The options with a value. -/
inductive Parameter
  | compilerConfig
  | diagnostics
  | listing
  | command
  | style
  | config
  | logFile
  deriving DecidableEq, Repr

namespace Parameter

/-- All options with a value. -/
def all : List Parameter :=
  [compilerConfig, diagnostics, listing, command, style, config, logFile]

/-- The long name. -/
def longName : Parameter → String
  | compilerConfig => "--tsconfig"
  | diagnostics => "--diagnostics"
  | listing => "--tsc-output"
  | command => "--tsc"
  | style => "--format"
  | config => "--config"
  | logFile => "--log-file"

/-- The letter. -/
def letter? : Parameter → Option Char
  | style => some 'f'
  | config => some 'c'
  | _ => none

/-- Tells whether the value of an option is looked up as a path. -/
def isPath : Parameter → Bool
  | compilerConfig | diagnostics | config | logFile => true
  | listing | command | style => false

end Parameter

/-- An option. -/
inductive Choice
  | switch (s : Switch)
  | parameter (p : Parameter)
  deriving DecidableEq, Repr

namespace Choice

/-- All options. -/
def all : List Choice :=
  Switch.all.map switch ++ Parameter.all.map parameter

/-- The long name. -/
def longName : Choice → String
  | switch s => s.longName
  | parameter p => p.longName

/-- The letter. -/
def letter? : Choice → Option Char
  | switch s => s.letter?
  | parameter p => p.letter?

/-- The option with a long name. -/
def ofLongName? (name : List Char) : Option Choice :=
  all.find? (·.longName.toList == name)

/-- The option with a letter. -/
def ofLetter? (c : Char) : Option Choice :=
  all.find? (·.letter? == some c)

end Choice

/-! ## Arguments -/

/-- What a command line says, piece by piece. -/
inductive Argument
  | path (text : String)
  | switch (s : Switch)
  | parameter (p : Parameter) (value : String)
  deriving DecidableEq, Repr

/-- What is wrong with a command line. -/
inductive Misuse
  /-- An option that there is not. -/
  | unknown (name : String)
  /-- An option without the value that it needs. -/
  | missingValue (p : Parameter)
  /-- An option with a value that it does not take. -/
  | needlessValue (s : Switch)
  /-- A path that does not lead to what the option needs. -/
  | unfitPath (p : Parameter) (text : String)
  deriving DecidableEq, Repr

/-- The wording of a misuse. -/
def Misuse.message : Misuse → String
  | unknown name => "no such option: " ++ name
  | missingValue p => p.longName ++ " needs a value"
  | needlessValue s => s.longName ++ " takes no value"
  | unfitPath p text => p.longName ++ ": " ++ text ++ " is not a file that can be used"

/-- What a word says. -/
inductive Word
  /-- The end of the options. -/
  | stop
  /-- Arguments that are complete. -/
  | complete (arguments : List Argument)
  /-- Arguments, and an option whose value is the next word. -/
  | awaiting (arguments : List Argument) (p : Parameter)
  /-- Something that is wrong. -/
  | wrong (m : Misuse)

namespace Word

/-- Reads the letters of options that are written together. -/
def ofLetters (before : List Argument) : List Char → Word
  | [] => complete before
  | c :: cs =>
    match Choice.ofLetter? c with
    | none => wrong (.unknown (.ofList ['-', c]))
    | some (.switch s) => ofLetters (before ++ [.switch s]) cs
    | some (.parameter p) =>
      if cs.isEmpty then awaiting before p else complete (before ++ [.parameter p (.ofList cs)])

/-- What a word says that names an option by its long name. The value after the equals sign, if
there is one, comes with the sign. -/
def ofLong (value : List Char) : Choice → Word
  | .switch s => if value.isEmpty then complete [.switch s] else wrong (.needlessValue s)
  | .parameter p =>
    if value.isEmpty then awaiting [] p else complete [.parameter p (.ofList (value.drop 1))]

/-- Reads an option. -/
def ofOption (word : List Char) : Word :=
  let name := word.takeWhile (· != '=')
  match Choice.ofLongName? name with
  | some choice => ofLong (word.dropWhile (· != '=')) choice
  | none =>
    match word with
    | '-' :: '-' :: _ => wrong (.unknown (.ofList name))
    | _ => ofLetters [] (word.drop 1)

/-- Reads a word. A single dash is a path. -/
def ofString (word : String) : Word :=
  match word.toList with
  | ['-', '-'] => stop
  | '-' :: c :: cs => ofOption ('-' :: c :: cs)
  | _ => complete [.path word]

end Word

/-- Reads the words of a command line. -/
def readWords : List String → Except Misuse (List Argument)
  | [] => .ok []
  | word :: words =>
    match Word.ofString word with
    | .stop => .ok (words.map .path)
    | .wrong m => .error m
    | .complete arguments => (readWords words).map (arguments ++ ·)
    | .awaiting arguments p =>
      match words with
      | [] => .error (.missingValue p)
      | value :: words => (readWords words).map ((arguments ++ [.parameter p value]) ++ ·)

/-! ## Looking up arguments -/

/-- The paths among arguments. -/
def pathsOf (arguments : List Argument) : List String :=
  arguments.filterMap fun a =>
    match a with
    | .path text => some text
    | _ => none

/-- Tells whether a switch is among arguments. -/
def hasSwitch (arguments : List Argument) (s : Switch) : Bool :=
  arguments.contains (.switch s)

/-- The options with a value among arguments, in order. -/
def parametersOf (arguments : List Argument) : List Parameter :=
  arguments.filterMap fun a =>
    match a with
    | .parameter p _ => some p
    | _ => none

/-- The value of an option. Of several values the last one counts. -/
def valueOf? (arguments : List Argument) (p : Parameter) : Option String :=
  (arguments.filterMap fun a =>
    match a with
    | .parameter q value => if p = q then some value else none
    | _ => none).getLast?

/-- The first switch among arguments that is answered at once. -/
def eagerSwitch? (arguments : List Argument) : Option Switch :=
  arguments.findSome? fun a =>
    match a with
    | .switch s => if s.isEager then some s else none
    | _ => none

end ExpectedDiagnostics.CommandLine
