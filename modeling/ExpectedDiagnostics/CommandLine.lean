import ExpectedDiagnostics.Capture
import ExpectedDiagnostics.CommandLine.Argument
import ExpectedDiagnostics.Compiler
import ExpectedDiagnostics.Discovery
import ExpectedDiagnostics.Lexeme.Scan
import ExpectedDiagnostics.Report.Reporter
import ExpectedDiagnostics.Settings.Layers

/-!
# The command line

What the program does for the words of its command line: settings are loaded, the log is opened,
the files are found, their diagnostics are collected, and the files are checked and reported.

The program ends with status 0 if every check passed and with status 1 if one failed or a file was
given up. A problem that stops it has a status of its own and is told on the standard error; any
other failure ends it with status 1. A command line that makes no sense is a misuse.
-/

namespace ExpectedDiagnostics.CommandLine

/-- A call of the program: where it runs, the variables of its environment, and the words of its
command line. -/
structure Invocation where
  workspace : Workspace
  environment : List (String × String)
  words : List String

/-- How the program ends. -/
inductive Ending
  | status (n : Nat)
  | misuse (m : Misuse)
  deriving DecidableEq, Repr

/-- What comes of a call: how the program ends, what it writes to its two outputs, the log file with
the lines that are added to it, and the failure that stopped it. -/
structure Transcript where
  ending : Ending
  output : String
  errors : List String
  logFile : Option (Location × List String)
  failure : Option Failure

/-- The version of the program. -/
def version : String := "0.3.0"

/-- How the program is called. -/
def helpText : String :=
  String.intercalate "\n" [
    "Usage: ts-expect-error [OPTIONS] [PATHS]...",
    "",
    "Checks that // @ts-expect-error: annotations match the errors that tsc reports.",
    "",
    "  --tsconfig FILE          tsconfig.json to compile with",
    "  -e, --unexpected-errors  also fail on errors that no annotation expects",
    "  --diagnostics FILE       read diagnostics from a JSON file",
    "  --tsc-output FILE        read captured tsc output (- for the standard input)",
    "  --tsc COMMAND            the command that runs the compiler",
    "  -f, --format NAME        rich, json, github or quiet",
    "  -c, --config FILE        settings file in TOML format",
    "  --verbose                log everything",
    "  -q, --quiet              log errors only",
    "  --log-file FILE          append log records to a file",
    "  -v, --version            print the version",
    "  -h, --help               print this text"] ++ "\n"

namespace Transcript

/-- A call that prints a text and does nothing else. -/
def printing (text : String) : Transcript :=
  ⟨.status 0, text, [], none, none⟩

/-- A call that makes no sense. -/
def misused (m : Misuse) : Transcript :=
  ⟨.misuse m, "", [], none, none⟩

end Transcript

/-! ## What is said on the standard error -/

/-- The line of a record of the log. -/
def recordLine (r : LogRecord) : String :=
  let text := (Report.Terminal.shown r.text).toList
  r.level.paddedName ++ " " ++
    .ofList (text.flatMap fun c => if c == '\n' then '\n' :: List.replicate 9 ' ' else [c])

/-- The line of a problem. -/
def problemLine (p : Problem) : String :=
  let title := if p.kind.isUnder .internal then "Internal error: " else "Error: "
  Report.Terminal.shown (title ++ Report.Terminal.guarded p.message)

/-- The lines of a failure. Only problems are told. -/
def failureLines : Failure → List String
  | .problem p => [problemLine p]
  | _ => []

/-- A call that is stopped before anything is logged. -/
def stopped (f : Failure) : Transcript :=
  ⟨.status f.exitStatus, "", failureLines f, none, some f⟩

/-! ## Paths of the command line -/

/-- Tells whether a text can only be the path of a directory: it ends in a slash, or in a dot. -/
def endsInDirectory (text : String) : Bool :=
  let last := (Path.splitSlashes text.toList).getLast?.getD []
  last.isEmpty || last == ['.']

/-- Tells whether a text is the path of a file that is there. -/
def leadsToFile (w : Workspace) (text : String) : Bool :=
  match w.find? (.ofString text) with
  | .ok (some (.file _)) => !endsInDirectory text
  | _ => false

/-- Tells whether a text is the path of a directory that is there. -/
def leadsToDirectory (w : Workspace) (text : String) : Bool :=
  match w.find? (.ofString text) with
  | .ok (some .directory) => text != ""
  | _ => false

/-- Tells whether the value of an option can be used: the files to read must be there, and the log
must not be a directory. -/
def fits (w : Workspace) (value : String) : Parameter → Bool
  | .compilerConfig | .diagnostics | .config => leadsToFile w value
  | .logFile => !leadsToDirectory w value
  | .listing | .command | .style => true

/-- What comes of a call with a path that holds the null character. -/
def nullRefusal? (text : String) : Option Transcript :=
  if (Path.ofString text).hasNull then some (stopped (.unresolved .nullCharacter)) else none

/-- What comes of a call with a value of an option, if the value stops it. -/
def refusal? (w : Workspace) (value : String) (p : Parameter) : Option Transcript :=
  let refusal := if p.isPath then nullRefusal? value else none
  refusal.or (if fits w value p then none else some (.misused (.unfitPath p value)))

/-- What comes of a call, if one of its paths stops it: the values of options come first, in the
order in which the options were first named. -/
def refused? (w : Workspace) (arguments : List Argument) : Option Transcript :=
  let ofOptions := (parametersOf arguments).findSome? fun p =>
    (valueOf? arguments p).bind fun value => refusal? w value p
  ofOptions.or ((pathsOf arguments).findSome? nullRefusal?)

/-! ## Parts of a call -/

/-- The settings that the command line asks for. -/
def overrides (arguments : List Argument) : Settings.Overrides :=
  let text (p : Parameter) : Data := ((valueOf? arguments p).map Data.text).getD .null
  let config : Data :=
    ((valueOf? arguments .compilerConfig).map fun t => .text (Path.ofString t).toString).getD .null
  ⟨[(Setting.compilerConfig.name, config),
      (Setting.unexpected.name, if hasSwitch arguments .unexpected then .bool true else .null),
      (Setting.style.name, text .style), (Setting.command.name, text .command)],
    hasSwitch arguments .verbose, hasSwitch arguments .quiet⟩

/-- The path of the log file as it is opened: from the root, and without any `..`. -/
def logPath (w : Workspace) (p : Path) : Path :=
  ⟨if p.isAbsolute then p.anchor else .root, (w.place p).names⟩

/-- Opens the log file, if one is asked for: its place, and the workspace with it. -/
def openLog (w : Workspace) (arguments : List Argument) :
    Except Failure (Option Location × Workspace) :=
  match valueOf? arguments .logFile with
  | none => .ok (none, w)
  | some text =>
    match w.tree.openToAppend w.directory (logPath w (.ofString text)) with
    | .error f => .error (.file f)
    | .ok (place, tree) => .ok (some place, { w with tree })

/-- The compiler that settings ask for. -/
def compilerOf (s : Settings) : Except Failure Compiler := do
  let config ← s.configPath
  return ⟨s.command, config, s.optionFields, none, s.timeout⟩

/-- Where diagnostics come from: a capture that the command line names, or the compiler. -/
def collector (w : Workspace) (execute : Executor) (s : Settings) (arguments : List Argument) :
    Except Failure (List Path → Collected) :=
  let capture (form : CaptureForm) (text : String) (_ : List Path) : Collected :=
    ⟨[], Capture.collect ⟨form, .ofString text, none⟩ w⟩
  match valueOf? arguments .diagnostics, valueOf? arguments .listing with
  | some _, some _ =>
    .error (.problem
      (.other .configuration "--diagnostics and --tsc-output cannot be combined" []))
  | some text, none => .ok (capture .records text)
  | none, some text => .ok (capture .listing text)
  | none, none => do
    let compiler ← compilerOf s
    return fun paths => (compiler.collect w execute paths).collected

/-! ## Calls -/

/-- What is done once settings are loaded and the log is open: the log, the report, and the status
or a failure. -/
structure Work where
  log : List LogRecord
  output : String
  result : Except Failure Nat

/-- Finds the files, collects their diagnostics and checks them. -/
def work (w : Workspace) (execute : Executor) (s : Settings) (arguments : List Argument) : Work :=
  let found := Selection.expand ⟨s.suffixes, .ofData s.excluded⟩ w
    ((pathsOf arguments).map Path.ofString)
  match found.failure with
  | some f => ⟨found.log, "", .error f⟩
  | none =>
    match collector w execute s arguments with
    | .error f => ⟨found.log, "", .error f⟩
    | .ok collect =>
      let reporter : Report.Reporter := ⟨s.style, s.unexpected, found.files.length == 1⟩
      let checked := Check.perform w (Check.withGroups CommentGroup.ofText) collect
        reporter.countsUnexpected found.files
      ⟨found.log ++ checked.run.log, reporter.report checked.run.events,
        checked.result.map (·.exitStatus)⟩

/-- Checks what the command line asks for. -/
def check (execute : Executor) (i : Invocation) (arguments : List Argument) : Transcript :=
  let config := (valueOf? arguments .config).map Path.ofString
  match Settings.load ⟨i.workspace, config, i.environment, overrides arguments⟩ with
  | .error f => stopped f
  | .ok settings =>
    match openLog i.workspace arguments with
    | .error f => stopped f
    | .ok (place, w) =>
      let done := work w execute settings arguments
      let kept := done.log.filter (Log.keeps settings.verbosity.threshold)
      let logFile := place.map fun p => (p, kept.map Log.fileLine)
      let said := kept.map recordLine
      match done.result with
      | .ok n => ⟨.status n, done.output, said, logFile, none⟩
      | .error f => ⟨.status f.exitStatus, done.output, said ++ failureLines f, logFile, some f⟩

/-- What comes of a call, if calls of the compiler come to what `execute` says. -/
def run (execute : Executor) (i : Invocation) : Transcript :=
  match readWords i.words with
  | .error m => .misused m
  | .ok arguments =>
    match eagerSwitch? arguments with
    | some .version => .printing (version ++ "\n")
    | some _ => .printing helpText
    | none =>
      match refused? i.workspace arguments with
      | some t => t
      | none =>
        if (pathsOf arguments).isEmpty then .printing helpText
        else check execute i arguments

end ExpectedDiagnostics.CommandLine
