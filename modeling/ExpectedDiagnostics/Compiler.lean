import ExpectedDiagnostics.Check
import ExpectedDiagnostics.Json.Writer
import ExpectedDiagnostics.Listing.Reader
import ExpectedDiagnostics.Staging

/-!
# The compiler

Diagnostics from a run of the compiler. The files are staged, a project file that lists them is
written, the compiler is run on it, and its listing is read. Whatever comes of the run, the project
file and the copies are gone afterwards; only a project file that cannot be written to its end stays
behind.

How the compiler is run is left open: an `Executor` tells what comes of a call. A run works on any
disk (`collectOn`). What is made of the listing afterwards only looks at the disk, so a run does the
same to the disk whatever it is; on a file tree without links, paths are resolved as they are
written (`collect`).
-/

namespace ExpectedDiagnostics

/-- How the compiler is run: the command line, the configuration file to go by, the options to use
if there is none, the directory to run in, and the time to wait. -/
structure Compiler where
  command : String
  config : Option Path
  options : List (String × Data)
  directory : Option Path
  timeout : Data

/-- A call of the compiler: the words of the command line, the directory it runs in, the time to
wait, the place and the content of the project file, and the disk that it finds. -/
structure Call (T : Type := FileTree) where
  words : List String
  directory : Location
  timeout : Data
  projectPlace : Location
  project : Data
  tree : T

/-- What comes of a call. -/
inductive Execution
  | exited (status : Int) (output errors : String)
  | notFound
  | timedOut

/-- What comes of each call. -/
abbrev Executor (T : Type := FileTree) := Call T → Execution

namespace Compiler

/-! ## The project file -/

/-- What the name of a project file starts with. -/
def projectStem : String := ".ts-expect-error-"

/-- The names that a project file can have, each one character longer than the one before. -/
def projectName (n : Nat) : String :=
  projectStem ++ .ofList (List.replicate (8 + n) '0') ++ ".json"

variable {T : Type} [Disk T]

/-- The place for a project file in a directory: the first one that nothing is at yet. -/
def projectPlace (tree : T) (directory : Location) : Location :=
  let candidates := (List.range (Disk.size tree + 1)).map fun n => directory.step (projectName n)
  (candidates.find? (Disk.isFree tree)).getD (directory.step (projectName 0))

/-- The directory that the project file goes to: next to the configuration file, so that both see
the same types, or where the compiler runs. -/
def projectDirectory (directory : Location) (config : Option Location) : Location :=
  (config.map (·.parent)).getD directory

/-- The content of the project file for files. -/
def project (c : Compiler) (config : Option Location) (places : List Location) : Data :=
  .table [("files", .list (places.map fun p => .text p.toString)), ("include", .list []),
    match config with
    | some config => ("extends", .text config.toString)
    | none => ("compilerOptions", .table c.options)]

/-! ## The call -/

/-- The words that tell the compiler what to do. -/
def arguments (projectPlace : Location) : List String :=
  ["--project", projectPlace.toString, "--pretty", "false", "--noEmit"]

/-- The statuses with which the compiler ends when it has done its work. -/
def goodStatuses : List Int :=
  [0, 1, 2]

/-- Why a compiler failed that ended with a status: what it said, on one of its two outputs. -/
def failureReason (status : Int) (output errors : String) : String :=
  match Text.strip (if errors.isEmpty then output else errors).toList with
  | [] => "exit status " ++ toString status
  | said => .ofList said

/-- What a call gives: its log, and the listing or a problem. -/
def listing (c : Compiler) (words : List String) (execution : Execution) :
    List LogRecord × Except Failure String :=
  let command := ShellWords.join words
  let failed (reason : String) : Except Failure String :=
    .error (.problem (.checker reason (some command)))
  match execution with
  | .notFound => ([], .error (.problem (.checkerNotFound (words.head?.getD ""))))
  | .timedOut => ([], failed ("timed out after " ++ c.timeout.display ++ "s"))
  | .exited status output errors =>
    if goodStatuses.contains status then
      ([⟨.debug, Log.compilerPart, "tsc exited with status " ++ toString status⟩], .ok output)
    else ([], failed (failureReason status output errors))

/-! ## Collecting diagnostics -/

/-- What collecting diagnostics comes to, with the calls of the compiler and the disk that is
left. -/
structure Compiled (T : Type := FileTree) where
  collected : Collected
  calls : List (Call T)
  tree : T

/-- What a call of the compiler comes to: the log, the listing, the call, if there was one, and the
disk that is left. -/
structure Called (T : Type := FileTree) where
  log : List LogRecord
  output : Except Failure String
  calls : List (Call T)
  tree : T

/-- Runs the compiler on staged files. The project file is there while it runs, and removed
afterwards, unless it could not be written to its end. -/
def call (c : Compiler) (directory : Location) (config : Option Location) (execute : Executor T)
    (s : Staging T) : Called T :=
  let place := projectPlace s.tree (projectDirectory directory config)
  match Disk.reach s.tree place with
  | .error f => ⟨[], .error f, [], s.tree⟩
  | .ok _ =>
    let project := c.project config s.places
    let written (text : String) : T := Disk.create s.tree place (Utf8.encode text.toList)
    if !Json.canWrite project then
      ⟨[], .error (.unwritable project), [], written (Json.begun project)⟩
    else
    let tree := written (Json.indented project)
    match ShellWords.split c.command with
    | .error f => ⟨[], .error (.command f), [], Disk.remove tree place⟩
    | .ok command =>
      let words := command ++ arguments place
      let call : Call T := ⟨words, directory, c.timeout, place, project, tree⟩
      let running : LogRecord := ⟨.info, Log.compilerPart, "Running " ++ ShellWords.join words⟩
      let (log, output) := c.listing words (execute call)
      ⟨running :: log, output, [call], Disk.remove tree place⟩

/-- What is made of a listing, given the directory it is of and the staged files, whose copies are
gone by then. -/
abbrev Telling (T : Type := FileTree) :=
  Location → Staging T → String → Except Failure (List Diagnostic)

/-- Stages files and runs the compiler on them. -/
def callOn (c : Compiler) (tell : Telling T) (tree : T) (here directory : Location)
    (execute : Executor T) (sources : List Location) : Compiled T :=
  let (s, failure) := Staging.enter tree sources
  match failure with
  | some f => ⟨⟨s.log, .error f⟩, [], s.tree⟩
  | none =>
    let called : Called T :=
      match Disk.resolve? s.tree here c.config with
      | .error f => ⟨[], .error f, [], s.tree⟩
      | .ok config => c.call directory config execute s
    let left := Staging.cleaned { s with tree := called.tree }
    ⟨⟨s.log ++ called.log, called.output.bind (tell directory left)⟩, called.calls, left.tree⟩

/-- Collects what is made of a run on the files at these paths, which are seen from a directory. -/
def collectOn (c : Compiler) (tell : Telling T) (tree : T) (here : Location)
    (execute : Executor T) (paths : List Path) : Compiled T :=
  if paths.isEmpty then ⟨⟨[], .ok []⟩, [], tree⟩
  else
    match Disk.resolve? tree here c.directory, Disk.resolveAll tree here paths with
    | .ok directory, .ok sources =>
      c.callOn tell tree here (directory.getD here) execute sources
    | .error f, _ | _, .error f => ⟨⟨[], .error f⟩, [], tree⟩

/-- The diagnostics of a listing, moved from the copies to their sources. The diagnostics come out
in order and without repetitions. -/
def told (here : Location) : Telling := fun directory s text => do
  let ds ← (Listing.read directory text.toList).mapError .unresolved
  return Diagnostic.tidy (← s.mapBack here ds)

/-- Collects the diagnostics of the files at these paths. -/
def collect (c : Compiler) (w : Workspace) (execute : Executor) (paths : List Path) : Compiled :=
  c.collectOn (told w.directory) w.tree w.directory execute paths

/-- Resolves a path, if there is one. -/
def resolve? (w : Workspace) : Option Path → Except Failure (Option Location)
  | none => .ok none
  | some p => (w.resolve p).map some

end Compiler

end ExpectedDiagnostics
