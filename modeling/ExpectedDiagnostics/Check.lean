import ExpectedDiagnostics.Index.Program
import ExpectedDiagnostics.Run

/-!
# Checks

A whole check: the source files are read, their diagnostics are collected, and each file is checked
against its own, in the order in which the files are given. A file that is given more than once is
checked each time against what the earlier checks have left.
-/

namespace ExpectedDiagnostics

/-- What collecting diagnostics comes to: the diagnostics or a failure, and what the log says. -/
structure Collected where
  log : List LogRecord
  result : Except Failure (List Diagnostic)

/-- What a check comes to: the run with its events and its log, and what is told at its end. -/
structure Checked where
  run : Run
  result : Except Failure RunSummary

namespace Check

/-- Reads source files. -/
def load (w : Workspace) : List Path → Except Failure (List Source)
  | [] => .ok []
  | path :: paths => do
    let source ← Source.load w path
    let sources ← load w paths
    return source :: sources

/-- Pairs each source file with its comment groups. -/
def withGroups (walk : String → Dialect → List CommentGroup) (sources : List Source) :
    List (Source × List CommentGroup) :=
  sources.map fun s => (s, walk s.text s.dialect)

/-- What the log says of diagnostics without a file. -/
def globalRecords (ds : List Diagnostic) : List LogRecord :=
  (ds.filter (·.file.isNone)).map fun d =>
    ⟨.warning, Log.runnerPart, "tsc: " ++ d.display ++ " [not attached to a file]"⟩

/-- Checks source files one after the other; the first failure ends the check. -/
def checkAll (directory : Location) (run : Run) (index : ProgramIndex) :
    List (Source × List CommentGroup) → Run × Except Failure RunSummary
  | [] =>
    match run.finish with
    | .error f => (run, .error f)
    | .ok (run, summary) => (run, .ok summary)
  | (source, groups) :: rest =>
    let place := source.path.place directory
    let run := run.note .debug ("Checking " ++ source.path.toString)
    let (run, lines, result) := run.checkFile source (index.forFile place) groups
    match result with
    | .error f => (run, .error f)
    | .ok _ => checkAll directory run (index.replace place lines) rest

/-- Checks the files at these paths. The comment groups of a file are told by `groupsOf`, and its
diagnostics by `collect`. -/
def perform (w : Workspace) (groupsOf : List Source → List (Source × List CommentGroup))
    (collect : List Path → Collected) (unexpected : Bool) (paths : List Path) : Checked :=
  let run := Run.start unexpected
  match load w paths with
  | .error f => ⟨run, .error f⟩
  | .ok sources =>
    let run := run.note .info
      ("Collecting diagnostics for " ++ toString sources.length ++ " file(s)")
    let collected := collect (sources.map (·.path))
    let run := { run with log := run.log ++ collected.log }
    match collected.result with
    | .error f => ⟨run, .error f⟩
    | .ok ds =>
      let run := run.note .info ("Checker reported " ++ toString ds.length ++ " diagnostic(s)")
      let run := { run with log := run.log ++ globalRecords ds }
      match ProgramIndex.ofList w.directory ds with
      | .error f => ⟨run, .error (.unresolved f)⟩
      | .ok index =>
        let (run, result) := checkAll w.directory run index (groupsOf sources)
        ⟨run, result⟩

end Check

end ExpectedDiagnostics
