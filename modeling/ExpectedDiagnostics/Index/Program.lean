import ExpectedDiagnostics.Index.Lines
import ExpectedDiagnostics.Path

/-!
# The diagnostics of a program, by file

One index by line for every file that something was reported for. Files are told apart by the
place that their paths lead to, so every spelling of a path finds the same index.
-/

namespace ExpectedDiagnostics

/-- The indexes of all files that something was reported for. -/
structure ProgramIndex where
  files : List (Location × LineIndex)

namespace ProgramIndex

/-- An index without files. -/
def empty : ProgramIndex := ⟨[]⟩

/-- The index of a file; it is empty if nothing was reported for the file. -/
def forFile (ix : ProgramIndex) (place : Location) : LineIndex :=
  (ix.files.lookup place).getD .empty

/-- Tells whether something was reported for a file. -/
def contains (ix : ProgramIndex) (place : Location) : Bool :=
  ix.files.any (·.1 == place)

/-- Gives a file that something was reported for another index. -/
def replace (ix : ProgramIndex) (place : Location) (lines : LineIndex) : ProgramIndex :=
  ⟨ix.files.map fun f => if f.1 == place then (f.1, lines) else f⟩

/-- Adds a diagnostic to a line of a file. -/
def addAt (ix : ProgramIndex) (place : Location) (d : Diagnostic) : ProgramIndex :=
  let lines := (ix.forFile place).add d.line d
  if ix.contains place then ix.replace place lines else ⟨ix.files ++ [(place, lines)]⟩

/-- Adds a diagnostic to the index of a file, seen from a directory. -/
def addTo (ix : ProgramIndex) (directory : Location) (file : String) (d : Diagnostic) :
    Except Path.Fault ProgramIndex := do
  let place ← (Path.ofString file).resolve directory
  return ix.addAt place d

/-- Adds diagnostics to the indexes of their files, seen from a directory. Those without a file are
left out. -/
def addAll (ix : ProgramIndex) (directory : Location) :
    List Diagnostic → Except Path.Fault ProgramIndex
  | [] => .ok ix
  | d :: ds =>
    match d.file with
    | none => ix.addAll directory ds
    | some file => do
      let ix ← ix.addTo directory file d
      ix.addAll directory ds

/-- The index of diagnostics, seen from a directory. -/
def ofList (directory : Location) (ds : List Diagnostic) : Except Path.Fault ProgramIndex :=
  empty.addAll directory ds

/-- Takes the diagnostics of a line of a file. -/
def take (ix : ProgramIndex) (place : Location) (line : Int) : List Diagnostic × ProgramIndex :=
  let (ds, lines) := (ix.forFile place).take line
  (ds, ix.replace place lines)

/-! ## Seen from a directory -/

/-- What keeps an index from doing what it is asked for. -/
inductive Fault
  /-- A diagnostic that is to be added has no file. -/
  | noFile
  /-- A path cannot be resolved. -/
  | unresolved (f : Path.Fault)
  deriving DecidableEq, Repr

/-- The wording of a fault. -/
def Fault.message : Fault → String
  | noFile => "Diagnostic has no file"
  | unresolved f => f.message

/-- The place that a path leads to from a directory. -/
def find (directory : Location) (path : String) : Except Fault Location :=
  ((Path.ofString path).resolve directory).mapError .unresolved

/-- Adds a diagnostic to the index of its file. -/
def add (ix : ProgramIndex) (directory : Location) (d : Diagnostic) : Except Fault ProgramIndex :=
  match d.file with
  | none => .error .noFile
  | some file => (ix.addTo directory file d).mapError .unresolved

/-- Takes the diagnostics of a line of the file that a path leads to. -/
def takeFrom (ix : ProgramIndex) (directory : Location) (path : String) (line : Int) :
    Except Fault (List Diagnostic × ProgramIndex) := do
  let place ← find directory path
  return ix.take place line

/-- Tells whether something was reported for the file that a path leads to. -/
def knows (ix : ProgramIndex) (directory : Location) (path : String) : Except Fault Bool := do
  let place ← find directory path
  return ix.contains place

end ProgramIndex

end ExpectedDiagnostics
