import ExpectedDiagnostics.Failure
import ExpectedDiagnostics.Text.Lines

/-!
# Workspaces

Where the program runs: a file tree, the directory from which relative paths are seen, the home
directory, and what comes in on the standard input.
-/

namespace ExpectedDiagnostics

/-- Where the program runs. -/
structure Workspace where
  tree : FileTree
  directory : Location
  home : Location
  input : String

namespace Workspace

/-- The place that a path leads to, whatever its names are. -/
def place (w : Workspace) (p : Path) : Location :=
  p.place w.directory

/-- Resolves a path. -/
def resolve (w : Workspace) (p : Path) : Except Failure Location :=
  (p.resolve w.directory).mapError .unresolved

/-- Resolves paths one after the other. -/
def resolveAll (w : Workspace) : List Path → Except Failure (List Location)
  | [] => .ok []
  | p :: paths => do
    let place ← w.resolve p
    let places ← w.resolveAll paths
    return place :: places

/-- What a path leads to. -/
def find? (w : Workspace) (p : Path) : Except Failure (Option FileTree.Entry) :=
  (w.tree.find? w.directory p).mapError .file

/-- The octets of a file. -/
def readOctets (w : Workspace) (p : Path) : Except Failure (List UInt8) :=
  if p.hasNull then .error (.unresolved .nullCharacter)
  else (w.tree.read w.directory p).mapError .file

/-- The text of octets. All customary line ends are read as line feeds. -/
def textOf (octets : List UInt8) : Except Utf8.Fault (List Char) := do
  return Text.unifyLineEnds (← Utf8.decode octets)

/-- The text of a file. -/
def readText (w : Workspace) (p : Path) : Except Failure (List Char) := do
  let octets ← w.readOctets p
  (textOf octets).mapError .encoding

end Workspace

end ExpectedDiagnostics
