import ExpectedDiagnostics.Diagnostic
import ExpectedDiagnostics.Disk
import ExpectedDiagnostics.Log
import ExpectedDiagnostics.Marker

/-!
# Staging

The compiler would take the markers of a file for directives of its own, so it is given a retagged
copy of every file that has some. A copy lies beside its source, which keeps relative imports
working, and is removed afterwards. A file that is in the way of a copy is never overwritten.

What the compiler reports about a copy is moved to its source. What it reports about a source
that has a copy comes from an import that led to it, and is dropped.

Files are staged on any disk; where nothing else is said, it is a file tree without links.
-/

namespace ExpectedDiagnostics

namespace Staging

/-- What the name of a copy has before its suffix. -/
def stem : String := "ts-expect-error"

/-- The name of the copy of a file with a name. -/
def copyName (name : String) : String :=
  Path.stemOf name ++ "." ++ stem ++ Path.suffixOf name

/-- The path of the copy of a file. -/
def copyPath (p : Path) : Except Failure Path :=
  if p.name.isEmpty then .error (.nameless p) else .ok (p.withName (copyName p.name))

/-- The place of the copy of the file at a place. -/
def copyPlace (place : Location) : Location :=
  place.parent.step (copyName (place.names.getLast?.getD ""))

end Staging

/-- Files that are being staged: the disk as it is now, the files that the compiler is to be
given, and the copies that were made, each with its source. -/
structure Staging (T : Type := FileTree) where
  tree : T
  places : List Location
  copies : List (Location × Location)
  log : List LogRecord

namespace Staging

variable {T : Type} [Disk T]

/-- Staging before the first file. -/
def start (tree : T) : Staging T :=
  ⟨tree, [], [], []⟩

/-- Stages the file at a place: it is used as it is if retagging changes nothing, and copied
otherwise. -/
def add (s : Staging T) (source : Location) : Except Failure (Staging T) := do
  let text ← Disk.readText s.tree source
  let text := String.ofList text
  let retagged := Marker.retag text
  if retagged == text then
    return { s with places := s.places ++ [source] }
  let copy := copyPlace source
  if (← Disk.find? s.tree copy).isSome then
    throw (.problem (.checker ("refusing to overwrite existing file " ++ copy.toString) none))
  let tree ← Disk.write s.tree copy (Utf8.encode retagged.toList)
  return {
    tree
    places := s.places ++ [copy]
    copies := s.copies ++ [(copy, source)]
    log := s.log ++ [⟨.debug, Log.compilerPart,
      "Staged " ++ source.toString ++ " as " ++ copy.toPath.name⟩] }

/-- Stages files one after the other, up to the first one that cannot be staged. -/
def addAll (s : Staging T) : List Location → Staging T × Option Failure
  | [] => (s, none)
  | source :: sources =>
    match s.add source with
    | .error f => (s, some f)
    | .ok s => s.addAll sources

/-- Removes the copies. -/
def cleaned (s : Staging T) : Staging T :=
  { s with tree := s.copies.foldl (fun t c => Disk.remove t c.1) s.tree }

/-- Stages files. If one of them cannot be staged, the copies of the others are removed again. -/
def enter (tree : T) (sources : List Location) : Staging T × Option Failure :=
  let (s, failure) := (start tree).addAll sources
  (if failure.isSome then s.cleaned else s, failure)

/-- The diagnostic of a copy as one of its source; none if it is of a source that has a copy. -/
def mapBack? (s : Staging T) (directory : Location) (d : Diagnostic) :
    Except Failure (Option Diagnostic) :=
  match d.file with
  | none => .ok (some d)
  | some file => do
    let place ← Disk.resolve s.tree directory (.ofString file)
    match s.copies.lookup place with
    | some source => return some { d with file := some source.toString }
    | none => return if s.copies.any (·.2 == place) then none else some d

/-- The diagnostics of staged files as diagnostics of their sources. -/
def mapBack (s : Staging T) (directory : Location) :
    List Diagnostic → Except Failure (List Diagnostic)
  | [] => .ok []
  | d :: ds => do
    let moved ← s.mapBack? directory d
    let rest ← s.mapBack directory ds
    return moved.toList ++ rest

end Staging

end ExpectedDiagnostics
