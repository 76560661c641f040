import ExpectedDiagnostics.Workspace

/-!
# Disks

What staging and the compiler ask of the file system they work on. A path is asked for by a
directory and the path as it is written; everything else is told by the names on the way to it, and
whatever stands on this way is followed. Writing makes a file where nothing is; a file that is made
for the program alone (`create`) is only made at a place that is free (`isFree`).
-/

namespace ExpectedDiagnostics

/-- What can be asked of a file system. -/
class Disk (T : Type) where
  /-- The place that a path leads to from a directory, with nothing left on the way to follow. -/
  resolve (t : T) (directory : Location) (p : Path) : Except Failure Location
  /-- The text of a file. -/
  readText (t : T) (place : Location) : Except Failure (List Char)
  /-- What is found in the end. -/
  find? (t : T) (place : Location) : Except Failure (Option FileTree.Entry)
  /-- Writes a file. -/
  write (t : T) (place : Location) (content : List UInt8) : Except Failure T
  /-- Tells whether nothing stands at a place. -/
  isFree (t : T) (place : Location) : Bool
  /-- Tells what is wrong with the way to a place where a file is to be made. -/
  reach (t : T) (place : Location) : Except Failure Unit
  /-- Makes a file where nothing stands. -/
  create (t : T) (place : Location) (content : List UInt8) : T
  /-- Removes what stands at a place, if it is no directory. -/
  remove (t : T) (place : Location) : T
  /-- A number that is not below that of the things on the disk. -/
  size (t : T) : Nat

namespace Disk

variable {T : Type} [Disk T]

/-- Resolves a path, if there is one. -/
def resolve? (t : T) (directory : Location) : Option Path → Except Failure (Option Location)
  | none => .ok none
  | some p => (resolve t directory p).map some

/-- Resolves paths one after the other. -/
def resolveAll (t : T) (directory : Location) : List Path → Except Failure (List Location)
  | [] => .ok []
  | p :: paths => do
    let place ← resolve t directory p
    let places ← resolveAll t directory paths
    return place :: places

end Disk

namespace FileTree

/-- A tree without links is a disk: what stands at a place is found there. -/
instance : Disk FileTree where
  resolve _ directory p := (p.resolve directory).mapError .unresolved
  readText t place := (⟨t, .root, .root, ""⟩ : Workspace).readText place.toPath
  find? t place := (⟨t, .root, .root, ""⟩ : Workspace).find? place.toPath
  write t place content := .ok (t.write place content)
  isFree t place := (t.entry? place).isNone
  reach t place :=
    match t.locate .root place.toPath with
    | .ok _ => .ok ()
    | .error cause => .error (.file ⟨cause, place.toPath⟩)
  create t place content := t.write place content
  remove t place := t.remove place
  size t := t.files.length + t.directories.length

@[simp]
theorem disk_resolve (t : FileTree) (directory : Location) (p : Path) :
    Disk.resolve t directory p = (p.resolve directory).mapError .unresolved := rfl

@[simp]
theorem disk_reach (t : FileTree) (place : Location) :
    Disk.reach t place =
      match t.locate .root place.toPath with
      | .ok _ => .ok ()
      | .error cause => .error (.file ⟨cause, place.toPath⟩) := rfl

end FileTree

end ExpectedDiagnostics
