import ExpectedDiagnostics.Path
import ExpectedDiagnostics.Text.Quoted

/-!
# File trees

Directories and files, each at its place. A path is followed name by name: every name but the last
must lead to a directory, so a path through something that is missing, or through a file, leads
nowhere even if a later `..` would leave it again. Neither a name nor a path can have any length.
-/

namespace ExpectedDiagnostics

/-- The directories and the files with their content, each at its place. The root is always a
directory. -/
structure FileTree where
  directories : List Location
  files : List (Location × List UInt8)

namespace FileTree

/-! ## Places -/

/-- What is at a place. -/
inductive Entry
  | directory
  | file (content : List UInt8)
  deriving DecidableEq, Repr

/-- What is at a place of a tree. -/
def entry? (t : FileTree) (place : Location) : Option Entry :=
  match t.files.lookup place with
  | some content => some (.file content)
  | none => if place == .root || t.directories.contains place then some .directory else none

/-- Tells whether a directory is at a place. -/
def hasDirectory (t : FileTree) (place : Location) : Bool :=
  t.entry? place == some .directory

/-- Those of some places that lie below a directory, each told by the names on the way to it, in the
order of these names. -/
def sortedBelow (directory : Location) (places : List Location) : List (List String) :=
  (places.filterMap directory.namesBelow?).mergeSort fun a b => !b.lex a

/-- The files below a directory. -/
def below (t : FileTree) (directory : Location) : List (List String) :=
  sortedBelow directory (t.files.map (·.1))

/-- The directories below a directory. -/
def foldersBelow (t : FileTree) (directory : Location) : List (List String) :=
  sortedBelow directory t.directories

/-- Writes a file, in place of one that is there. -/
def write (t : FileTree) (place : Location) (content : List UInt8) : FileTree :=
  { t with files := t.files.filter (·.1 != place) ++ [(place, content)] }

/-- Removes a file. -/
def remove (t : FileTree) (place : Location) : FileTree :=
  { t with files := t.files.filter (·.1 != place) }

/-! ## Paths -/

/-- Why a path does not lead to what was asked for. -/
inductive Cause
  | missing
  | notDirectory
  | isDirectory
  | tooLong
  | manyLinks
  deriving DecidableEq, Repr

/-- The number by which a cause is known. -/
def Cause.number : Cause → Nat
  | missing => 2
  | notDirectory => 20
  | isDirectory => 21
  | tooLong => 36
  | manyLinks => 40

/-- The wording of a cause. -/
def Cause.message : Cause → String
  | missing => "No such file or directory"
  | notDirectory => "Not a directory"
  | isDirectory => "Is a directory"
  | tooLong => "File name too long"
  | manyLinks => "Too many levels of symbolic links"

/-- A path that does not lead to what was asked for. -/
structure Fault where
  cause : Cause
  path : Path
  deriving DecidableEq, Repr

/-- The wording of a fault. -/
def Fault.message (f : Fault) : String :=
  "[Errno " ++ toString f.cause.number ++ "] " ++ f.cause.message ++ ": " ++
    Text.quote f.path.toString

/-- The number of octets that a name can have. -/
def nameLimit : Nat := 255

/-- The number of octets that a path can have. -/
def pathLimit : Nat := 4095

/-- The place that names lead to, if all but the last one lead to directories. -/
def follow (t : FileTree) (here : Location) : List String → Except Cause Location
  | [] => .ok here
  | name :: names =>
    match t.entry? here with
    | some .directory =>
      if nameLimit < name.utf8ByteSize then .error .tooLong else t.follow (here.step name) names
    | some (.file _) => .error .notDirectory
    | none => .error .missing

/-- The place that a path leads to from a directory. -/
def locate (t : FileTree) (directory : Location) (p : Path) : Except Cause Location :=
  if pathLimit < p.toString.utf8ByteSize then .error .tooLong
  else t.follow (if p.isAbsolute then .root else directory) p.parts

/-- What a path leads to from a directory. A path that leads nowhere is no fault, unless it is too
long to tell. -/
def find? (t : FileTree) (directory : Location) (p : Path) : Except Fault (Option Entry) :=
  if p.hasNull then .ok none
  else
    match t.locate directory p with
    | .ok place => .ok (t.entry? place)
    | .error .tooLong => .error ⟨.tooLong, p⟩
    | .error _ => .ok none

/-- The content of the file that a path leads to from a directory. -/
def read (t : FileTree) (directory : Location) (p : Path) : Except Fault (List UInt8) :=
  match t.locate directory p with
  | .error cause => .error ⟨cause, p⟩
  | .ok place =>
    match t.entry? place with
    | some (.file content) => .ok content
    | some .directory => .error ⟨.isDirectory, p⟩
    | none => .error ⟨.missing, p⟩

/-- Opens the file that a path leads to from a directory, to write at its end. If nothing is there,
an empty file is made. -/
def openToAppend (t : FileTree) (directory : Location) (p : Path) :
    Except Fault (Location × FileTree) :=
  match t.locate directory p with
  | .error cause => .error ⟨cause, p⟩
  | .ok place =>
    match t.entry? place with
    | some (.file _) => .ok (place, t)
    | some .directory => .error ⟨.isDirectory, p⟩
    | none => .ok (place, t.write place [])

end FileTree

end ExpectedDiagnostics
