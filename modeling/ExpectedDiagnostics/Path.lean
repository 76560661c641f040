/-!
# Paths

Paths as they are written, and the places of a file tree that they lead to. A path keeps every
`..`, because it may only be dropped once the path is resolved; a `Location` has none, so two
resolved paths lead to the same place exactly if they are equal.

Resolving is a matter of text alone here; a tree with links follows them itself. Only the null
character stands in its way: no name can hold it, so a path that does cannot be resolved.
-/

namespace ExpectedDiagnostics

/-- A place in a file tree: the names on the way from the root to it. -/
structure Location where
  names : List String
  deriving DecidableEq, Repr

/-- Where a path starts. Two slashes at the front, and no third one, are kept apart from one. -/
inductive Anchor
  | relative
  | root
  | doubleRoot
  deriving DecidableEq, Repr

/-- A path as it is written: where it starts, and its names. Empty names and `.` are left out. -/
structure Path where
  anchor : Anchor
  parts : List String
  deriving DecidableEq, Repr

namespace Path

/-- Cuts a text at every slash. -/
def splitSlashes : List Char → List (List Char)
  | [] => [[]]
  | c :: cs =>
    if c == '/' then [] :: splitSlashes cs
    else
      match splitSlashes cs with
      | [] => [[c]]
      | p :: ps => (c :: p) :: ps

/-- The names of a path, in order. -/
def namesOf (cs : List Char) : List String :=
  ((splitSlashes cs).map String.ofList).filter fun name => name != "" && name != "."

/-- The start of a path. -/
def anchorOf (cs : List Char) : Anchor :=
  match (cs.takeWhile (· == '/')).length with
  | 0 => .relative
  | 2 => .doubleRoot
  | _ => .root

/-- The path that a text writes. -/
def ofString (s : String) : Path :=
  ⟨anchorOf s.toList, namesOf s.toList⟩

/-- The text of a path. The empty path is a dot. -/
def toString (p : Path) : String :=
  let names := String.intercalate "/" p.parts
  match p.anchor with
  | .relative => if p.parts.isEmpty then "." else names
  | .root => "/" ++ names
  | .doubleRoot => "//" ++ names

instance : ToString Path := ⟨Path.toString⟩

/-- Tells whether a path starts at the root. -/
def isAbsolute (p : Path) : Bool :=
  p.anchor != .relative

/-- The second path as seen from the first one. -/
def join (base p : Path) : Path :=
  if p.isAbsolute then p else ⟨base.anchor, base.parts ++ p.parts⟩

/-- The last name. -/
def name (p : Path) : String :=
  p.parts.getLast?.getD ""

/-- The path without its last name. -/
def parent (p : Path) : Path :=
  ⟨p.anchor, p.parts.dropLast⟩

/-- The number of characters before the last dot of a name, if the dot is neither its first nor its
last character. -/
def dotAt? (cs : List Char) : Option Nat :=
  let tail := (cs.reverse.takeWhile (· != '.')).length
  if tail == 0 || cs.length ≤ tail + 1 then none else some (cs.length - tail - 1)

/-- A name without its suffix. -/
def stemOf (name : String) : String :=
  match dotAt? name.toList with
  | some n => .ofList (name.toList.take n)
  | none => name

/-- What comes after the stem of a name, with the dot. -/
def suffixOf (name : String) : String :=
  match dotAt? name.toList with
  | some n => .ofList (name.toList.drop n)
  | none => ""

/-- The last name without its suffix. -/
def stem (p : Path) : String :=
  stemOf p.name

/-- The suffix of the last name, with the dot. -/
def suffix (p : Path) : String :=
  suffixOf p.name

/-- The path that leads on from a path by more names. -/
def append (p : Path) (names : List String) : Path :=
  ⟨p.anchor, p.parts ++ names⟩

/-- The path with another last name. -/
def withName (p : Path) (name : String) : Path :=
  ⟨p.anchor, p.parts.dropLast ++ [name]⟩

end Path

namespace Location

/-- The root of the file tree. -/
def root : Location := ⟨[]⟩

/-- The place that a name leads to from another place. From the root, `..` leads back to it. -/
def step (place : Location) (name : String) : Location :=
  ⟨if name == ".." then place.names.dropLast else place.names ++ [name]⟩

/-- The place that names lead to, one after the other. -/
def follow (place : Location) (names : List String) : Location :=
  names.foldl step place

/-- The directory that a place lies in. -/
def parent (place : Location) : Location :=
  ⟨place.names.dropLast⟩

/-- The names on the way from a directory to a place below it. -/
def namesBelow? (directory place : Location) : Option (List String) :=
  if directory.names.isPrefixOf place.names && directory.names.length < place.names.length then
    some (place.names.drop directory.names.length)
  else none

/-- The path of a place. -/
def toPath (place : Location) : Path :=
  ⟨.root, place.names⟩

/-- The text of a place. -/
def toString (place : Location) : String :=
  place.toPath.toString

instance : ToString Location := ⟨Location.toString⟩

end Location

namespace Path

/-- The place that a path leads to from a directory, whatever its names are. -/
def place (directory : Location) (p : Path) : Location :=
  (if p.isAbsolute then Location.root else directory).follow p.parts

/-- What keeps a path from being resolved. -/
inductive Fault
  /-- A name holds the null character. -/
  | nullCharacter
  deriving DecidableEq, Repr

/-- The wording of a fault. -/
def Fault.message : Fault → String
  | nullCharacter => "embedded null byte"

/-- Tells whether a name holds the null character. -/
def isNullName (name : String) : Bool :=
  name.toList.contains '\x00'

/-- Tells whether a path holds the null character. -/
def hasNull (p : Path) : Bool :=
  p.parts.any isNullName

/-- Resolves a path that is seen from a directory. -/
def resolve (directory : Location) (p : Path) : Except Fault Location :=
  if p.hasNull || (!p.isAbsolute && directory.names.any isNullName) then .error .nullCharacter
  else .ok (p.place directory)

end Path

end ExpectedDiagnostics
