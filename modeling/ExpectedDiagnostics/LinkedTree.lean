import ExpectedDiagnostics.Disk

/-!
# Trees with links

A file tree in which links stand as well. A link holds a path, and whoever comes to it goes on from
the directory it stands in, or from the root. Most of what is asked of the tree follows every link;
what removes a file and what makes one for the program alone take the last name as it is, so that it
is the link itself that they find.

A link may lead nowhere. Then nothing is found by its name, although the name is taken, and what is
written by its name is written to where it leads.
-/

namespace ExpectedDiagnostics

/-- A file tree with links, each at its place and with the path that it holds. -/
structure LinkedTree extends FileTree where
  links : List (Location × Path)

namespace LinkedTree

/-! ## Following links -/

/-- The link that stands at a place. -/
def link? (t : LinkedTree) (place : Location) : Option Path :=
  t.links.lookup place

/-- The link that a name leads to from a directory. -/
def linkBy? (t : LinkedTree) (here : Location) (name : String) : Option Path :=
  if name == ".." then none else t.link? (here.step name)

/-- Where a link leads from: the root, or the directory that it stands in. -/
def startOf (place : Location) (target : Path) : Location :=
  if target.isAbsolute then .root else place.parent

/-- How far names lead: to a place, or to a link in front of more names. -/
inductive Leg
  | arrived (place : Location)
  | link (place : Location) (target : Path) (rest : List String)
  deriving DecidableEq, Repr

/-- The link that the first one of some names leads to. The last name is only asked for a link if
the end is followed as well. -/
def linkAhead? (t : LinkedTree) (followsEnd : Bool) (here : Location) (name : String)
    (names : List String) : Option Path :=
  if names.isEmpty && !followsEnd then none else t.linkBy? here name

/-- Goes along names up to the first link. -/
def leg (t : LinkedTree) (followsEnd : Bool) (here : Location) :
    List String → Except FileTree.Cause Leg
  | [] => .ok (.arrived here)
  | name :: names =>
    match t.entry? here with
    | some .directory =>
      -- a name that is too long is not even looked for, so it does not matter what is there
      if FileTree.nameLimit < name.utf8ByteSize then .error .tooLong
      else
        match t.linkAhead? followsEnd here name names with
        | some target => .ok (.link (here.step name) target names)
        | none => t.leg followsEnd (here.step name) names
    | some (.file _) => .error .notDirectory
    | none => .error .missing

/-- The place that names lead to, if no more than some links are on the way. -/
def walk (t : LinkedTree) (followsEnd : Bool) (links : Nat) (here : Location)
    (names : List String) : Except FileTree.Cause Location :=
  match t.leg followsEnd here names with
  | .error cause => .error cause
  | .ok (.arrived place) => .ok place
  | .ok (.link place target rest) =>
    -- links may lead round in a circle, so they are counted, those within links as well
    match links with
    | 0 => .error .manyLinks
    | links + 1 => t.walk followsEnd links (startOf place target) (target.parts ++ rest)

/-- The number of links that can be on the way. -/
def linkLimit : Nat := 40

/-- The place that the path of a place leads to. -/
def locate (t : LinkedTree) (followsEnd : Bool) (place : Location) :
    Except FileTree.Cause Location :=
  if FileTree.pathLimit < place.toPath.toString.utf8ByteSize then .error .tooLong
  else t.walk followsEnd linkLimit .root place.names

/-! ## Resolving -/

/-- Goes one name on, from a place that links lead to or from one behind a link that leads back to
itself. What is missing is gone to all the same. A link is replaced by where it leads, which the
second argument finds out, unless this is what is being found out already. -/
def stepReal (t : LinkedTree) (seen : List Location)
    (follow : List Location → Location → List String → Location × Bool) :
    Location × Bool → String → Location × Bool
  -- behind a link that leads back to itself, names are only written down
  | (here, false), name => (here.step name, false)
  | (here, true), name =>
    match if t.hasDirectory here then t.linkBy? here name else none with
    | none => (here.step name, true)
    | some target =>
      if seen.contains (here.step name) then (here.step name, false)
      else follow (here.step name :: seen) (startOf (here.step name) target) target.parts

/-- The place that names lead to once every link is replaced, links within links up to a depth, and
whether no link was met that leads back to itself. What is behind such a link is left as it is
written. -/
def real (t : LinkedTree) : Nat → List Location → Location → List String → Location × Bool
  | 0, seen, here, names =>
    names.foldl (t.stepReal seen fun _ start _ => (start, false)) (here, true)
  | depth + 1, seen, here, names => names.foldl (t.stepReal seen (t.real depth)) (here, true)

/-- Resolves a path that is seen from a directory. Links within links are not more than there are
links, because none of them is met again on the way to where it leads. -/
def resolve (t : LinkedTree) (directory : Location) (p : Path) : Except Failure Location :=
  if p.hasNull || (!p.isAbsolute && directory.names.any Path.isNullName) then
    .error (.unresolved .nullCharacter)
  else
    let names := if p.isAbsolute then p.parts else directory.names ++ p.parts
    let (place, _) := t.real t.links.length [] .root names
    -- a link that leads back to itself is still there, and is told when the place is asked for
    match t.locate true place with
    | .error .manyLinks => .error (.linkLoop place.toPath)
    | _ => .ok place

/-! ## Files -/

/-- What the path of a place leads to in the end. A path that leads nowhere is no fault, unless it
is too long to tell. -/
def find? (t : LinkedTree) (place : Location) : Except Failure (Option FileTree.Entry) :=
  if place.toPath.hasNull then .ok none
  else
    match t.locate true place with
    | .ok found => .ok (t.entry? found)
    | .error .tooLong => .error (.file ⟨.tooLong, place.toPath⟩)
    -- nothing is there, a file is in the way, or the links lead round in a circle
    | .error _ => .ok none

/-- The octets of the file that the path of a place leads to. -/
def readOctets (t : LinkedTree) (place : Location) : Except Failure (List UInt8) :=
  if place.toPath.hasNull then .error (.unresolved .nullCharacter)
  else
    match t.locate true place with
    | .error cause => .error (.file ⟨cause, place.toPath⟩)
    | .ok found =>
      match t.entry? found with
      | some (.file content) => .ok content
      | some .directory => .error (.file ⟨.isDirectory, place.toPath⟩)
      | none => .error (.file ⟨.missing, place.toPath⟩)

/-- The text of the file that the path of a place leads to. -/
def readText (t : LinkedTree) (place : Location) : Except Failure (List Char) := do
  let octets ← t.readOctets place
  (Workspace.textOf octets).mapError .encoding

/-- Puts a file at a place. -/
def put (t : LinkedTree) (place : Location) (content : List UInt8) : LinkedTree :=
  { t with toFileTree := t.toFileTree.write place content }

/-- Writes the file that the path of a place leads to in the end. -/
def write (t : LinkedTree) (place : Location) (content : List UInt8) : Except Failure LinkedTree :=
  if place.toPath.hasNull then .error (.unresolved .nullCharacter)
  else
    match t.locate true place with
    | .error cause => .error (.file ⟨cause, place.toPath⟩)
    | .ok found =>
      match t.entry? found with
      | some .directory => .error (.file ⟨.isDirectory, place.toPath⟩)
      -- a file is written over, and one that a dead link leads to is made
      | _ => .ok (t.put found content)

/-- Tells whether nothing stands at a place: no link either. -/
def isFreeAt (t : LinkedTree) (place : Location) : Bool :=
  (t.entry? place).isNone && (t.link? place).isNone

/-- Tells whether nothing stands where the path of a place leads. -/
def isFree (t : LinkedTree) (place : Location) : Bool :=
  match t.locate false place with
  | .ok found => t.isFreeAt found
  -- no path leads there, so nothing stands in the way; that the way is missing is told elsewhere
  | .error _ => true

/-- Makes a file where the path of a place leads. -/
def create (t : LinkedTree) (place : Location) (content : List UInt8) : LinkedTree :=
  match t.locate false place with
  | .ok found => t.put found content
  | .error _ => t

/-- Removes the link or the file that stands where the path of a place leads. -/
def remove (t : LinkedTree) (place : Location) : LinkedTree :=
  match t.locate false place with
  | .ok found =>
    if (t.link? found).isSome then { t with links := t.links.filter (·.1 != found) }
    else { t with toFileTree := t.toFileTree.remove found }
  | .error _ => t

/-- A tree with links is a disk: names are followed through its links. -/
instance : Disk LinkedTree where
  resolve := resolve
  readText := readText
  find? := find?
  write := write
  isFree := isFree
  reach t place :=
    match t.locate false place with
    | .ok _ => .ok ()
    | .error cause => .error (.file ⟨cause, place.toPath⟩)
  create := create
  remove := remove
  size t := t.files.length + t.directories.length + t.links.length

@[simp]
theorem disk_reach (t : LinkedTree) (place : Location) :
    Disk.reach t place =
      match t.locate false place with
      | .ok _ => .ok ()
      | .error cause => .error (.file ⟨cause, place.toPath⟩) := rfl

end LinkedTree

end ExpectedDiagnostics
