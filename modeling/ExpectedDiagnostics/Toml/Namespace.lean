import ExpectedDiagnostics.Data

/-!
# Names of a TOML document

A document names the same tables from several places: by the headers of its sections, by dotted
names, and inside lists of tables. A `Tree` is what has been read so far, together with which names
may no longer be opened: those of tables that had a header of their own, and all names inside of
values that were written in one piece.
-/

namespace ExpectedDiagnostics.Toml

/-- The fields of a table. -/
abbrev Fields := List (String × Data)

/-- A name with its parts. -/
abbrev Name := List String

/-- Changes the table at a name. Tables on the way that are missing are made, and of a list the
last item is taken, if lists may be entered at all. Nothing comes of it if something other than a
table is on the way, or if the change fails. -/
def changeAt? (throughLists : Bool) (change : Fields → Option Fields) :
    Name → Fields → Option Fields
  | [], fields => change fields
  | part :: name, fields =>
    match Data.field? fields part with
    | none => do
      let inner ← changeAt? throughLists change name []
      return Data.setField fields part (.table inner)
    | some (.table inner) => do
      let inner ← changeAt? throughLists change name inner
      return Data.setField fields part (.table inner)
    | some (.list items) =>
      match throughLists, items.getLast? with
      | true, some (.table inner) => do
        let inner ← changeAt? throughLists change name inner
        return Data.setField fields part (.list (items.dropLast ++ [.table inner]))
      | _, _ => none
    | some _ => none

/-- Adds a field to a table that does not have it yet. -/
def addField? (name : String) (value : Data) (fields : Fields) : Option Fields :=
  if (Data.field? fields name).isSome then none else some (fields ++ [(name, value)])

/-- Adds an empty table to the list in a field, which is made if it is missing. -/
def addTable? (name : String) (fields : Fields) : Option Fields :=
  match Data.field? fields name with
  | none => some (fields ++ [(name, .list [.table []])])
  | some (.list items) => some (Data.setField fields name (.list (items ++ [.table []])))
  | some _ => none

/-- The names of which one is frozen freeze all names inside of it. -/
def isFrozen (frozen : List Name) (name : Name) : Bool :=
  frozen.any fun f => !f.isEmpty && f.isPrefixOf name

/-- What has been read of a document: its fields, the names of values that were written in one
piece, the names of tables that cannot have another header, those that will be such once the
section ends, and the name of the section. -/
structure Tree where
  fields : Fields
  frozen : List Name
  closed : List Name
  pending : List Name
  current : Name

namespace Tree

/-- A document of which nothing has been read. -/
def empty : Tree := ⟨[], [], [], [], []⟩

/-- Ends a section. -/
def endSection (t : Tree) : Tree :=
  { t with closed := t.pending ++ t.closed, pending := [] }

/-- Begins the section of a table. -/
def openTable? (t : Tree) (name : Name) : Option Tree := do
  if t.closed.contains name || isFrozen t.frozen name then none
  let fields ← changeAt? true some name t.fields
  return { t with fields, closed := name :: t.closed, current := name }

/-- Begins the section of another table of a list. The tables inside the one before it can be
opened again. -/
def openItem? (t : Tree) (name : Name) : Option Tree := do
  if isFrozen t.frozen name then none
  let inside (other : Name) : Bool := name.isPrefixOf other
  let fields ← changeAt? true (addTable? (name.getLast?.getD "")) name.dropLast t.fields
  return { t with
    fields
    frozen := t.frozen.filter (!inside ·)
    closed := name :: t.closed.filter (!inside ·)
    current := name }

/-- Tells whether a value is written in one piece, so that nothing can be added to it. -/
def isWhole : Data → Bool
  | .table _ | .list _ => true
  | _ => false

/-- Gives a name of the section a value. -/
def setValue? (t : Tree) (name : Name) (value : Data) : Option Tree := do
  let onTheWay := (List.range (name.length - 1)).map fun i => t.current ++ name.take (i + 1)
  if onTheWay.any t.closed.contains then none
  let parent := t.current ++ name.dropLast
  if isFrozen t.frozen parent then none
  let fields ← changeAt? true (addField? (name.getLast?.getD "") value) parent t.fields
  return { t with
    fields
    frozen := if isWhole value then (t.current ++ name) :: t.frozen else t.frozen
    pending := onTheWay ++ t.pending }

end Tree

end ExpectedDiagnostics.Toml
