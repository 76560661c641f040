import ExpectedDiagnostics.Toml.Moment
import ExpectedDiagnostics.Toml.Namespace
import ExpectedDiagnostics.Toml.Number
import ExpectedDiagnostics.Toml.Text

/-!
# Reading TOML

The table that a TOML document writes. Only whether a text is a document, and which table it
writes, can be asked for; what is wrong with other texts is not told.
-/

namespace ExpectedDiagnostics.Toml

/-! ## Names -/

/-- Tells whether a character may stand in a name without quotes. -/
def isNameChar (c : Char) : Bool :=
  c.isAlphanum || c == '-' || c == '_'

/-- Reads one part of a name. -/
def namePart? (cs : List Char) : Option (String × List Char) :=
  match cs.takeWhile isNameChar with
  | [] => (lineText? cs).map fun (text, rest) => (.ofList text, rest)
  | part => some (.ofList part, cs.dropWhile isNameChar)

/-- Reads the parts of a name after the first one, at most `fuel` parts. -/
def nameRest? : Nat → List Char → Option (Name × List Char)
  | 0, cs => some ([], cs)
  | fuel + 1, cs =>
    match skipBlanks cs with
    | '.' :: cs => do
      let (part, cs) ← namePart? (skipBlanks cs)
      let (parts, cs) ← nameRest? fuel cs
      return (part :: parts, cs)
    | cs => some ([], cs)

/-- Reads a name. -/
def name? (cs : List Char) : Option (Name × List Char) := do
  let (part, cs) ← namePart? cs
  let (parts, cs) ← nameRest? cs.length cs
  return (part :: parts, cs)

/-- Reads a name and the equals sign after it. -/
def nameAndSign? (cs : List Char) : Option (Name × List Char) := do
  let (name, cs) ← name? cs
  let cs ← skip? '=' cs
  return (name, skipBlanks cs)

/-! ## Values -/

/-- The fields of a table that is written in one piece, with one more field. -/
def addInline? (fields : Fields) (frozen : List Name) (name : Name) (value : Data) :
    Option (Fields × List Name) := do
  if isFrozen frozen name then none
  let fields ← changeAt? false (addField? (name.getLast?.getD "") value) name.dropLast fields
  return (fields, if Tree.isWhole value then name :: frozen else frozen)

mutual

/-- Reads a value. -/
def value? : Nat → List Char → Option (Data × List Char)
  | 0, _ => none
  | fuel + 1, cs =>
    match cs with
    | '[' :: cs => do
      let cs ← skipLines? cs.length cs
      match cs with
      | ']' :: cs => return (.list [], cs)
      | cs => items? fuel cs []
    | '\x7b' :: cs =>
      match skipBlanks cs with
      | '\x7d' :: cs => some (.table [], cs)
      | cs => inlineFields? fuel cs [] []
    | 't' :: 'r' :: 'u' :: 'e' :: cs => some (.bool true, cs)
    | 'f' :: 'a' :: 'l' :: 's' :: 'e' :: cs => some (.bool false, cs)
    | c :: _ =>
      if c == singleQuote || c == doubleQuote then
        (text? cs).map fun (text, rest) => (.text (.ofList text), rest)
      else
        match moment? cs with
        | some none => none
        | some (some (m, rest)) => some (.moment m, rest)
        | none => number? cs
    | [] => none

/-- Reads the items of a list after those that have been read, which are given in reverse. -/
def items? : Nat → List Char → List Data → Option (Data × List Char)
  | 0, _, _ => none
  | fuel + 1, cs, done => do
    let (item, cs) ← value? fuel cs
    let cs ← skipLines? cs.length cs
    match cs with
    | ']' :: cs => return (.list (item :: done).reverse, cs)
    | ',' :: cs =>
      let cs ← skipLines? cs.length cs
      match cs with
      | ']' :: cs => return (.list (item :: done).reverse, cs)
      | cs => items? fuel cs (item :: done)
    | _ => none

/-- Reads the fields of a table that is written in one piece, after those that have been read. -/
def inlineFields? : Nat → List Char → Fields → List Name → Option (Data × List Char)
  | 0, _, _, _ => none
  | fuel + 1, cs, fields, frozen => do
    let (name, cs) ← nameAndSign? cs
    let (value, cs) ← value? fuel cs
    let (fields, frozen) ← addInline? fields frozen name value
    match skipBlanks cs with
    | '\x7d' :: cs => return (.table fields, cs)
    | ',' :: cs => inlineFields? fuel (skipBlanks cs) fields frozen
    | _ => none

end

/-! ## Documents -/

/-- Reads the header of a section. -/
def header? (t : Tree) (cs : List Char) : Option (Tree × List Char) :=
  match cs with
  | '[' :: '[' :: cs => do
    let (name, cs) ← name? (skipBlanks cs)
    let t ← t.endSection.openItem? name
    let cs ← skip? ']' cs
    let cs ← skip? ']' cs
    return (t, cs)
  | '[' :: cs => do
    let (name, cs) ← name? (skipBlanks cs)
    let t ← t.endSection.openTable? name
    let cs ← skip? ']' cs
    return (t, cs)
  | _ => none

/-- Reads a field of a section. -/
def field? (t : Tree) (cs : List Char) : Option (Tree × List Char) := do
  let (name, cs) ← nameAndSign? cs
  let (value, cs) ← value? (2 * cs.length + 2) cs
  let t ← t.setValue? name value
  return (t, cs)

/-- Reads what stands on a line before its comment. -/
def statement? (t : Tree) (cs : List Char) : Option (Tree × List Char) :=
  match cs with
  | [] => some (t, cs)
  | c :: _ =>
    if c == '\n' || c == '#' then some (t, cs)
    else if c == '[' then header? t cs
    else if isNameChar c || c == singleQuote || c == doubleQuote then field? t cs
    else none

/-- Reads the lines of a document, at most `fuel` of them. -/
def lines? : Nat → Tree → List Char → Option Tree
  | 0, t, _ => some t
  | fuel + 1, t, cs => do
    let (t, cs) ← statement? t (skipBlanks cs)
    let cs ← skipComment? (skipBlanks cs)
    match cs with
    | [] => return t
    | '\n' :: cs => lines? fuel t cs
    | _ => none

/-- Writes a carriage return and a line feed as a line feed. -/
def unifyEnds : List Char → List Char
  | '\r' :: '\n' :: cs => '\n' :: unifyEnds cs
  | c :: cs => c :: unifyEnds cs
  | [] => []

/-- The table that a document writes. -/
def read? (cs : List Char) : Option Fields :=
  let cs := unifyEnds cs
  (lines? (cs.length + 1) .empty cs).map Tree.fields

end ExpectedDiagnostics.Toml
