import ExpectedDiagnostics.Data

/-!
# Writing JSON

A value as a JSON document in ASCII: characters beyond ASCII are written as escapes of UTF-16 units.
`compact` writes one line; `indented` gives each item and field a line of its own, two columns
further in than the list or table it belongs to. A value that cannot be written is found only when
its turn comes, so the document is there up to this value (`begun`).
-/

namespace ExpectedDiagnostics.Json

/-- The escape of a UTF-16 unit. -/
def unitEscape (n : Nat) : List Char :=
  '\\' :: 'u' :: Text.hex 4 n

/-- A character as it stands in a text of a document. -/
def escapedChar (c : Char) : List Char :=
  if c == '"' || c == '\\' then ['\\', c]
  else if c == '\n' then ['\\', 'n']
  else if c == '\r' then ['\\', 'r']
  else if c == '\t' then ['\\', 't']
  else if c == '\x0c' then ['\\', 'f']
  else if c == '\x08' then ['\\', 'b']
  else if 32 ≤ c.toNat && c.toNat < 127 then [c]
  else if c.toNat ≤ 0xFFFF then unitEscape c.toNat
  else
    let n := c.toNat - 0x10000
    unitEscape (0xD800 + n / 0x400) ++ unitEscape (0xDC00 + n % 0x400)

/-- A piece of a torn text as it stands in a document. -/
def escapedPiece : Text.Piece → List Char
  | .char c => escapedChar c
  | .half unit => unitEscape unit

/-- A text between quotation marks. -/
def writeText (s : String) : String :=
  .ofList ('"' :: s.toList.flatMap escapedChar ++ ['"'])

/-- A torn text between quotation marks. A half is written as the escape of its unit. -/
def writePieces (pieces : List Text.Piece) : String :=
  .ofList ('"' :: pieces.flatMap escapedPiece ++ ['"'])

/-- A double. The numbers that are not finite are written as names. -/
def writeFloat (x : Float) : String :=
  if x.isNaN then "NaN"
  else if x.isInf then if x < 0 then "-Infinity" else "Infinity"
  else Decimal.floatText x

/-- Puts a separator and a line break in front of all parts but the first. -/
def joined (separator : String) : List String → String
  | [] => ""
  | [part] => part
  | part :: parts => part ++ separator ++ joined separator parts

mutual

/-- A value on one line. -/
def compact : Data → String
  | .null => "null"
  | .bool true => "true"
  | .bool false => "false"
  | .int n => toString n
  | .float x => writeFloat x
  | .text s => writeText s
  | .torn pieces => writePieces pieces
  | .moment m => writeText (Data.momentText m)
  | .list items => "[" ++ joined ", " (compactItems items) ++ "]"
  | .table fields => "\x7b" ++ joined ", " (compactFields fields) ++ "\x7d"

/-- The items of a list. -/
def compactItems : List Data → List String
  | [] => []
  | item :: items => compact item :: compactItems items

/-- The fields of a table. -/
def compactFields : List (String × Data) → List String
  | [] => []
  | (name, value) :: fields =>
    (writeText name ++ ": " ++ compact value) :: compactFields fields

end

mutual

/-- Tells whether a document can hold a value. Days and times have no form in JSON. -/
def canWrite : Data → Bool
  | .moment _ => false
  | .list items => canWriteItems items
  | .table fields => canWriteFields fields
  | _ => true

/-- Tells whether a document can hold the items of a list. -/
def canWriteItems : List Data → Bool
  | [] => true
  | item :: items => canWrite item && canWriteItems items

/-- Tells whether a document can hold the fields of a table. -/
def canWriteFields : List (String × Data) → Bool
  | [] => true
  | (_, value) :: fields => canWrite value && canWriteFields fields

end

/-- A line break and the blanks that begin a line inside `depth` lists or tables. -/
def newLine (depth : Nat) : String :=
  "\n" ++ .ofList (List.replicate (2 * depth) ' ')

/-- Puts parts on lines of their own between two brackets. -/
def block (opening closing : String) (depth : Nat) (parts : List String) : String :=
  if parts.isEmpty then opening ++ closing
  else
    opening ++ newLine (depth + 1) ++ joined ("," ++ newLine (depth + 1)) parts ++ newLine depth ++
      closing

mutual

/-- A value that stands inside `depth` lists or tables, on lines of its own. -/
def indentedAt (depth : Nat) : Data → String
  | .list items => block "[" "]" depth (indentedItems (depth + 1) items)
  | .table fields => block "\x7b" "\x7d" depth (indentedFields (depth + 1) fields)
  | value => compact value

/-- The items of a list. -/
def indentedItems (depth : Nat) : List Data → List String
  | [] => []
  | item :: items => indentedAt depth item :: indentedItems depth items

/-- The fields of a table. -/
def indentedFields (depth : Nat) : List (String × Data) → List String
  | [] => []
  | (name, value) :: fields =>
    (writeText name ++ ": " ++ indentedAt depth value) :: indentedFields depth fields

end

/-- A document on several lines. -/
def indented (value : Data) : String :=
  indentedAt 0 value

mutual

/-- A value as far as it can be written, up to the first part of it that has no form in JSON. -/
def begunAt (depth : Nat) : Data → String
  | .moment _ => ""
  | .list items => "[" ++ newLine (depth + 1) ++ begunItems (depth + 1) items
  | .table fields => "\x7b" ++ newLine (depth + 1) ++ begunFields (depth + 1) fields
  | value => compact value

/-- The items of a list, as far as they can be written. -/
def begunItems (depth : Nat) : List Data → String
  | [] => ""
  | item :: items =>
    if canWrite item then
      indentedAt depth item ++ "," ++ newLine depth ++ begunItems depth items
    else begunAt depth item

/-- The fields of a table, as far as they can be written. -/
def begunFields (depth : Nat) : List (String × Data) → String
  | [] => ""
  | (name, value) :: fields =>
    let start := writeText name ++ ": "
    if canWrite value then
      start ++ indentedAt depth value ++ "," ++ newLine depth ++ begunFields depth fields
    else start ++ begunAt depth value

end

/-- What has been written of a document on several lines when a value in it turns out to have no
form in JSON. -/
def begun (value : Data) : String :=
  begunAt 0 value

end ExpectedDiagnostics.Json
