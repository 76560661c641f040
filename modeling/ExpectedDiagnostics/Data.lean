import ExpectedDiagnostics.Decimal.FloatText
import ExpectedDiagnostics.Text.Torn

/-!
# Data

The values that documents hold, whichever format they are written in: settings files, diagnostics
files and the answers of the program. A table keeps its fields in the order in which their names
first came; a later value for the same name takes the place of the earlier one.

A text with halves of UTF-16 pairs is no `String`, so it is a kind of its own (`torn`). The names of
fields are always shown.

A value has two texts: `quoted` shows what it is, with texts between quotation marks, and `display`
is the same except that a text on its own stands as it is.
-/

namespace ExpectedDiagnostics

/-- A day of the calendar. -/
structure Day where
  year : Nat
  month : Nat
  day : Nat
  deriving DecidableEq, Repr

/-- A time of the day. -/
structure Clock where
  hour : Nat
  minute : Nat
  second : Nat
  microsecond : Nat
  deriving DecidableEq, Repr

/-- A day, a time, or both; a day with a time may say how many minutes its clock is ahead of the
standard time. -/
inductive Moment
  | day (d : Day)
  | clock (c : Clock)
  | dayAndClock (d : Day) (c : Clock) (offsetMinutes : Option Int)
  deriving DecidableEq, Repr

/-- A value of a document. -/
inductive Data
  | null
  | bool (b : Bool)
  | int (n : Int)
  | float (x : Float)
  | text (s : String)
  | torn (pieces : Text.Torn)
  | moment (m : Moment)
  | list (items : List Data)
  | table (fields : List (String × Data))
  deriving Inhabited

namespace Data

/-- The value of a text that may have halves: it is only torn if it has one. -/
def ofPieces (pieces : Text.Torn) : Data :=
  if pieces.any Text.Piece.isHalf then torn pieces else text (Text.shownPieces pieces)

/-- The text that a value is. -/
def pieces? : Data → Option Text.Torn
  | text s => some (Text.piecesOf s)
  | torn pieces => some pieces
  | _ => none

/-- The value of a field of a table. -/
def field? (fields : List (String × Data)) (name : String) : Option Data :=
  fields.lookup name

/-- Gives a field a value: in its old place if the table has the field, at the end otherwise. -/
def setField (fields : List (String × Data)) (name : String) (value : Data) :
    List (String × Data) :=
  if fields.any (·.1 == name) then
    fields.map fun f => if f.1 == name then (name, value) else f
  else fields ++ [(name, value)]

/-- Sets all fields of the second table in the first one. -/
def update (fields changes : List (String × Data)) : List (String × Data) :=
  changes.foldl (fun all f => setField all f.1 f.2) fields

/-- Tells whether a value counts as nothing: no value, false, zero, or empty. -/
def isFalsy : Data → Bool
  | null => true
  | bool b => !b
  | int n => n == 0
  | float x => x == 0.0
  | text s => s.isEmpty
  | torn pieces => pieces.isEmpty
  | moment _ => false
  | list items => items.isEmpty
  | table fields => fields.isEmpty

/-- The name of the kind of a day or time. -/
def momentKindName : Moment → String
  | .day _ => "date"
  | .clock _ => "time"
  | .dayAndClock .. => "datetime"

/-- The name of the kind of a value. -/
def kindName : Data → String
  | null => "NoneType"
  | bool _ => "bool"
  | int _ => "int"
  | float _ => "float"
  | text _ | torn _ => "str"
  | moment m => "datetime." ++ momentKindName m
  | list _ => "list"
  | table _ => "dict"

mutual

/-- The days and times in a value, in the order in which they are written. -/
def moments : Data → List Moment
  | moment m => [m]
  | list items => momentsOfItems items
  | table fields => momentsOfFields fields
  | _ => []

/-- The days and times in the items of a list. -/
def momentsOfItems : List Data → List Moment
  | [] => []
  | item :: items => moments item ++ momentsOfItems items

/-- The days and times in the fields of a table. -/
def momentsOfFields : List (String × Data) → List Moment
  | [] => []
  | (_, value) :: fields => moments value ++ momentsOfFields fields

end

/-- The length of time between a clock and the standard time. -/
private def offsetText (minutes : Int) : String :=
  if minutes == 0 then "datetime.timezone.utc"
  else if minutes < 0 then
    "datetime.timezone(datetime.timedelta(days=-1, seconds=" ++ toString (86400 + minutes * 60) ++
      "))"
  else "datetime.timezone(datetime.timedelta(seconds=" ++ toString (minutes * 60) ++ "))"

/-- The numbers of a clock that are written: the hour and the minute always, the second and the
microsecond only up to the last one that is not zero. -/
private def clockNumbers (c : Clock) : List Nat :=
  if c.microsecond != 0 then [c.hour, c.minute, c.second, c.microsecond]
  else if c.second != 0 then [c.hour, c.minute, c.second]
  else [c.hour, c.minute]

private def numbersText (ns : List Nat) : String :=
  String.intercalate ", " (ns.map toString)

/-- The text of a day or time. -/
def momentText : Moment → String
  | .day d => "datetime.date(" ++ numbersText [d.year, d.month, d.day] ++ ")"
  | .clock c => "datetime.time(" ++ numbersText (clockNumbers c) ++ ")"
  | .dayAndClock d c offset =>
    let zone := match offset with
      | none => ""
      | some minutes => ", tzinfo=" ++ offsetText minutes
    "datetime.datetime(" ++ numbersText ([d.year, d.month, d.day] ++ clockNumbers c) ++ zone ++ ")"

mutual

/-- The text of a value, with texts between quotation marks. -/
def quoted : Data → String
  | null => "None"
  | bool true => "True"
  | bool false => "False"
  | int n => toString n
  | float x => Decimal.floatText x
  | text s => Text.quote s
  | torn pieces => Text.quotePieces pieces
  | moment m => momentText m
  | list items => "[" ++ quotedItems items ++ "]"
  | table fields => "\x7b" ++ quotedFields fields ++ "\x7d"

/-- The items of a list, with commas between them. -/
def quotedItems : List Data → String
  | [] => ""
  | [item] => quoted item
  | item :: items => quoted item ++ ", " ++ quotedItems items

/-- The fields of a table, with commas between them. -/
def quotedFields : List (String × Data) → String
  | [] => ""
  | [(name, value)] => Text.quote name ++ ": " ++ quoted value
  | (name, value) :: fields =>
    Text.quote name ++ ": " ++ quoted value ++ ", " ++ quotedFields fields

end

/-- The text of a value; a text stands as it is. -/
def display : Data → String
  | text s => s
  | torn pieces => Text.shownPieces pieces
  | value => value.quoted

end Data

end ExpectedDiagnostics
