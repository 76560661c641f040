import ExpectedDiagnostics.Data
import ExpectedDiagnostics.Decimal.Nearest

/-!
# Reading JSON

The reader takes what the format allows and three names besides: `NaN`, `Infinity` and `-Infinity`.
It stops at the first character that cannot stand where it is, and tells what it expected there.

A reading step is given the characters that are left and the number of characters before them. It
gives what it read, the characters left then, and how many came before those.
-/

namespace ExpectedDiagnostics.Json

/-- What is wrong with a text that is no JSON document. -/
inductive Complaint
  | byteOrderMark
  | value
  | propertyName
  | colon
  | comma
  | extraData
  | unterminatedString
  | controlCharacter
  | escape
  | unicodeEscape
  deriving DecidableEq, Repr

/-- The wording of a complaint. -/
def Complaint.message : Complaint → String
  | byteOrderMark => "Unexpected UTF-8 BOM (decode using utf-8-sig)"
  | value => "Expecting value"
  | propertyName => "Expecting property name enclosed in double quotes"
  | colon => "Expecting ':' delimiter"
  | comma => "Expecting ',' delimiter"
  | extraData => "Extra data"
  | unterminatedString => "Unterminated string starting at"
  | controlCharacter => "Invalid control character at"
  | escape => "Invalid \\escape"
  | unicodeEscape => "Invalid \\uXXXX escape"

/-- A complaint and the number of characters before the place where it arose. -/
structure Fault where
  complaint : Complaint
  position : Nat
  deriving DecidableEq, Repr

/-- The wording of a fault. Lines and columns are counted from one. -/
def Fault.message (source : List Char) (f : Fault) : String :=
  let before := source.take f.position
  let line := before.count '\n' + 1
  let column := (before.reverse.takeWhile (· != '\n')).length + 1
  f.complaint.message ++ ": line " ++ toString line ++ " column " ++ toString column ++
    " (char " ++ toString f.position ++ ")"

/-- Blanks of the format. -/
def isBlank (c : Char) : Bool :=
  c == ' ' || c == '\t' || c == '\n' || c == '\r'

/-- Drops blanks. -/
def skipBlanks (cs : List Char) (pos : Nat) : List Char × Nat :=
  (cs.dropWhile isBlank, pos + (cs.takeWhile isBlank).length)

/-- The value of a hexadecimal digit. -/
def hexValue? (c : Char) : Option Nat :=
  if '0' ≤ c && c ≤ '9' then some (c.toNat - '0'.toNat)
  else if 'a' ≤ c && c ≤ 'f' then some (c.toNat - 'a'.toNat + 10)
  else if 'A' ≤ c && c ≤ 'F' then some (c.toNat - 'A'.toNat + 10)
  else none

/-- The number that four hexadecimal digits write. -/
def hex4? (a b c d : Char) : Option Nat := do
  let a ← hexValue? a
  let b ← hexValue? b
  let c ← hexValue? c
  let d ← hexValue? d
  some (((a * 16 + b) * 16 + c) * 16 + d)

/-- The character that a backslash and another character stand for. -/
def shortEscape? : Char → Option Char
  | '"' => some '"'
  | '\\' => some '\\'
  | '/' => some '/'
  | 'b' => some '\x08'
  | 'f' => some '\x0c'
  | 'n' => some '\n'
  | 'r' => some '\r'
  | 't' => some '\t'
  | _ => none

/-- Reads the text after an opening quotation mark, up to the closing one, piece by piece.
`start` is the place of the opening mark. -/
def readText (start : Nat) :
    Nat → List Char → Nat → List Text.Piece → Except Fault (List Text.Piece × List Char × Nat)
  | 0, _, _, _ => .error ⟨.unterminatedString, start⟩
  | _ + 1, [], _, _ => .error ⟨.unterminatedString, start⟩
  | fuel + 1, c :: cs, pos, done =>
    if c == '"' then .ok (done.reverse, cs, pos + 1)
    else if c == '\\' then
      match cs with
      | [] => .error ⟨.unterminatedString, start⟩
      | 'u' :: rest =>
        match rest with
        | a :: b :: d :: e :: after =>
          match after.isEmpty, hex4? a b d e with
          | false, some unit =>
            if 0xD800 ≤ unit && unit ≤ 0xDBFF then
              -- a high surrogate: the low one has to follow as an escape of its own
              match after with
              | '\\' :: 'u' :: h :: i :: j :: k :: last =>
                if last.isEmpty then readText start fuel after (pos + 6) (.half unit :: done)
                else
                  match hex4? h i j k with
                  | none => .error ⟨.unicodeEscape, pos + 7⟩
                  | some low =>
                    if 0xDC00 ≤ low && low ≤ 0xDFFF then
                      let n := 0x10000 + (unit - 0xD800) * 0x400 + (low - 0xDC00)
                      readText start fuel last (pos + 12) (.char (Char.ofNat n) :: done)
                    else readText start fuel after (pos + 6) (.half unit :: done)
              | _ => readText start fuel after (pos + 6) (.half unit :: done)
            else if 0xDC00 ≤ unit && unit ≤ 0xDFFF then
              readText start fuel after (pos + 6) (.half unit :: done)
            else readText start fuel after (pos + 6) (.char (Char.ofNat unit) :: done)
          | _, _ => .error ⟨.unicodeEscape, pos + 1⟩
        | _ => .error ⟨.unicodeEscape, pos + 1⟩
      | d :: rest =>
        match shortEscape? d with
        | some e => readText start fuel rest (pos + 2) (.char e :: done)
        | none => .error ⟨.escape, pos⟩
    else if c.toNat ≤ 0x1F then .error ⟨.controlCharacter, pos⟩
    else readText start fuel cs (pos + 1) (.char c :: done)

/-- Reads a number. A point without a digit after it, and an exponent mark without digits, do not
belong to the number. -/
def readNumber (source : List Char) (start : Nat) : Except Fault (Data × List Char × Nat) :=
  let (negative, cs) := match source with
    | '-' :: cs => (true, cs)
    | cs => (false, cs)
  let whole := match cs with
    | '0' :: _ => ['0']
    | cs => cs.takeWhile Decimal.isDigit
  if whole.isEmpty then .error ⟨.value, start⟩
  else
    let rest := cs.drop whole.length
    let fraction := match rest with
      | '.' :: ds => ds.takeWhile Decimal.isDigit
      | _ => []
    let rest := if fraction.isEmpty then rest else rest.drop (fraction.length + 1)
    let (exponentSign, marks, exponent) := match rest with
      | e :: tail =>
        if e == 'e' || e == 'E' then
          match tail with
          | '-' :: ds => (true, 2, ds.takeWhile Decimal.isDigit)
          | '+' :: ds => (false, 2, ds.takeWhile Decimal.isDigit)
          | ds => (false, 1, ds.takeWhile Decimal.isDigit)
        else (false, 0, [])
      | [] => (false, 0, [])
    let rest := if exponent.isEmpty then rest else rest.drop (marks + exponent.length)
    let pos := start + (source.length - rest.length)
    if fraction.isEmpty && exponent.isEmpty then
      let n : Int := Decimal.ofDigits whole
      .ok (.int (if negative then -n else n), rest, pos)
    else
      let power : Int := Decimal.ofDigits exponent
      let power := if exponentSign then -power else power
      .ok (.float (Decimal.nearest negative whole fraction power), rest, pos)

/-- Reads a name such as `true` if the text begins with it. -/
def readName? (name : String) (value : Data) (cs : List Char) (pos : Nat) :
    Option (Data × List Char × Nat) :=
  if name.toList.isPrefixOf cs then some (value, cs.drop name.length, pos + name.length) else none

/-- The names that stand for values. -/
def names : List (String × Data) :=
  [("null", .null), ("true", .bool true), ("false", .bool false), ("NaN", .float (0.0 / 0.0)),
   ("Infinity", .float (1.0 / 0.0)), ("-Infinity", .float (-1.0 / 0.0))]

mutual

/-- Reads a value. -/
def readValue : Nat → List Char → Nat → Except Fault (Data × List Char × Nat)
  | 0, _, pos => .error ⟨.value, pos⟩
  | fuel + 1, cs, pos =>
    match cs with
    | '"' :: rest => do
      let (pieces, rest, pos) ← readText pos (rest.length + 1) rest (pos + 1) []
      return (.ofPieces pieces, rest, pos)
    | '\x7b' :: rest =>
      let (rest, pos) := skipBlanks rest (pos + 1)
      match rest with
      | '\x7d' :: rest => .ok (.table [], rest, pos + 1)
      | _ => readFields fuel rest pos []
    | '[' :: rest =>
      let (rest, pos) := skipBlanks rest (pos + 1)
      match rest with
      | ']' :: rest => .ok (.list [], rest, pos + 1)
      | _ => readItems fuel rest pos []
    | _ =>
      match names.findSome? fun name => readName? name.1 name.2 cs pos with
      | some read => .ok read
      | none => readNumber cs pos

/-- Reads the items of a list up to its closing bracket. -/
def readItems : Nat → List Char → Nat → List Data → Except Fault (Data × List Char × Nat)
  | 0, _, pos, _ => .error ⟨.value, pos⟩
  | fuel + 1, cs, pos, done => do
    let (item, rest, pos) ← readValue fuel cs pos
    let (rest, pos) := skipBlanks rest pos
    match rest with
    | ']' :: rest => return (.list (done ++ [item]), rest, pos + 1)
    | ',' :: rest =>
      let (rest, pos) := skipBlanks rest (pos + 1)
      readItems fuel rest pos (done ++ [item])
    | _ => throw ⟨.comma, pos⟩

/-- Reads the fields of a table up to its closing brace. -/
def readFields :
    Nat → List Char → Nat → List (String × Data) → Except Fault (Data × List Char × Nat)
  | 0, _, pos, _ => .error ⟨.value, pos⟩
  | fuel + 1, cs, pos, done =>
    match cs with
    | '"' :: rest => do
      let (name, rest, pos) ← readText pos (rest.length + 1) rest (pos + 1) []
      let (rest, pos) := skipBlanks rest pos
      match rest with
      | ':' :: rest =>
        let (rest, pos) := skipBlanks rest (pos + 1)
        let (value, rest, pos) ← readValue fuel rest pos
        let (rest, pos) := skipBlanks rest pos
        let done := Data.setField done (Text.shownPieces name) value
        match rest with
        | '\x7d' :: rest => return (.table done, rest, pos + 1)
        | ',' :: rest =>
          let (rest, pos) := skipBlanks rest (pos + 1)
          readFields fuel rest pos done
        | _ => throw ⟨.comma, pos⟩
      | _ => throw ⟨.colon, pos⟩
    | _ => .error ⟨.propertyName, pos⟩

end

/-- Reads a document: one value, with blanks around it. -/
def read (source : List Char) : Except Fault Data :=
  match source with
  | '\uFEFF' :: _ => .error ⟨.byteOrderMark, 0⟩
  | _ => do
    let (rest, pos) := skipBlanks source 0
    let (value, rest, pos) ← readValue (2 * source.length + 2) rest pos
    let (rest, pos) := skipBlanks rest pos
    if rest.isEmpty then return value else throw ⟨.extraData, pos⟩

end ExpectedDiagnostics.Json
