import ExpectedDiagnostics.Data
import ExpectedDiagnostics.Decimal.Nearest
import ExpectedDiagnostics.Json.Reader

/-!
# Numbers of a TOML document

Integers in four bases and floating-point numbers. A single underscore may stand between two
digits. What follows a number is not looked at.
-/

namespace ExpectedDiagnostics.Toml

/-- The digits at the front of a text, with single underscores between them, and the rest. The
underscores are left out. -/
def digits (isDigit : Char → Bool) : List Char → List Char × List Char
  | [] => ([], [])
  | [c] => if isDigit c then ([c], []) else ([], [c])
  | c :: d :: cs =>
    if !isDigit c then ([], c :: d :: cs)
    else if d == '_' then
      match cs with
      | e :: _ =>
        if isDigit e then
          let (ds, rest) := digits isDigit cs
          (c :: ds, rest)
        else ([c], d :: cs)
      | [] => ([c], [d])
    else
      let (ds, rest) := digits isDigit (d :: cs)
      (c :: ds, rest)

/-- The number that digits write in a base. -/
def inBase (base : Nat) (ds : List Char) : Nat :=
  ds.foldl (fun n d => base * n + (Json.hexValue? d).getD 0) 0

/-- Reads an integer with the mark of its base. -/
def basedInteger? (cs : List Char) : Option (Nat × List Char) :=
  let read (base : Nat) (cs : List Char) : Option (Nat × List Char) :=
    match digits (fun c => (Json.hexValue? c).any (· < base)) cs with
    | ([], _) => none
    | (ds, rest) => some (inBase base ds, rest)
  match cs with
  | '0' :: 'x' :: cs => read 16 cs
  | '0' :: 'b' :: cs => read 2 cs
  | '0' :: 'o' :: cs => read 8 cs
  | _ => none

/-- Reads the digits before the point: a zero alone, or digits that begin with another one. -/
def whole? : List Char → Option (List Char × List Char)
  | '0' :: cs => some (['0'], cs)
  | cs =>
    match digits Decimal.isDigit cs with
    | ([], _) => none
    | (ds, rest) => some (ds, rest)

/-- Reads a point and the digits after it. -/
def fraction? : List Char → Option (List Char × List Char)
  | '.' :: cs =>
    match digits Decimal.isDigit cs with
    | ([], _) => none
    | (ds, rest) => some (ds, rest)
  | _ => none

/-- Reads the mark of an exponent, its sign and its digits. -/
def exponent? : List Char → Option (Int × List Char)
  | e :: cs =>
    if e == 'e' || e == 'E' then
      let (negative, cs) := match cs with
        | '-' :: cs => (true, cs)
        | '+' :: cs => (false, cs)
        | cs => (false, cs)
      match digits Decimal.isDigit cs with
      | ([], _) => none
      | (ds, rest) =>
        let n : Int := Decimal.ofDigits ds
        some (if negative then -n else n, rest)
    else none
  | [] => none

/-- Reads a decimal number. It is a floating-point number if it has a point or an exponent. -/
def decimal? (negative : Bool) (cs : List Char) : Option (Data × List Char) := do
  let (whole, cs) ← whole? cs
  let afterFraction := fraction? cs
  let (fraction, cs) := afterFraction.getD ([], cs)
  let afterExponent := exponent? cs
  let (exponent, cs) := afterExponent.getD (0, cs)
  if afterFraction.isSome || afterExponent.isSome then
    return (.float (Decimal.nearest negative whole fraction exponent), cs)
  let n : Int := Decimal.ofDigits whole
  return (.int (if negative then -n else n), cs)

/-- Reads the names of what is no finite number. -/
def special? (negative : Bool) : List Char → Option (Data × List Char)
  | 'i' :: 'n' :: 'f' :: cs => some (.float (if negative then -1.0 / 0.0 else 1.0 / 0.0), cs)
  | 'n' :: 'a' :: 'n' :: cs => some (.float (0.0 / 0.0), cs)
  | _ => none

/-- Reads a number. -/
def number? (cs : List Char) : Option (Data × List Char) :=
  match basedInteger? cs with
  | some (n, rest) => some (.int n, rest)
  | none =>
    let (negative, cs) := match cs with
      | '-' :: cs => (true, cs)
      | '+' :: cs => (false, cs)
      | cs => (false, cs)
    (decimal? negative cs).or (special? negative cs)

end ExpectedDiagnostics.Toml
