import ExpectedDiagnostics.Text.Blank
import ExpectedDiagnostics.Text.Digit

/-!
# Numerals

Reading an integer that a person typed: blanks around it, one sign, decimal digits of any script,
and single underscores between digits.
-/

namespace ExpectedDiagnostics.Text

/-- Tells whether a blank may stand around an integer. The information separators may not. -/
def isNumeralBlank (c : Char) : Bool :=
  isBlank c && !(28 ≤ c.toNat && c.toNat ≤ 31)

/-- The digits of a numeral, without the underscores between them. -/
def numeralDigits? : List Char → Option (List Char)
  | [] => none
  | [d] => if isDigit d then some [d] else none
  | d :: '_' :: cs => if isDigit d then (numeralDigits? cs).map (d :: ·) else none
  | d :: cs => if isDigit d then (numeralDigits? cs).map (d :: ·) else none

/-- The number that the digits of a numeral stand for. -/
def natural? (cs : List Char) : Option Nat :=
  (numeralDigits? cs).map number

/-- The integer that a text writes. -/
def integer? (cs : List Char) : Option Int :=
  let core := ((cs.dropWhile isNumeralBlank).reverse.dropWhile isNumeralBlank).reverse
  match core with
  | '-' :: ds => (natural? ds).map fun n => -(n : Int)
  | '+' :: ds => (natural? ds).map fun n => (n : Int)
  | ds => (natural? ds).map fun n => (n : Int)

end ExpectedDiagnostics.Text
