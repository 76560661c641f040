import ExpectedDiagnostics.Decimal.Shortest

/-!
# The text of a floating-point number

A floating-point number is written with the fewest digits that read back. Where the point stands,
and when an exponent is written instead, is a `Layout`.
-/

namespace ExpectedDiagnostics.Decimal

/-- When a number is written without an exponent: its leading digit stands at one of the powers of
ten from `lowest` up to, but not including, `limit`. An exponent has a sign and at least
`exponentWidth` digits. -/
structure Layout where
  lowest : Int
  limit : Int
  exponentWidth : Nat

/-- The layout of all numbers that the program shows: `0.0001` and `1000000000000000.0` are written
out, `1e-05` and `1e+16` are not. -/
def standard : Layout := ⟨-4, 16, 2⟩

/-- A decimal in a layout. Zeros at the end of its digits count only for the place of the point,
and a number written out always has a digit after the point. -/
def Layout.render (l : Layout) (d : Scaled) : List Char :=
  let all := Nat.toDigits 10 d.digits
  let ds := (all.reverse.dropWhile (· == '0')).reverse
  let lead : Int := d.exponent + all.length - 1
  if l.lowest ≤ lead && lead < l.limit then
    if lead < 0 then
      '0' :: '.' :: List.replicate (-lead - 1).toNat '0' ++ ds
    else
      let whole := lead.toNat + 1
      let padded := ds ++ List.replicate (whole - ds.length) '0'
      let fraction := padded.drop whole
      padded.take whole ++ '.' :: (if fraction.isEmpty then ['0'] else fraction)
  else
    let exponent := Nat.toDigits 10 lead.natAbs
    let sign := if lead < 0 then '-' else '+'
    let point := if ds.length ≤ 1 then ds else ds.take 1 ++ '.' :: ds.drop 1
    point ++ 'e' :: sign :: List.replicate (l.exponentWidth - exponent.length) '0' ++ exponent

/-- What a double is: its sign and its size. -/
inductive Shape
  | notANumber
  | infinite (negative : Bool)
  | zero (negative : Bool)
  | finite (negative : Bool) (size : Binary)

/-- The fields of the binary format of a double. -/
def Shape.ofBits (bits : UInt64) : Shape :=
  let n := bits.toNat
  let negative := n / Nat.pow 2 63 == 1
  let exponent : Nat := n / Nat.pow 2 52 % Nat.pow 2 11
  let fraction : Nat := n % Nat.pow 2 52
  if exponent == 2047 then
    if fraction == 0 then .infinite negative else .notANumber
  else if exponent == 0 then
    if fraction == 0 then .zero negative else .finite negative ⟨fraction, -1074, false⟩
  else
    .finite negative ⟨Nat.pow 2 52 + fraction, (exponent : Int) - 1075, fraction == 0 && exponent != 1⟩

/-- The text of a double. -/
def floatText (x : Float) : String :=
  let signed (negative : Bool) (text : String) : String := if negative then "-" ++ text else text
  match Shape.ofBits x.toBits with
  | .notANumber => "nan"
  | .infinite negative => signed negative "inf"
  | .zero negative => signed negative "0.0"
  | .finite negative size => signed negative (.ofList (standard.render size.shortest))

end ExpectedDiagnostics.Decimal
