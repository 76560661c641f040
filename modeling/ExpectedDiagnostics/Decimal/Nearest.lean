/-!
# Nearest doubles

The double that is nearest to a decimal; of two that are equally near, the one with the even
mantissa. The decimal is a fraction of natural numbers, and all arithmetic up to the mantissa is
exact. Decimals that are far beyond all doubles, or far below them, are told by the place of their
first digit, so that no huge power has to be computed.
-/

namespace ExpectedDiagnostics.Decimal

/-- Tells whether a character is one of the ten digits. -/
def isDigit (c : Char) : Bool :=
  '0' ≤ c && c ≤ '9'

/-- The number that ten-based digits write. -/
def ofDigits (ds : List Char) : Nat :=
  ds.foldl (fun n d => 10 * n + (d.toNat - '0'.toNat)) 0

/-- The natural number nearest to `num / den`; a half goes to the even neighbour. -/
def roundEven (num den : Nat) : Nat :=
  let quotient := num / den
  let rest := 2 * (num % den)
  if den < rest || (rest == den && quotient % 2 == 1) then quotient + 1 else quotient

/-- The fraction `num / den` divided by `2^e`. -/
def scaled (num den : Nat) (e : Int) : Nat × Nat :=
  (num * Nat.pow 2 (-e).toNat, den * Nat.pow 2 e.toNat)

/-- The largest power of two that is at most `num / den`, both positive. -/
def powerBelow (num den : Nat) : Int :=
  let e : Int := (num.log2 : Int) - den.log2
  let (n, d) := scaled num den e
  if d ≤ n then e else e - 1

/-- The power of two of the last binary place of every double that has `2^e` as its first one. -/
def lastPlace (e : Int) : Int :=
  max (e - 52) (-1074)

/-- The format of the positive double `mantissa · 2^place`. The exponent stands above the 52 lower
places of the mantissa, so a mantissa that has grown by one place goes over into the exponent by
itself; what is too large is infinite. -/
def bits (mantissa : Nat) (place : Int) : UInt64 :=
  .ofNat (min ((place + 1074).toNat * Nat.pow 2 52 + mantissa) (2047 * Nat.pow 2 52))

/-- The double nearest to `num / den`, both positive. -/
def nearestFraction (num den : Nat) : Float :=
  let place := lastPlace (powerBelow num den)
  let (n, d) := scaled num den place
  Float.ofBits (bits (roundEven n d) place)

/-- The places from the decimal point at which every double is zero on one side, and infinite on
the other. -/
def placeLimit : Int := 400

/-- The double nearest to `digits · 10^exponent`. -/
def nearestSize (digits : List Char) (exponent : Int) : Float :=
  let digits := digits.dropWhile (· == '0')
  let place := digits.length + exponent
  if digits.isEmpty || place < -placeLimit then 0.0
  else if placeLimit < place then 1.0 / 0.0
  else nearestFraction (ofDigits digits * Nat.pow 10 exponent.toNat) (Nat.pow 10 (-exponent).toNat)

/-- The double nearest to `±whole.fraction · 10^exponent`. -/
def nearest (negative : Bool) (whole fraction : List Char) (exponent : Int) : Float :=
  let size := nearestSize (whole ++ fraction) (exponent - fraction.length)
  if negative then -size else size

end ExpectedDiagnostics.Decimal
