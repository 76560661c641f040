/-!
# Shortest decimals

The shortest decimal that still names one floating-point number. A finite double is `m · 2^q`; all
reals nearer to it than to its two neighbours round to it, and the ends of that interval do too if
`m` is even. On the grid of decimals with one digit, then with two, and so on, the two points next
to the number are tried; the first grid with a point inside the interval wins, and of two such
points the nearer one.

All arithmetic is exact, on natural numbers.
-/

namespace ExpectedDiagnostics.Decimal

/-- The positive number `mantissa · 2^exponent` of a floating-point format. `atPowerOfTwo` tells
that the neighbour below lies only half as far away as the neighbour above. -/
structure Binary where
  mantissa : Nat
  exponent : Int
  atPowerOfTwo : Bool

/-- The decimal `digits · 10^exponent`: its digits, scaled by a power of ten. -/
structure Scaled where
  digits : Nat
  exponent : Int
  deriving DecidableEq

/-- `base ^ e` for a non-negative exponent, and one otherwise. -/
def up (base : Nat) (e : Int) : Nat :=
  Nat.pow base e.toNat

/-- How many decimal digits a natural number has. -/
def digitCount (n : Nat) : Nat :=
  (Nat.toDigits 10 n).length

/-- The exponent of the leading decimal digit. -/
def Binary.leadingExponent (x : Binary) : Int :=
  let numerator := x.mantissa * up 2 x.exponent
  let denominator := up 2 (-x.exponent)
  if denominator ≤ numerator then digitCount (numerator / denominator) - 1
  else -(digitCount ((denominator - 1) / numerator) : Int)

/-- The point of the grid `10^k` that stands for the number, if one of the two points next to it
rounds to it. -/
def Binary.onGrid? (x : Binary) (k : Int) : Option Scaled :=
  -- everything is counted in units of `2^(exponent - 2)` and of `10^k`, whichever is smaller
  let q := x.exponent - 2
  let scale := up 2 q * up 10 (-k)
  let unit := up 10 k * up 2 (-q)
  let value := 4 * x.mantissa * scale
  let lowest := (4 * x.mantissa - if x.atPowerOfTwo then 1 else 2) * scale
  let highest := (4 * x.mantissa + 2) * scale
  let inside (n : Nat) : Bool :=
    if x.mantissa % 2 == 0 then lowest ≤ n * unit && n * unit ≤ highest
    else lowest < n * unit && n * unit < highest
  let below := value / unit
  let above := below + 1
  match inside below, inside above with
  | true, false => some ⟨below, k⟩
  | false, true => some ⟨above, k⟩
  | false, false => none
  | true, true =>
    let down := value - below * unit
    let rise := above * unit - value
    if down < rise || (down == rise && below % 2 == 0) then some ⟨below, k⟩
    else some ⟨above, k⟩

/-- The shortest decimal that rounds to the number. Seventeen digits are always enough for a
double. -/
def Binary.shortest (x : Binary) : Scaled :=
  let lead := x.leadingExponent
  let grids := (List.range 17).map fun (n : Nat) => lead - (n : Int)
  match grids.findSome? x.onGrid? with
  | some d => d
  | none => ⟨0, 0⟩

end ExpectedDiagnostics.Decimal
