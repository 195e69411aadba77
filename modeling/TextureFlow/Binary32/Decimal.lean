import TextureFlow.Binary32.Rounding

/-!
# Decimal text of single-precision numbers

Three spellings are written. `plain` and `general` both show the fewest digits that read back as the
same number: `plain` never uses an exponent, `general` does for very large and very small numbers
and marks whole numbers with `.0`. `fixed` shows a given number of decimal places of the exact
value.

The fewest digits are found on decimal grids. A number stands for the interval of reals that round
to it (ends included exactly when its significand is even), and if any multiple of a power of ten
lies in that interval, so does one of the two neighbours of the number itself on that grid. So it is
enough to try those two on grids of 1, 2, 3, ... digits.
-/

namespace TextureFlow
namespace Binary32

/-! ## Shortest digits -/

/-- The number `digits * 10 ^ exponent`. -/
structure Decimal where
  digits : Nat
  exponent : Int
deriving DecidableEq, Repr

/-- The interval of reals that round to a number, scaled to integers: the number itself is `middle`,
and a real is inside when it is between `low` and `high`, ends included as `closed` says. -/
structure Interval where
  low : Nat
  middle : Nat
  high : Nat
  closed : Bool
deriving DecidableEq, Repr

namespace Interval

/-- The rounding interval of a positive finite number, in quarters of `2 ^ -149`. Below a power of
two the neighbours stand half as far apart. -/
def of (x : Float32) : Interval :=
  let gap := 2 <<< place x
  let lower := if fractionField x = 0 && 1 < exponentField x then gap / 2 else gap
  let middle := 4 * units x
  { low := middle - lower, middle, high := middle + gap, closed := significand x % 2 = 0 }

/-- All three points multiplied by a scale. -/
def scale (i : Interval) (factor : Nat) : Interval :=
  { i with low := i.low * factor, middle := i.middle * factor, high := i.high * factor }

/-- Whether a point lies inside. -/
def contains (i : Interval) (point : Nat) : Bool :=
  if i.closed then i.low ≤ point && point ≤ i.high else i.low < point && point < i.high

/-- The multiple of `step` next to the middle that lies inside, as its factor. Of two the nearer one
is taken, and the upper one when both are equally near. -/
def multiple? (i : Interval) (step : Nat) : Option Nat :=
  let below := i.middle / step
  let above := below + 1
  match i.contains (below * step), i.contains (above * step) with
  | true, true =>
    if above * step - i.middle ≤ i.middle - below * step then some above else some below
  | true, false => some below
  | false, true => some above
  | false, false => none

end Interval

/-- The number of quarter units in `1.0`. -/
def quarters : Nat :=
  4 * one

/-- The decimal grid of spacing `10 ^ exponent`, tried on an interval. -/
def onGrid? (i : Interval) (exponent : Int) : Option Nat :=
  match exponent with
  | .ofNat e => i.multiple? (quarters * Nat.pow 10 e)
  | .negSucc e => (i.scale (Nat.pow 10 (e + 1))).multiple? quarters

/-- Whether a point reaches `10 ^ exponent`. -/
def reaches (middle : Nat) : Int → Bool
  | .ofNat e => quarters * Nat.pow 10 e ≤ middle
  | .negSucc e => quarters ≤ middle * Nat.pow 10 (e + 1)

/-- The largest `e` with `10 ^ e ≤ middle`. Finite numbers lie between `10 ^ -45` and `10 ^ 39`. -/
def leading (middle : Nat) : Int :=
  let exponents := (List.range 84).map fun (k : Nat) => 38 - (k : Int)
  (exponents.find? (reaches middle)).getD (-46)

/-- Drops zeros at the end of the digits. The fuel bounds their number. -/
def Decimal.strip : Nat → Decimal → Decimal
  | 0, d => d
  | n + 1, d =>
    if d.digits % 10 = 0 && d.digits ≠ 0 then strip n ⟨d.digits / 10, d.exponent + 1⟩ else d

/-- The shortest decimal that reads back as the positive finite number `x`, and the nearest to `x`
of those. Nine digits always suffice. -/
def shortest (x : Float32) : Decimal :=
  let i := Interval.of x
  let top := leading i.middle
  let hit := (List.range 12).findSome? fun (n : Nat) =>
    (onGrid? i (top - (n : Int))).map fun digits => (⟨digits, top - (n : Int)⟩ : Decimal)
  (hit.getD ⟨0, 0⟩).strip 12

/-! ## Spelling -/

/-- A run of zeros. -/
def zeros (n : Nat) : List Char :=
  List.replicate n '0'

/-- A decimal written out by position. -/
def Decimal.positional (d : Decimal) : List Char :=
  let digits := Nat.toDigits 10 d.digits
  match d.exponent with
  | .ofNat e => digits ++ zeros e
  | .negSucc e =>
    let places := e + 1
    let padded := zeros (places + 1 - digits.length) ++ digits
    let split := padded.length - places
    padded.take split ++ '.' :: padded.drop split

/-- A decimal written with one digit before the point and an exponent. -/
def Decimal.scientific (d : Decimal) : List Char :=
  match Nat.toDigits 10 d.digits with
  | [] => []
  | first :: rest =>
    let exponent := d.exponent + rest.length
    let fraction := if rest.isEmpty then [] else '.' :: rest
    first :: fraction ++ 'e' :: (toString exponent).toList

/-- A sign for negative numbers, the texts of the three values without digits, and otherwise what
`finite` makes of the magnitude. -/
def spell (x : Float32) (finite : Float32 → List Char) : String :=
  if x.isNaN then "NaN"
  else
    let sign := if negative x then "-" else ""
    if exponentField x = 255 then sign ++ "inf" else sign ++ String.ofList (finite x)

/-- The shortest digits by position: `1`, `0.1`, `100000000000000000000`, `-0`. -/
def plain (x : Float32) : String :=
  spell x fun y => if units y = 0 then ['0'] else (shortest y).positional

/-- Whether `general` writes an exponent: from `10 ^ 16` on, and below `10 ^ -4`. -/
def wantsExponent (x : Float32) : Bool :=
  x.abs ≥ 1e16 || x.abs < 1e-4

/-- The shortest digits, always recognisable as a fraction: `1.0`, `0.1`, `1e20`, `-0.0`. -/
def general (x : Float32) : String :=
  spell x fun y =>
    if units y = 0 then ['0', '.', '0']
    else
      let d := shortest y
      if wantsExponent y then d.scientific
      else if d.exponent < 0 then d.positional else d.positional ++ ['.', '0']

/-- The quotient rounded to the nearest whole number, a half going to the even neighbour. -/
def roundEven (num den : Nat) : Nat :=
  let quotient := num / den
  let rest := 2 * (num % den)
  if den < rest || (rest = den && quotient % 2 = 1) then quotient + 1 else quotient

/-- The exact value with a given number of decimal places. -/
def fixed (places : Nat) (x : Float32) : String :=
  spell x fun y =>
    Decimal.positional ⟨roundEven (units y * Nat.pow 10 places) one, -(places : Int)⟩

end Binary32
end TextureFlow
