/-!
# Single-precision numbers as exact integers

Every finite single-precision number is a whole multiple of the smallest positive one, `2 ^ -149`.
`units` is that multiple, without the sign. Whatever has to be exact about a number, its nearest
whole number or its decimal digits, is then a statement about natural numbers.

The orderings here are the ones the rest of the library relies on: `least` and `greatest` pass over
an operand that is not a number, while `clampUnit` keeps one.
-/

namespace TextureFlow
namespace Binary32

/-! ## Fields of the encoding -/

/-- The sign bit; it is set for `-0.0` as well. -/
def negative (x : Float32) : Bool :=
  x.toBits >>> 31 == 1

/-- The biased exponent field. -/
def exponentField (x : Float32) : Nat :=
  ((x.toBits >>> 23) &&& 0xff).toNat

/-- The fraction field. -/
def fractionField (x : Float32) : Nat :=
  (x.toBits &&& 0x7fffff).toNat

/-- The significand, hidden bit included. -/
def significand (x : Float32) : Nat :=
  if exponentField x = 0 then fractionField x else fractionField x + Nat.pow 2 23

/-- The binary place of the last bit of the significand, counted from `2 ^ -149`. -/
def place (x : Float32) : Nat :=
  exponentField x - 1

/-- The number of units in `1.0`. -/
def one : Nat :=
  Nat.pow 2 149

/-- The magnitude of a finite number in units of `2 ^ -149`; an infinity reads as `2 ^ 128`. -/
def units (x : Float32) : Nat :=
  significand x <<< place x

/-! ## Whole numbers -/

/-- The whole number nearest to `x`, a half going up. What is negative or not a number gives `0`. -/
def nearestNat (x : Float32) : Nat :=
  if x.isNaN || negative x then 0 else (2 * units x + one) / (2 * one)

/-! ## Order -/

/-- The smaller operand. An operand that is not a number gives way to the other. -/
def least (a b : Float32) : Float32 :=
  if a.isNaN then b else if b < a then b else a

/-- The larger operand. An operand that is not a number gives way to the other. -/
def greatest (a b : Float32) : Float32 :=
  if a.isNaN then b else if a < b then b else a

/-- Moves a number into `0 ≤ x ≤ 1`. What is not a number stays so, and so does `-0.0`. -/
def clampUnit (x : Float32) : Float32 :=
  let raised := if x < 0 then 0 else x
  if 1 < raised then 1 else raised

/-! ## Channels of eight bits -/

/-- A channel of range `0 ≤ x ≤ 1` as a byte: the nearest multiple of `1 / 255`. -/
def toByte (x : Float32) : UInt8 :=
  (nearestNat (clampUnit x * 255)).toUInt8

/-- The channel that a byte stands for. -/
def ofByte (b : UInt8) : Float32 :=
  b.toFloat32 / 255

end Binary32
end TextureFlow
