/-!
# Reading decimals

The single-precision number nearest to a decimal, rounded once. Decimals beyond the range of the
format are told by the number of their digits, so that the exponent never has to be written out.
-/

namespace TextureFlow
namespace Binary32

/-- The number nearest to `digits * 10 ^ exponent`. -/
def ofDecimal (digits : Nat) (exponent : Int) : Float32 :=
  let leading := (Nat.toDigits 10 digits).length + exponent
  if digits = 0 ∨ leading < -50 then 0
  else if 50 < leading then 1 / 0
  else Float32.ofScientific digits (exponent < 0) exponent.natAbs

end Binary32
end TextureFlow
