import TextureFlow.Ron.Quotation
import TextureFlow.Binary32.Reading

/-!
# Numbers in RON

A number is read for the type that is wanted. Whole numbers may have a base, underscores between
digits and a suffix naming their type, and have to fit. Fractions may have underscores after digits
and an exponent, and are rounded once. A value that nobody reads only has to be a number of some
type.
-/

namespace TextureFlow
namespace Ron

/-! ## Whole numbers -/

/-- Digits of a base without the underscores among them; the first may not be an underscore. -/
def digitsOf (base : Nat) (cs : List Char) : Option Nat :=
  match cs with
  | [] => none
  | '_' :: _ => none
  | _ =>
    (cs.filter (· ≠ '_')).foldlM (fun value c =>
      (hexDigit? c).bind fun d => if d < base then some (base * value + d) else none) 0

/-- A base and what follows it. -/
def splitBase : List Char → Nat × List Char
  | '0' :: 'b' :: rest => (2, rest)
  | '0' :: 'x' :: rest => (16, rest)
  | '0' :: 'o' :: rest => (8, rest)
  | cs => (10, cs)

/-- A sign and what follows it; `true` is the minus sign. -/
def splitSign : List Char → Bool × List Char
  | '+' :: rest => (false, rest)
  | '-' :: rest => (true, rest)
  | cs => (false, cs)

/-- Whether a character may stand among the digits of a whole number, whatever its base. -/
def isDigitMark (c : Char) : Bool :=
  (hexDigit? c).isSome || c = '_'

/-- A whole number before its range is checked. -/
structure Whole where
  negative : Bool
  base : Nat
  size : Nat
  suffix : List Char
deriving DecidableEq, Repr

/-- Sign, digits and suffix of a whole number. -/
def Whole.parse? (cs : List Char) : Option Whole :=
  let (negative, cs) := splitSign cs
  let (base, cs) := splitBase cs
  (digitsOf base (cs.takeWhile isDigitMark)).map fun size =>
    ⟨negative, base, size, cs.dropWhile isDigitMark⟩

/-- Whether a whole number fits into a type of so many bits, one of which may be the sign. -/
def Whole.fits (w : Whole) (signed : Bool) (bits : Nat) : Bool :=
  let half := Nat.pow 2 (bits - 1)
  match signed, w.negative with
  | false, false => w.size < 2 * half
  | false, true => w.size = 0
  | true, false => w.size < half
  | true, true => w.size ≤ half

/-- Whether a whole number has no suffix, or the one that names a type. Suffixes stand behind
decimal and binary digits only. -/
def Whole.suffixNames (w : Whole) (signed : Bool) (bits : Nat) : Bool :=
  let name := (if signed then 'i' else 'u') :: (toString bits).toList
  w.suffix.isEmpty || ((w.base = 10 || w.base = 2) && w.suffix = name)

/-- A natural number of a given number of bits. Its suffix, if any, has to name exactly that
type. -/
def readWord (bits : Nat) (cs : List Char) : Option Nat := do
  let w ← Whole.parse? cs
  if w.suffixNames false bits && w.fits false bits then some w.size else none

/-! ## Fractions -/

/-- Removes underscores. They may follow a digit or the letter of an exponent, also across a sign,
but neither begin a number nor follow its point. `after` says whether one may come next. -/
def dropUnderscores (after : Bool) : List Char → Option (List Char)
  | [] => some []
  | '_' :: rest => if after then dropUnderscores after rest else none
  | c :: rest =>
    let next := if c = '.' then false else if c.isDigit || c = 'e' || c = 'E' then true else after
    (dropUnderscores next rest).map (c :: ·)

/-- The value of decimal digits. -/
def decimalValue (cs : List Char) : Nat :=
  cs.foldl (fun value c => 10 * value + (c.toNat - 48)) 0

/-- The exponent after the digits of a number; nothing stands for zero. -/
def exponent? : List Char → Option Int
  | [] => some 0
  | c :: rest =>
    if c = 'e' ∨ c = 'E' then
      let (negative, digits) := splitSign rest
      if digits.isEmpty ∨ !digits.all Char.isDigit then none
      else some (if negative then -(decimalValue digits : Int) else decimalValue digits)
    else none

/-- A decimal with optional sign, point and exponent. At least one digit stands beside the point. -/
def decimal? (cs : List Char) : Option Float32 := do
  let (negative, cs) := splitSign cs
  let whole := cs.takeWhile Char.isDigit
  let tail := cs.dropWhile Char.isDigit
  let fraction := match tail with
    | '.' :: rest => rest.takeWhile Char.isDigit
    | _ => []
  let tail := match tail with
    | '.' :: rest => rest.dropWhile Char.isDigit
    | _ => tail
  if whole.isEmpty && fraction.isEmpty then none
  else
    let e ← exponent? tail
    let x := Binary32.ofDecimal (decimalValue (whole ++ fraction)) (e - (fraction.length : Int))
    return if negative then -x else x

/-- A number that is written as a word, and what follows it. -/
def word? : List Char → Option (Float32 × List Char)
  | 'i' :: 'n' :: 'f' :: rest => some (1 / 0, rest)
  | 'N' :: 'a' :: 'N' :: rest => some (0 / 0, rest)
  | _ => none

/-- Whether a character may stand in a number with a point. -/
def isFractionMark (c : Char) : Bool :=
  c.isDigit || ['e', 'E', '.', '+', '-', '_'].contains c

/-- A number that may have a point or an exponent, and its suffix. -/
def readFraction (cs : List Char) : Option (Float32 × List Char) :=
  let (negative, body) := splitSign cs
  match word? body with
  | some (x, suffix) => some (if negative then -x else x, suffix)
  | none => do
    let digits ← dropUnderscores false (cs.takeWhile isFractionMark)
    let x ← decimal? digits
    return (x, cs.dropWhile isFractionMark)

/-- A single-precision number. -/
def readFloat (cs : List Char) : Option Float32 := do
  let (x, suffix) ← readFraction cs
  if suffix.isEmpty || suffix = ['f', '3', '2'] then some x else none

/-! ## Numbers that nobody reads -/

/-- The numbers of bits that the type of a whole number can have. -/
def widths : List Nat :=
  [8, 16, 32, 64]

/-- Whether a text is a number of any type. -/
def isNumber (cs : List Char) : Bool :=
  let whole := (Whole.parse? cs).any fun w =>
    [false, true].any fun signed =>
      widths.any fun bits => w.suffixNames signed bits && w.fits signed bits
  let fraction := (readFraction cs).any fun (_, suffix) =>
    suffix.isEmpty || suffix = ['f', '3', '2'] || suffix = ['f', '6', '4']
  whole || fraction

end Ron
end TextureFlow
