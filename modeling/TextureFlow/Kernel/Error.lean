import TextureFlow.Binary32.Decimal
import TextureFlow.Value.Basic

/-!
# Why a node or a parameter is refused

`ComputeError` says why one node failed in a pass; the pass itself goes on. `ParameterError` says
why an edit of a node was refused. Both are causes; the sentence shown to a user is `message`.
-/

namespace TextureFlow

/-! ## Computation -/

/-- What an input should have held. -/
inductive Wanted where
  | accepted (kinds : Accepted)
  | anyVector
deriving DecidableEq, Repr

/-- The wanted value as a user reads it. -/
def Wanted.text : Wanted → String
  | accepted kinds => kinds.text
  | anyVector => "a vector"

/-- Why inputs of the right kinds could not be combined. -/
inductive Failure where
  | divisionByZero
  | notANumber (operation : String) (a b : Float32)
  | pixelCount (found : Nat) (size : Size)
  | sizesDiffer (first second : Size)
  | maskSize (mask image : Size)
  | maskCount (values pixels : Nat)
  | byteCount (found expected : Nat) (size : Size)
  | reported (text : String)
deriving DecidableEq, Repr

/-- The failure as a user reads it. -/
def Failure.message : Failure → String
  | divisionByZero => "division by zero"
  | notANumber operation a b =>
    s!"{operation} of {Binary32.plain a} and {Binary32.plain b} is not a number"
  | pixelCount found size => s!"image holds {found} pixels, expected {size.text}"
  | sizesDiffer first second => s!"image dimensions differ: {first.text} vs {second.text}"
  | maskSize mask image => s!"mask is {mask.text}, image is {image.text}"
  | maskCount values pixels => s!"mask holds {values} values for {pixels} pixels"
  | byteCount found expected size =>
    s!"byte buffer holds {found} bytes, expected {expected} for {size.text} RGBA8"
  | reported text => text

/-- Why a node produced nothing in a pass. -/
inductive ComputeError where
  | missingInput (index : Nat) (name : String)
  | inputKind (index : Nat) (expected : Wanted) (found : ValueKind)
  | outputCount (expected found : Nat)
  | outputKind (index : Nat) (expected found : ValueKind)
  | failed (failure : Failure)
deriving DecidableEq, Repr

/-- The error as a user reads it. -/
def ComputeError.message : ComputeError → String
  | missingInput index name => s!"Missing required input '{name}' (input {index})"
  | inputKind index expected found => s!"Input {index} expected {expected.text}, got {found.name}"
  | outputCount expected found => s!"Produced {found} outputs, expected {expected}"
  | outputKind index expected found => s!"Output {index} expected {expected.name}, got {found.name}"
  | failed failure => failure.message

/-! ## Parameters -/

/-- The largest width or height of a generated image. -/
def maxDimension : UInt32 :=
  16384

/-- Why a value of the right type is not usable as a parameter. -/
inductive Rejection where
  | unknownOperation (text : String) (known : List String)
  | unknownBlendMode (text : String)
  | componentCount (expected found : Nat)
  | outsideUnit (x : Float32)
  | dimension (n : UInt32)
deriving DecidableEq, Repr

/-- The rejection as a user reads it. -/
def Rejection.message : Rejection → String
  | unknownOperation text known =>
    s!"unknown operation '{text}', expected one of " ++ ", ".intercalate known
  | unknownBlendMode text => s!"unknown blend mode '{text}'"
  | componentCount expected found => s!"expected {expected} components, got {found}"
  | outsideUnit x => s!"{Binary32.plain x} is outside 0..=1"
  | dimension n => s!"{n.toNat} is outside 1..={maxDimension.toNat}"

/-- Why an edit of a node was refused. -/
inductive ParameterError where
  | unknown (kind name : String)
  | wrongType (name expected found : String)
  | outOfRange (name : String) (reason : Rejection)
  | noSuchInput (index : Nat)
deriving DecidableEq, Repr

/-- The error as a user reads it. -/
def ParameterError.message : ParameterError → String
  | unknown kind name => s!"Node kind '{kind}' has no parameter '{name}'"
  | wrongType name expected found => s!"Parameter '{name}' expects {expected}, got {found}"
  | outOfRange name reason => s!"Parameter '{name}' out of range: {reason.message}"
  | noSuchInput index => s!"No input at index {index}"

end TextureFlow
