import TextureFlow.Kernel.Error

/-!
# Reading inputs

A computation is handed the values of its inputs in order. Each reader gives the payload at one
position, or says that the position is beyond the list or holds a value of another kind.
-/

namespace TextureFlow

/-- The values that a computation is handed, in input order. -/
abbrev Inputs := List Value

namespace Inputs

/-- The value at a position. -/
def value (inputs : Inputs) (index : Nat) : Except ComputeError Value :=
  match inputs[index]? with
  | some v => .ok v
  | none => .error (.missingInput index s!"#{index}")

/-- The payload that `part?` finds in the value at a position. -/
def payload {α : Type} (part? : Value → Option α) (wanted : Wanted) (inputs : Inputs)
    (index : Nat) : Except ComputeError α := do
  let v ← inputs.value index
  match part? v with
  | some x => return x
  | none => throw (.inputKind index wanted v.kind)

/-- The scalar at a position. -/
def scalar : Inputs → Nat → Except ComputeError Float32 :=
  payload Value.scalar? (.accepted (.single .scalar))

/-- The vector at a position, of any arity. -/
def vector : Inputs → Nat → Except ComputeError Vec :=
  payload Value.vector? .anyVector

/-- The vector at a position, which must have `count` components. -/
def vectorOf (inputs : Inputs) (index count : Nat) : Except ComputeError Vec := do
  let v ← inputs.vector index
  if v.arity.toNat = count then return v
  else
    let wanted := (Arity.ofNat? count).elim .anyVector fun a => .accepted (.single (.vector a))
    throw (.inputKind index wanted (.vector v.arity))

/-- The colour at a position. -/
def color : Inputs → Nat → Except ComputeError Rgba :=
  payload Value.color? (.accepted (.single .color))

/-- The image at a position. -/
def image : Inputs → Nat → Except ComputeError Image :=
  payload Value.image? (.accepted (.single .image))

/-- The mask at a position. -/
def mask : Inputs → Nat → Except ComputeError Mask :=
  payload Value.mask? (.accepted (.single .mask))

/-- The bytes at a position. -/
def bytes : Inputs → Nat → Except ComputeError (List UInt8) :=
  payload Value.bytes? (.accepted (.single .bytes))

end Inputs

/-! ## Readers as data -/

/-- One of the readers. -/
inductive Accessor where
  | value
  | scalar
  | vector
  | vectorOf (count : Nat)
  | color
  | image
  | mask
  | bytes
deriving DecidableEq, Repr

/-- What the reader gives, as a value again. -/
def Accessor.read (a : Accessor) (inputs : Inputs) (index : Nat) : Except ComputeError Value :=
  match a with
  | value => inputs.value index
  | scalar => Value.scalar <$> inputs.scalar index
  | vector => Value.vector <$> inputs.vector index
  | vectorOf count => Value.vector <$> inputs.vectorOf index count
  | color => Value.color <$> inputs.color index
  | image => Value.image <$> inputs.image index
  | mask => Value.mask <$> inputs.mask index
  | bytes => Value.bytes <$> inputs.bytes index

end TextureFlow
