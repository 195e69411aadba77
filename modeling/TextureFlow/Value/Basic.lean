import TextureFlow.Value.Image
import TextureFlow.Value.Kind

/-!
# Values

What flows along a connection. Every value has exactly one kind, and every kind has a zero: the
value that an output holds before anything was computed, and that an unconnected input reads.
-/

namespace TextureFlow

/-! ## Vectors -/

/-- A vector of two, three or four components. -/
inductive Vec where
  | two (x y : Float32)
  | three (x y z : Float32)
  | four (x y z w : Float32)
deriving DecidableEq, Repr

namespace Vec

/-- How many components there are. -/
def arity : Vec → Arity
  | two .. => .two
  | three .. => .three
  | four .. => .four

/-- The components in order. -/
def toList : Vec → List Float32
  | two x y => [x, y]
  | three x y z => [x, y, z]
  | four x y z w => [x, y, z, w]

/-- The vector with given components, if their number is an arity. -/
def ofList? : List Float32 → Option Vec
  | [x, y] => some (two x y)
  | [x, y, z] => some (three x y z)
  | [x, y, z, w] => some (four x y z w)
  | _ => none

/-- The vector of zeros. -/
def zero : Arity → Vec
  | .two => two 0 0
  | .three => three 0 0 0
  | .four => four 0 0 0 0

/-- A component by position; one that is missing reads `0`. -/
def component (v : Vec) (i : Nat) : Float32 :=
  v.toList.getD i 0

/-- The same change made to every component. -/
def map (f : Float32 → Float32) : Vec → Vec
  | two x y => two (f x) (f y)
  | three x y z => three (f x) (f y) (f z)
  | four x y z w => four (f x) (f y) (f z) (f w)

/-- Components of two vectors joined in pairs, from the first on, in the arity of the first vector.
The first pair that cannot be joined decides the error. -/
def combine {ε : Type} (f : Float32 → Float32 → Except ε Float32) (v u : Vec) : Except ε Vec :=
  match v with
  | two x y => do
    let x ← f x (u.component 0)
    let y ← f y (u.component 1)
    return two x y
  | three x y z => do
    let x ← f x (u.component 0)
    let y ← f y (u.component 1)
    let z ← f z (u.component 2)
    return three x y z
  | four x y z w => do
    let x ← f x (u.component 0)
    let y ← f y (u.component 1)
    let z ← f z (u.component 2)
    let w ← f w (u.component 3)
    return four x y z w

/-- Euclidean length. -/
def length (v : Vec) : Float32 :=
  ((v.toList.map fun c => c * c).foldl (· + ·) 0).sqrt

theorem ofList?_toList (v : Vec) : ofList? v.toList = some v := by
  cases v <;> rfl

theorem length_toList (v : Vec) : v.toList.length = v.arity.toNat := by
  cases v <;> rfl

theorem arity_map (f : Float32 → Float32) (v : Vec) : (v.map f).arity = v.arity := by
  cases v <;> rfl

theorem arity_zero (a : Arity) : (zero a).arity = a := by
  cases a <;> rfl

end Vec

/-! ## Values -/

/-- A handle to a texture that is kept elsewhere; `0` refers to none. -/
abbrev TextureHandle := UInt64

/-- A value, one constructor per family of kinds. -/
inductive Value where
  | scalar (x : Float32)
  | vector (v : Vec)
  | color (c : Rgba)
  | image (i : Image)
  | mask (m : Mask)
  | bytes (b : List UInt8)
  | texture (handle : TextureHandle)
deriving DecidableEq, Repr

namespace Value

/-- The kind of a value. -/
def kind : Value → ValueKind
  | scalar _ => .scalar
  | vector v => .vector v.arity
  | color _ => .color
  | image _ => .image
  | mask _ => .mask
  | bytes _ => .bytes
  | texture _ => .texture

/-- The number of a scalar. -/
def scalar? : Value → Option Float32
  | scalar x => some x
  | _ => none

/-- The components of a vector of any arity. -/
def vector? : Value → Option Vec
  | vector v => some v
  | _ => none

/-- The channels of a colour. -/
def color? : Value → Option Rgba
  | color c => some c
  | _ => none

/-- The image of an image value. -/
def image? : Value → Option Image
  | image i => some i
  | _ => none

/-- The mask of a mask value. -/
def mask? : Value → Option Mask
  | mask m => some m
  | _ => none

/-- The bytes of a byte buffer. -/
def bytes? : Value → Option (List UInt8)
  | bytes b => some b
  | _ => none

/-- Images and masks hold as many pixels as their size says; other values have nothing to say. -/
def Consistent : Value → Prop
  | image i => i.Consistent
  | mask m => m.Consistent
  | _ => True

end Value

/-- The value that everything of this kind starts from. -/
def ValueKind.zero : ValueKind → Value
  | .scalar => .scalar 0
  | .vector a => .vector (.zero a)
  | .color => .color .black
  | .image => .image .empty
  | .mask => .mask .empty
  | .bytes => .bytes []
  | .texture => .texture 0

theorem ValueKind.kind_zero (k : ValueKind) : k.zero.kind = k := by
  cases k with
  | vector a => cases a <;> rfl
  | _ => rfl

end TextureFlow
