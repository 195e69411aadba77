/-!
# Kinds of values

A port carries values of one kind. Nothing is converted on the way from an output to an input, so
compatibility is membership: an output's kind has to be one of those that the input accepts.
-/

namespace TextureFlow

/-! ## Vector lengths -/

/-- How many components a vector has. -/
inductive Arity where
  | two
  | three
  | four
deriving DecidableEq, Repr

namespace Arity

/-- The number of components. -/
def toNat : Arity → Nat
  | two => 2
  | three => 3
  | four => 4

/-- The arity with a given number of components, if there is one. -/
def ofNat? : Nat → Option Arity
  | 2 => some two
  | 3 => some three
  | 4 => some four
  | _ => none

/-- The arity nearest to a number. -/
def clamp (n : Nat) : Arity :=
  if n ≤ 2 then two else if n = 3 then three else four

theorem ofNat?_toNat (a : Arity) : ofNat? a.toNat = some a := by
  cases a <;> rfl

theorem clamp_toNat (a : Arity) : clamp a.toNat = a := by
  cases a <;> rfl

end Arity

/-! ## Kinds -/

/-- The kind of a value. -/
inductive ValueKind where
  | scalar
  | vector (arity : Arity)
  | color
  | image
  | mask
  | bytes
  | texture
deriving DecidableEq, Repr

namespace ValueKind

/-- Every kind, in the order they are listed to a user. -/
def all : List ValueKind :=
  [scalar, vector .two, vector .three, vector .four, color, image, mask, bytes, texture]

theorem mem_all (k : ValueKind) : k ∈ all := by
  cases k with
  | vector a => cases a <;> decide
  | _ => decide

/-- The name shown to a user. -/
def name : ValueKind → String
  | scalar => "Scalar"
  | vector .two => "Vector2"
  | vector .three => "Vector3"
  | vector .four => "Vector4"
  | color => "Color"
  | image => "Image"
  | mask => "Mask"
  | bytes => "Bytes"
  | texture => "Texture"

/-- The colour that marks this kind, as red, green and blue. -/
def hue : ValueKind → UInt8 × UInt8 × UInt8
  | scalar => (80, 200, 80)
  | vector .two => (200, 200, 80)
  | vector .three => (200, 150, 80)
  | vector .four => (200, 100, 200)
  | color => (255, 200, 100)
  | image => (100, 150, 200)
  | mask => (170, 170, 170)
  | bytes => (200, 180, 150)
  | texture => (150, 100, 200)

/-- The arity of a vector kind. -/
def arity? : ValueKind → Option Arity
  | vector a => some a
  | _ => none

end ValueKind

/-! ## What an input accepts -/

/-- The kinds that a port accepts: exactly one, or any of a list. -/
inductive Accepted where
  | single (kind : ValueKind)
  | anyOf (kinds : List ValueKind)
deriving DecidableEq, Repr

namespace Accepted

/-- Vectors of every arity. -/
def anyVector : Accepted :=
  anyOf [.vector .two, .vector .three, .vector .four]

/-- The accepted kinds, in order. -/
def toList : Accepted → List ValueKind
  | single k => [k]
  | anyOf ks => ks

/-- Whether a kind is accepted. -/
def contains (a : Accepted) (k : ValueKind) : Bool :=
  a.toList.contains k

/-- Whether nothing is accepted, which only an empty list of alternatives can say. -/
def isEmpty (a : Accepted) : Bool :=
  a.toList.isEmpty

/-- The first accepted kind. It chooses the value that an unconnected input reads. -/
def primary? (a : Accepted) : Option ValueKind :=
  a.toList.head?

/-- The accepted kinds as a user reads them. -/
def text : Accepted → String
  | single k => k.name
  | anyOf ks => "one of [" ++ ", ".intercalate (ks.map ValueKind.name) ++ "]"

theorem contains_iff {a : Accepted} {k : ValueKind} : a.contains k = true ↔ k ∈ a.toList := by
  simp [contains]

end Accepted

end TextureFlow
