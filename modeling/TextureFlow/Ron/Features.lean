import TextureFlow.Ron.Reader

/-!
# Features of the notation

In front of its value a RON text may hold attributes, each of which switches on some features that
change how values are written.
-/

namespace TextureFlow
namespace Ron

/-- The features of the notation that an attribute can switch on. -/
structure Features where
  /-- A type that wraps one value is written as that value. -/
  unwrapNewtypes : Bool
  /-- An optional value is written without `Some`. -/
  implicitSome : Bool
  /-- The value of a variant is written without brackets of its own. -/
  unwrapVariantNewtypes : Bool
  /-- Every structure is written with its name. -/
  explicitStructNames : Bool
deriving DecidableEq, Repr

namespace Features

/-- The features of a text without attributes. -/
def standard : Features :=
  ⟨false, false, false, false⟩

/-- Switches a feature on by its name. -/
def enable (f : Features) (name : String) : Option Features :=
  match name with
  | "unwrap_newtypes" => some { f with unwrapNewtypes := true }
  | "implicit_some" => some { f with implicitSome := true }
  | "unwrap_variant_newtypes" => some { f with unwrapVariantNewtypes := true }
  | "explicit_struct_names" => some { f with explicitStructNames := true }
  | _ => none

/-- One attribute: the names of the features that it switches on, of which there is at least one. -/
def names : Reader (List String)
  | .sign '#' :: .sign '!' :: .sign '[' :: .identifier "enable" :: ts => do
    let (found, ts) ← enclosed '(' ')' (parts ')' identifier) ts
    let ts ← afterSign ']' ts
    if found.isEmpty then none else some (found, ts)
  | _ => none

/-- The attributes at the front of a text, on top of the features already switched on. The first
argument bounds their number. -/
def readUpTo : Nat → Features → Reader Features
  | 0, _, _ => none
  | bound + 1, f, ts =>
    if startsWith '#' ts then do
      let (found, ts) ← names ts
      readUpTo bound (← found.foldlM enable f) ts
    else some (f, ts)

/-- The features that the attributes at the front of a text switch on. -/
def read : Reader Features := fun ts =>
  readUpTo (ts.length + 1) standard ts

end Features

end Ron
end TextureFlow
