import TextureFlow.Ron.Unread
import TextureFlow.Table

/-!
# Typed readings of RON

A decoder reads a value of one type. What a type looks like can depend on the features that a text
switches on, and how deep a value may still nest on what it stands in, so a decoder is given both.

Tuples, structures and wrappers have brackets of their own, which they lose when they are the one
value of a variant and variants are unwrapped. Each has therefore a decoder of what is inside of its
brackets.
-/

namespace TextureFlow
namespace Ron

/-- Reads a value, under the features of its text and with so many levels left to nest. -/
abbrev Decoder (α : Type) := Features → Nat → Reader α

/-- How deep the values of a text may nest. -/
def nestingLimit : Nat :=
  128

/-- The value of a text. Nothing may follow it. -/
def decode? {α : Type} (d : Decoder α) (s : String) : Option α := do
  let ts ← tokens s
  let (f, ts) ← Features.read ts
  match d f nestingLimit ts with
  | some (x, []) => some x
  | _ => none

namespace Decoder

variable {α β σ : Type}

/-! ## Combinations -/

/-- Applies a function to the value that is read. -/
def map (g : α → β) (d : Decoder α) : Decoder β := fun f levels ts =>
  (d f levels ts).map fun (x, ts) => (g x, ts)

/-- Applies a function to the value that is read, and refuses the value where it gives none. -/
def filterMap (g : α → Option β) (d : Decoder α) : Decoder β := fun f levels ts => do
  let (x, ts) ← d f levels ts
  return (← g x, ts)

/-- Reads a value one level further down, unless no level is left. -/
def deeper (d : Decoder α) : Decoder α
  | _, 0, _ => none
  | f, levels + 1, ts => d f levels ts

/-- Reads what stands between two brackets. -/
def bracketed (opening closing : Char) (inside : Decoder α) : Decoder α := fun f levels =>
  enclosed opening closing (deeper inside f levels)

/-- Any number of parts up to a closing bracket. -/
def parts (closing : Char) (part : Decoder α) : Decoder (List α) := fun f levels =>
  Ron.parts closing (deeper part f levels)

/-! ## Plain values -/

/-- A truth value. -/
def bool : Decoder Bool
  | _, _, .identifier "true" :: ts => some (true, ts)
  | _, _, .identifier "false" :: ts => some (false, ts)
  | _, _, _ => none

/-- A text. -/
def text : Decoder String
  | _, _, .text s :: ts => some (s, ts)
  | _, _, _ => none

/-- A natural number of so many bits. A byte literal stands for a number of eight bits. -/
def word (bits : Nat) : Decoder Nat
  | _, _, .number written :: ts => (readWord bits written).map fun n => (n, ts)
  | _, _, .byte value :: ts => if bits = 8 then some (value.toNat, ts) else none
  | _, _, _ => none

/-- A single-precision number, which may be written as a word. -/
def float : Decoder Float32
  | _, _, .number written :: ts => (readFloat written).map fun x => (x, ts)
  | _, _, .identifier name :: ts => (readFloat name.toList).map fun x => (x, ts)
  | _, _, _ => none

/-! ## Collections -/

/-- A list of any length. -/
def list (item : Decoder α) : Decoder (List α) :=
  bracketed '[' ']' (parts ']' item)

/-- The inside of a tuple of equal items. -/
def items (count : Nat) (item : Decoder α) : Decoder (List α) := fun f levels =>
  exactly (deeper item f levels) count

/-- Two values in round brackets. -/
def pair (first : Decoder α) (second : Decoder β) : Decoder (α × β) :=
  bracketed '(' ')' fun f levels ts => do
    let (x, ts) ← deeper first f levels ts
    let ts ← afterSign ',' ts
    let (y, ts) ← deeper second f levels ts
    return ((x, y), afterComma ts)

/-- Keys with values. -/
def table {κ : Type} [DecidableEq κ] (key : Decoder κ) (value : Decoder α) : Decoder (Table κ α) :=
  let entry : Decoder (κ × α) := fun f levels ts => do
    let (k, ts) ← key f levels ts
    let (x, ts) ← value f levels (← afterSign ':' ts)
    return ((k, x), ts)
  map Table.ofList (bracketed '\x7b' '\x7d' (parts '\x7d' entry))

/-- A value that may be missing and has no brackets of its own. The name `Some` in front of it may
be left out, or at least its brackets, when optional values are written without. -/
def optional (value : Decoder α) : Decoder (Option α)
  | _, _, .identifier "None" :: ts => some (none, ts)
  | f, levels, .identifier "Some" :: ts =>
    if opens '(' ts then (single (deeper value f levels) ts).map fun (x, ts) => (some x, ts)
    else if f.implicitSome then map some (deeper value) f levels ts
    else none
  | f, levels, ts => if f.implicitSome then map some (deeper value) f levels ts else none

/-! ## Structures -/

/-- The name of a structure, which may be missing unless every structure is written with its
name. -/
def typeName (name : String) : Decoder Unit := fun f _ ts =>
  match identifier ts with
  | some (found, ts) => if found = name then some ((), ts) else none
  | none => if f.explicitStructNames then none else some ((), ts)

/-- What follows the name of a structure. -/
def named (name : String) (d : Decoder α) : Decoder α := fun f levels ts => do
  let (_, ts) ← typeName name f levels ts
  d f levels ts

/-- A wrapper of one value. -/
def wrapper (name : String) (value : Decoder α) : Decoder α := fun f =>
  if f.unwrapNewtypes then deeper value f
  else named name (fun f levels => single (deeper value f levels)) f

/-- How the fields of a structure change the structure, by their names. -/
abbrev Fields (σ : Type) := List (String × Decoder (σ → σ))

/-- A field whose value is put into the structure. -/
def field (name : String) (value : Decoder α) (put : α → σ → σ) : String × Decoder (σ → σ) :=
  (name, map put value)

/-- A name, a colon and a value. The value of a field that is not known is passed over. -/
def entry (known : Fields σ) : Decoder (String × (σ → σ)) := fun f levels ts => do
  let (name, ts) ← identifier ts
  let ts ← afterSign ':' ts
  match known.lookup name with
  | some d => map (fun change => (name, change)) d f levels ts
  | none => (skipValue f levels ts).map fun (_, ts) => ((name, id), ts)

/-- The inside of a structure, as changes of one in which no field is given. Known fields stand at
most once, and the required ones do stand. -/
def fields (missing : σ) (required : List String) (known : Fields σ) : Decoder σ :=
  filterMap (fun found =>
    let once := known.all fun k => (found.filter fun p => p.1 = k.1).length ≤ 1
    let complete := required.all fun name => found.any fun p => p.1 = name
    if once && complete then some (found.foldl (fun s p => p.2 s) missing) else none)
    (parts ')' (entry known))

/-- A structure with its name. -/
def record (name : String) (inside : Decoder σ) : Decoder σ :=
  named name (bracketed '(' ')' inside)

/-! ## Variants -/

/-- A variant by its name. -/
def variant (cases : List (String × Decoder α)) : Decoder α :=
  deeper fun f levels ts => do
    let (name, ts) ← identifier ts
    let d ← cases.lookup name
    d f levels ts

/-- A variant that holds nothing. -/
def constant (x : α) : Decoder α := fun _ _ ts =>
  some (x, ts)

/-- The one value of a variant, in round brackets. -/
def content (value : Decoder α) : Decoder α := fun f levels =>
  single (deeper value f levels)

/-- The one value of a variant, which has brackets of its own around `inside`. When variants are
unwrapped the brackets of the variant are enough. -/
def unwrapped (value inside : Decoder α) : Decoder α := fun f =>
  content (if f.unwrapVariantNewtypes then deeper inside else value) f

/-- A tuple of equal items as the one value of a variant. -/
def tupleContent (count : Nat) (item : Decoder α) : Decoder (List α) :=
  unwrapped (bracketed '(' ')' (items count item)) (items count item)

/-- A structure as the one value of a variant. -/
def recordContent (name : String) (inside : Decoder σ) : Decoder σ :=
  unwrapped (record name inside) inside

/-- A wrapper as the one value of a variant. -/
def wrapperContent (name : String) (value : Decoder α) : Decoder α :=
  unwrapped (wrapper name value) value

end Decoder

end Ron
end TextureFlow
