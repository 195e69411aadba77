import TextureFlow.Graph.Node

/-!
# Registries

A registry lists the kinds of nodes that can be created by identifier. Every entry holds the kernel
that a new node of its kind starts with. An identifier stands at most once; registering it again
replaces the entry in its place.
-/

namespace TextureFlow

/-- The group under which a kind is offered. -/
inductive Category where
  | input
  | output
  | math
  | vector
  | color
  | convert
deriving DecidableEq, Repr

/-- The category as a user reads it. -/
def Category.name : Category → String
  | input => "Input"
  | output => "Output"
  | math => "Math"
  | vector => "Vector"
  | color => "Color"
  | convert => "Convert"

/-- A kind of node. -/
structure RegistryEntry (κ : Type) where
  id : String
  name : String
  category : Category
  description : String
  kernel : κ
deriving DecidableEq

/-- The kinds of nodes that can be created, in the order of their first registration. -/
structure Registry (κ : Type) where
  entries : List (RegistryEntry κ)
deriving DecidableEq

namespace Registry

variable {κ : Type}

/-- The registry without any kind. -/
def empty : Registry κ :=
  ⟨[]⟩

/-- The entry of an identifier. -/
def find? (r : Registry κ) (id : String) : Option (RegistryEntry κ) :=
  r.entries.find? fun e => e.id = id

/-- Whether an identifier is registered. -/
def contains (r : Registry κ) (id : String) : Bool :=
  (r.find? id).isSome

/-- Adds an entry, or replaces the one with the same identifier in its place. -/
def register (r : Registry κ) (e : RegistryEntry κ) : Registry κ :=
  if r.contains e.id then ⟨r.entries.map fun old => if old.id = e.id then e else old⟩
  else ⟨r.entries ++ [e]⟩

/-- The registered identifiers, in order. -/
def ids (r : Registry κ) : List String :=
  r.entries.map RegistryEntry.id

/-- The entries of one category, in order. -/
def inCategory (r : Registry κ) (c : Category) : List (RegistryEntry κ) :=
  r.entries.filter fun e => e.category = c

/-- The same kinds with kernels of another family. -/
def map {ρ : Type} (f : κ → ρ) (r : Registry κ) : Registry ρ :=
  ⟨r.entries.map fun e => { e with kernel := f e.kernel }⟩

/-- The draft of a new node of a kind, named after its entry. -/
def draft? (r : Registry κ) (kind : String) : Option (Draft κ) :=
  (r.find? kind).map fun e => ⟨e.kernel, some e.name, none⟩

end Registry

end TextureFlow
