import TextureFlow.Kernel.Inputs
import TextureFlow.Kernel.Parameter
import TextureFlow.Port

/-!
# Kernels

A kernel is the computation of a node together with its parameters. The class states what the rest
of the library may know of one: its ports, its parameters, and `compute`, which is a function of the
kernel and of the input values and of nothing else. It is part of this contract that a parameter is
checked before it is set: a kernel that refuses one is left as it was. Everything about graphs is
stated for an arbitrary family of kernels.
-/

namespace TextureFlow

/-! ## What a kernel declares -/

/-- When a node has to compute. -/
inductive Strategy where
  /-- In every pass. -/
  | eager
  /-- Only when the generation of an input changed since the last success. -/
  | memoized
deriving DecidableEq, Repr

/-- The strategy as a user reads it. -/
def Strategy.name : Strategy → String
  | eager => "Eager"
  | memoized => "Memoized"

/-- The ports of a kernel, in addressing order. They are listed as they are built, so nothing was
written to them and all of them are at generation `0`. -/
structure Layout where
  inputs : List Port
  outputs : List Port
deriving DecidableEq, Repr

/-- What a kernel shows of itself on a node. -/
inductive Badge where
  | label (text : String)
  | swatch (color : Rgba)
deriving DecidableEq, Repr

/-! ## The class -/

/-- A family of kernels. -/
class Kernel (κ : Type) where
  /-- The identifier of the kind of computation. -/
  kind : κ → String
  /-- The name of a new node. -/
  displayName : κ → String
  /-- The ports of a new node. -/
  layout : κ → Layout
  /-- The strategy of a new node. -/
  strategy : κ → Strategy
  /-- One value for every output, from one value for every input. -/
  compute : κ → Inputs → Except ComputeError (List Value)
  /-- The parameters and their values. -/
  parameters : κ → List (String × ParamValue)
  /-- The kernel after one parameter was set. A refusal comes with no kernel: the old one stays,
  with all its parameters. -/
  setParameter : κ → String → ParamValue → Except ParameterError κ
  /-- What the kernel shows of itself. -/
  badge? : κ → Option Badge

/-- Two families side by side are a family. -/
instance {α β : Type} [Kernel α] [Kernel β] : Kernel (α ⊕ β) where
  kind := Sum.elim Kernel.kind Kernel.kind
  displayName := Sum.elim Kernel.displayName Kernel.displayName
  layout := Sum.elim Kernel.layout Kernel.layout
  strategy := Sum.elim Kernel.strategy Kernel.strategy
  compute := Sum.elim Kernel.compute Kernel.compute
  parameters := Sum.elim Kernel.parameters Kernel.parameters
  setParameter
    | .inl k, name, v => .inl <$> Kernel.setParameter k name v
    | .inr k, name, v => .inr <$> Kernel.setParameter k name v
  badge? := Sum.elim Kernel.badge? Kernel.badge?

end TextureFlow
