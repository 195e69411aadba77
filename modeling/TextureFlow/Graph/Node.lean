import TextureFlow.Kernel.Basic

/-!
# Nodes

A node is a kernel with ports, a strategy, and what remains of earlier passes: the values on its
outputs, the generations its inputs had when it last computed (its memo), and the error or state of
the last pass. Edits that could change a result drop the memo.

The numbers of nodes and the counts of their computations are natural numbers where a machine has
counters of 64 bits. They too are only counted up by one, compared and shown, and no history that
can be carried out fills such a counter.
-/

namespace TextureFlow

/-- The number by which a node is known. Numbers are never given twice. -/
abbrev NodeId := Nat

/-- A node's number as a user reads it. -/
def NodeId.text (id : NodeId) : String :=
  s!"#{id}"

/-- How far a node got in the last pass. -/
inductive NodeState where
  | pending
  | computed
  | reused
  | failed
deriving DecidableEq, Repr

/-- The state as a user reads it. -/
def NodeState.name : NodeState → String
  | pending => "Pending"
  | computed => "Computed"
  | reused => "Reused"
  | failed => "Failed"

/-- A node of a graph, or one that is held outside of any graph. -/
structure Node (κ : Type) where
  id : NodeId
  name : String
  kernel : κ
  strategy : Strategy
  inputs : List Port
  outputs : List Port
  state : NodeState
  error : Option ComputeError
  memo : Option (List Nat)
  computeCount : Nat
deriving DecidableEq

namespace Node

variable {κ : Type} [Kernel κ]

/-! ## Creation -/

/-- A new node. The side on which the kernel lists a port decides its direction. -/
def create (id : NodeId) (kernel : κ) : Node κ where
  id := id
  name := Kernel.displayName kernel
  kernel := kernel
  strategy := Kernel.strategy kernel
  inputs := (Kernel.layout kernel).inputs.map fun p => { p with direction := .input }
  outputs := (Kernel.layout kernel).outputs.map fun p => { p with direction := .output }
  state := .pending
  error := none
  memo := none
  computeCount := 0

/-! ## Questions -/

/-- All ports: inputs first, then outputs. -/
def ports (n : Node κ) : List Port :=
  n.inputs ++ n.outputs

/-- The value on an output, for previews and exports. -/
def outputValue? (n : Node κ) (index : Nat) : Option Value :=
  n.outputs[index]?.bind Port.value

/-- The generations of the inputs, in order. -/
def inputGenerations (n : Node κ) : List Nat :=
  n.inputs.map Port.generation

/-! ## Edits -/

/-- Drops the memo, so that the next pass computes. -/
def invalidate (n : Node κ) : Node κ :=
  { n with memo := none }

/-- Changes the strategy. -/
def setStrategy (n : Node κ) (strategy : Strategy) : Node κ :=
  { n with strategy }.invalidate

/-- Changes the name. -/
def rename (n : Node κ) (name : String) : Node κ :=
  { n with name }

/-- Changes a parameter. -/
def setParameter (n : Node κ) (name : String) (v : ParamValue) :
    Except ParameterError (Node κ) := do
  let kernel ← Kernel.setParameter n.kernel name v
  return { n with kernel }.invalidate

/-- Changes what an input falls back on. The input shows the new value at once when it stands at
generation `0`. -/
def setFallback (n : Node κ) (index : Nat) (v : Value) : Except ParameterError (Node κ) :=
  match n.inputs[index]? with
  | none => .error (.noSuchInput index)
  | some p =>
    if p.accepts v.kind then
      let edited := { p with fallback := some v }
      let shown := if p.generation = 0 then edited.reset else edited
      .ok { n with inputs := n.inputs.set index shown }.invalidate
    else .error (.wrongType p.name p.accepted.text v.kind.name)

end Node

/-! ## Drafts -/

/-- A kernel with the name and the strategy that its node is to have, where they differ from the
kernel's own. -/
structure Draft (κ : Type) where
  kernel : κ
  name : Option String
  strategy : Option Strategy
deriving DecidableEq

namespace Draft

variable {κ : Type} [Kernel κ]

/-- The draft that leaves name and strategy to the kernel. -/
def ofKernel (kernel : κ) : Draft κ :=
  ⟨kernel, none, none⟩

/-- The node of a draft. -/
def node (d : Draft κ) (id : NodeId) : Node κ :=
  let n := Node.create id d.kernel
  let n := d.name.elim n n.rename
  d.strategy.elim n n.setStrategy

end Draft

/-! ## Edits as data -/

/-- An edit of one node. -/
inductive NodeEdit where
  | parameter (name : String) (v : ParamValue)
  | fallback (index : Nat) (v : Value)
  | strategy (strategy : Strategy)
  | invalidate
deriving DecidableEq, Repr

/-- The node after an edit. -/
def NodeEdit.apply {κ : Type} [Kernel κ] (e : NodeEdit) (n : Node κ) :
    Except ParameterError (Node κ) :=
  match e with
  | parameter name v => n.setParameter name v
  | fallback index v => n.setFallback index v
  | strategy s => .ok (n.setStrategy s)
  | invalidate => .ok n.invalidate

end TextureFlow
