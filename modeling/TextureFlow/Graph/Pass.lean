import TextureFlow.Graph.Cycle
import TextureFlow.Graph.Order
import TextureFlow.Settings

/-!
# Passes

One pass evaluates a whole graph. It is refused when the graph has a cycle. Otherwise the nodes run
one after the other in topological order. A node first takes over the values and generations of the
outputs that feed it; then it reuses its outputs, computes new ones, or fails. New outputs are
stamped with fresh generations in output order. A node that fails keeps its outputs, and the pass
goes on.

The only thing that one pass leaves for the next is what nodes hold: their ports and their memo.
-/

namespace TextureFlow

/-! ## What becomes of a node -/

/-- What a node does in a pass. -/
inductive Verdict where
  | computed (outputs : List Value)
  | reused
  | failed (error : ComputeError)
deriving DecidableEq, Repr

namespace Port

/-- The port with the value and the generation of the output that feeds it, or else its fallback. -/
def resolve (p : Port) (feed : Option Port) : Port :=
  match feed with
  | some output => { p with value := output.value, generation := output.generation }
  | none => p.reset

/-- The values of inputs, counted from `index`. The first input without a value, or with one that it
does not accept, decides the error. -/
def gather (index : Nat) : List Port → Except ComputeError (List Value)
  | [] => .ok []
  | p :: rest =>
    match p.value with
    | none => .error (.missingInput index p.name)
    | some v =>
      if p.accepts v.kind then (v :: ·) <$> gather (index + 1) rest
      else .error (.inputKind index (.accepted p.accepted) v.kind)

/-- The first value, counted from `index`, that is not of the kind its output declares. -/
def mismatch? (index : Nat) : List Port → List Value → Option ComputeError
  | p :: ports, v :: values =>
    match p.emits? with
    | some k =>
      if v.kind = k then mismatch? (index + 1) ports values
      else some (.outputKind index k v.kind)
    | none => mismatch? (index + 1) ports values
  | _, _ => none

/-- The outputs holding new values, stamped with the generations that follow `revision`. -/
def writeAll (revision : Nat) : List Port → List Value → List Port
  | p :: ports, v :: values =>
    p.write v (revision + 1) :: writeAll (revision + 1) ports values
  | ports, _ => ports

/-- The outputs with a zero in place of every value that is missing. Every missing value takes one
generation, also where the output declares no single kind and stays empty. -/
def fillZeros (revision : Nat) : List Port → List Port
  | [] => []
  | p :: rest =>
    match p.value with
    | some _ => p :: fillZeros revision rest
    | none =>
      let filled :=
        match p.emits? with
        | some k => p.write k.zero (revision + 1)
        | none => p
      filled :: fillZeros (revision + 1) rest

/-- How many outputs hold no value. -/
def missing (ports : List Port) : Nat :=
  ports.countP fun p => p.value.isNone

end Port

namespace Node

variable {κ : Type} [Kernel κ]

/-- The node at the start of a pass. -/
def restart (n : Node κ) : Node κ :=
  { n with state := .pending, error := none }

/-- The node with the values of the outputs that feed its inputs. -/
def resolve (n : Node κ) (feed : Nat → Option Port) : Node κ :=
  { n with inputs := n.inputs.mapIdx fun index p => p.resolve (feed index) }

/-- Whether the memo allows to keep the outputs. -/
def reusable (memoization : Bool) (n : Node κ) : Bool :=
  memoization && n.strategy = .memoized && n.memo = some n.inputGenerations

/-- Outputs are accepted when there is one for every port, of the kind that the port declares. -/
def checkOutputs (n : Node κ) (outputs : List Value) : Except ComputeError (List Value) :=
  if outputs.length ≠ n.outputs.length then
    .error (.outputCount n.outputs.length outputs.length)
  else
    match Port.mismatch? 0 n.outputs outputs with
    | some e => .error e
    | none => .ok outputs

/-- What a node does once its inputs are resolved. -/
def judge (memoization : Bool) (n : Node κ) : Verdict :=
  match Port.gather 0 n.inputs with
  | .error e => .failed e
  | .ok values =>
    if n.reusable memoization then .reused
    else
      match Kernel.compute n.kernel values >>= n.checkOutputs with
      | .ok outputs => .computed outputs
      | .error e => .failed e

/-- Whether the kernel runs once the inputs are resolved. -/
def runs (memoization : Bool) (n : Node κ) : Bool :=
  (Port.gather 0 n.inputs).isOk && !n.reusable memoization

/-- The node after its verdict. `ran` says whether the kernel ran, and generations follow
`revision`. -/
def conclude (zeroFill : Bool) (revision : Nat) (ran : Bool) (n : Node κ) (v : Verdict) : Node κ :=
  let computeCount := if ran then n.computeCount + 1 else n.computeCount
  match v with
  | .computed outputs =>
    { n with
      outputs := Port.writeAll revision n.outputs outputs
      memo := some n.inputGenerations
      state := .computed
      computeCount }
  | .reused => { n with state := .reused, computeCount }
  | .failed e =>
    { n with
      outputs := if zeroFill then Port.fillZeros revision n.outputs else n.outputs
      state := .failed
      error := some e
      computeCount }

/-- How many generations the verdict takes. -/
def stamps (zeroFill : Bool) (n : Node κ) : Verdict → Nat
  | .computed outputs => outputs.length
  | .reused => 0
  | .failed _ => if zeroFill then Port.missing n.outputs else 0

end Node

/-! ## Reports -/

/-- What a pass did. -/
structure Report where
  /-- The nodes in the order in which they ran. -/
  order : List NodeId
  /-- The nodes that computed. -/
  computed : List NodeId
  /-- The nodes that kept their outputs. -/
  reused : List NodeId
  /-- The nodes that failed, with the reason. -/
  failures : List (NodeId × ComputeError)
deriving DecidableEq, Repr

namespace Report

/-- The report before any node ran. -/
def start (order : List NodeId) : Report :=
  ⟨order, [], [], []⟩

/-- Adds what became of a node. -/
def record (r : Report) (id : NodeId) : Verdict → Report
  | .computed _ => { r with computed := r.computed ++ [id] }
  | .reused => { r with reused := r.reused ++ [id] }
  | .failed e => { r with failures := r.failures ++ [(id, e)] }

/-- Whether no node failed. -/
def clean (r : Report) : Bool :=
  r.failures.isEmpty

/-- Why a node failed. -/
def failure? (r : Report) (id : NodeId) : Option ComputeError :=
  (r.failures.find? fun f => f.1 = id).map Prod.snd

end Report

/-- Why a pass is refused. -/
inductive EvaluationError where
  | cycle (nodes : List NodeId)
deriving DecidableEq, Repr

/-- The error as a user reads it. -/
def EvaluationError.message : EvaluationError → String
  | cycle nodes => s!"Graph contains a cycle through {cycleText nodes}"

/-! ## Running -/

namespace Graph

variable {κ : Type} [Kernel κ]

/-- The output that feeds an input. -/
def feed? (g : Graph κ) (target : InputPlace) : Option Port :=
  (g.connectionTo? target).bind fun c =>
    (g.node? c.source.node).bind fun n => n.outputs[c.source.output]?

/-- Runs one node. -/
def runNode (settings : Settings) (g : Graph κ) (n : Node κ) : Graph κ × Verdict :=
  let n := n.resolve fun input => g.feed? ⟨n.id, input⟩
  let v := n.judge settings.memoization
  let ran := n.runs settings.memoization
  let g' := g.setNode (n.conclude settings.zeroFill g.revision ran v)
  ({ g' with revision := g.revision + n.stamps settings.zeroFill v }, v)

/-- Runs listed nodes one after the other. -/
def runNodes (settings : Settings) : List NodeId → Graph κ × Report → Graph κ × Report
  | [], state => state
  | id :: rest, (g, report) =>
    match g.node? id with
    | none => runNodes settings rest (g, report)
    | some n =>
      let (g', v) := g.runNode settings n
      runNodes settings rest (g', report.record id v)

/-- Runs one pass. -/
def evaluate (settings : Settings) (g : Graph κ) : Except EvaluationError (Graph κ × Report) :=
  match g.findCycle?, g.topologicalOrder? with
  | some nodes, _ => .error (.cycle nodes)
  | none, none => .error (.cycle [])
  | none, some order =>
    .ok (runNodes settings order ({ g with nodes := g.nodes.map Node.restart }, .start order))

end Graph

end TextureFlow
