import TextureFlow.Registry
import TextureFlow.Script.Basic

/-!
# Building the graph of a script

The nodes of a script are created one after the other from a registry, and connected in the order of
the script. Every node takes one number when it is created and another when it enters the graph, so
the nodes of a new graph have the even numbers. The first thing that is refused stops the building.
-/

namespace TextureFlow

/-- The graph of a script, with the number of every key. -/
structure Built (κ : Type) where
  graph : Graph κ
  keys : Table String NodeId
deriving DecidableEq

namespace NodeSpec

variable {κ : Type} [Kernel κ]

/-- The node of a kind with the key as its name and the strategy that the script asks for. -/
def draft (spec : NodeSpec) (d : Draft κ) : Draft κ :=
  { d with name := some spec.key, strategy := spec.strategy.or d.strategy }

/-- The edits that give a new node the parameters and fallbacks of the script, in order. -/
def edits (spec : NodeSpec) : List NodeEdit :=
  spec.parameters.entries.map (fun e => .parameter e.1 e.2)
    ++ spec.fallbacks.entries.map fun e => .fallback e.1 e.2

/-- The node that a script describes. -/
def create (registry : Registry κ) (id : NodeId) (spec : NodeSpec) : Except ScriptError (Node κ) :=
  match registry.draft? spec.kind with
  | none => .error (.unknownKind spec.key spec.kind)
  | some d =>
    (spec.edits.foldlM (fun n (e : NodeEdit) => e.apply n) ((spec.draft d).node id)).mapError
      (.parameter spec.key)

end NodeSpec

namespace Built

variable {κ : Type} [Kernel κ]

/-- The number of a key. -/
def id (b : Built κ) (key : String) : Except ScriptError NodeId :=
  match b.keys.find? key with
  | some id => .ok id
  | none => .error (.unknownNode key)

/-- How many numbers for nodes were given. -/
def issued (b : Built κ) : Nat :=
  2 * b.keys.size

/-- Adds a node. -/
def addNode (registry : Registry κ) (b : Built κ) (spec : NodeSpec) :
    Except ScriptError (Built κ) :=
  if b.keys.contains spec.key then .error (.duplicateKey spec.key)
  else do
    let n ← spec.create registry (b.issued + 1)
    let id := b.issued + 2
    return ⟨b.graph.insert id n, b.keys.put spec.key id⟩

/-- Adds a connection under a number. -/
def addConnection (b : Built κ) (spec : ConnectionSpec × ConnectionId) :
    Except ScriptError (Built κ) := do
  let source ← b.id spec.1.source
  let target ← b.id spec.1.target
  let (_, graph) ← (b.graph.connect spec.2 ⟨source, spec.1.output⟩ ⟨target, spec.1.input⟩).mapError
    (.connect spec.1)
  return { b with graph }

end Built

/-- Builds the graph of a script. -/
def Script.build {κ : Type} [Kernel κ] (registry : Registry κ) (s : Script) :
    Except ScriptError (Built κ) := do
  let b ← s.nodes.foldlM (Built.addNode registry) ⟨.empty s.name, .empty⟩
  s.connections.zipIdx.foldlM Built.addConnection b

end TextureFlow
