import TextureFlow.Graph.Basic

/-!
# Order of execution

Every node counts the connections from nodes that have not been placed yet. A node whose count is
zero is ready; of the ready nodes the one with the smallest number is placed next, and every
connection that leaves it lowers the count of its target. If nodes are left when none is ready, they
contain a cycle.
-/

namespace TextureFlow

/-- What is left of an ordering: the counts of open connections, and the ready nodes in ascending
order. -/
structure Frontier where
  counts : List (NodeId × Nat)
  ready : List NodeId
deriving DecidableEq, Repr

namespace Frontier

/-- Puts a number into an ascending list. -/
def insertSorted (id : NodeId) : List NodeId → List NodeId
  | [] => [id]
  | first :: rest => if id ≤ first then id :: first :: rest else first :: insertSorted id rest

/-- The count of a node. -/
def count? (f : Frontier) (id : NodeId) : Option Nat :=
  (f.counts.find? fun p => p.1 = id).map Prod.snd

/-- Lowers the count of a node by one; at zero the node becomes ready. -/
def release (f : Frontier) (id : NodeId) : Frontier :=
  match f.count? id with
  | none => f
  | some count =>
    let counts := f.counts.map fun p => if p.1 = id then (id, count - 1) else p
    { counts, ready := if count - 1 = 0 then insertSorted id f.ready else f.ready }

/-- Places ready nodes one after the other. The first argument bounds their number. -/
def settle (successors : NodeId → List NodeId) : Nat → Frontier → List NodeId
  | 0, _ => []
  | bound + 1, f =>
    match f.ready with
    | [] => []
    | node :: rest =>
      node :: settle successors bound ((successors node).foldl release { f with ready := rest })

end Frontier

namespace Graph

variable {κ : Type} [Kernel κ]

/-- The counts before any node is placed. -/
def frontier (g : Graph κ) : Frontier :=
  let counts := g.ids.map fun id =>
    (id, g.connections.countP fun c => c.target.node = id)
  let free := (counts.filter fun p => p.2 = 0).map Prod.fst
  { counts, ready := free.foldr Frontier.insertSorted [] }

/-- The nodes as far as they can be ordered. -/
def settled (g : Graph κ) : List NodeId :=
  Frontier.settle g.successors g.nodes.length g.frontier

/-- The order of execution, which exists unless the graph has a cycle. -/
def topologicalOrder? (g : Graph κ) : Option (List NodeId) :=
  if g.settled.length < g.nodes.length then none else some g.settled

/-- What a user reads when there is no order. -/
def unorderedMessage : String :=
  "Graph contains a cycle"

end Graph

end TextureFlow
