import TextureFlow.Graph.Basic

/-!
# Searching for a cycle

A depth-first search along connections, which paints nodes. A node is *white* until it is met,
*grey* while it is on the path from the root of the search to the node at hand, and *black* when
everything reachable from it was searched without finding a cycle. The path is a stack, and every
node on it remembers how many of its successors were looked at. A grey successor closes a cycle,
which is the part of the path from that successor on. A black one needs no second visit.

The search starts from every node in the order of the graph and follows connections in their order,
so which of several cycles is found is fixed. It is a machine that is run step by step. One step
takes a root, looks at one successor, or leaves a node, so their number is bounded by the size of
the graph.
-/

namespace TextureFlow

/-- How far a search is with a node. -/
inductive Colour where
  | white
  | grey
  | black
deriving DecidableEq, Repr

/-- How a search ends. -/
inductive SearchResult where
  /-- A cycle, from the node where it was closed, in the direction of the connections. -/
  | cycle (nodes : List NodeId)
  /-- There is no cycle. -/
  | clear
  /-- A node was met that has no colour. -/
  | uncoloured (node : NodeId)
  /-- The steps did not suffice. -/
  | unfinished
deriving DecidableEq, Repr

/-- The state of a search. -/
structure Search where
  colours : List (NodeId × Colour)
  /-- The nodes from which the search may still have to start. -/
  roots : List NodeId
  /-- The path, the node at hand first. Beside a node stands how many of its successors were looked
  at. -/
  stack : List (NodeId × Nat)
deriving DecidableEq, Repr

/-- What one step of a search leads to. -/
inductive SearchStep where
  | next (s : Search)
  | halt (r : SearchResult)
deriving DecidableEq, Repr

namespace Search

/-- The colour of a node. -/
def colour? (s : Search) (node : NodeId) : Option Colour :=
  (s.colours.find? fun p => p.1 = node).map Prod.snd

/-- The search with another colour for a node. -/
def paint (s : Search) (node : NodeId) (c : Colour) : Search :=
  { s with colours := s.colours.map fun p => if p.1 = node then (node, c) else p }

/-- The nodes on the path, the root first. -/
def path (s : Search) : List NodeId :=
  (s.stack.map Prod.fst).reverse

/-- The part of the path that begins with a node. -/
def loop (s : Search) (node : NodeId) : List NodeId :=
  s.path.drop ((s.path.findIdx? fun n => n = node).getD 0)

/-- Takes the next root, which is met here for the first time if it is white. -/
def start (s : Search) (root : NodeId) (rest : List NodeId) : SearchStep :=
  match s.colour? root with
  | none => .halt (.uncoloured root)
  | some .white => .next { s.paint root .grey with roots := rest, stack := [(root, 0)] }
  | some _ => .next { s with roots := rest }

/-- Looks at a successor of the node at hand. The state given counts it as looked at. -/
def look (s : Search) (child : NodeId) : SearchStep :=
  match s.colour? child with
  | none => .halt (.uncoloured child)
  | some .white => .next { s.paint child .grey with stack := (child, 0) :: s.stack }
  | some .grey => .halt (.cycle (s.loop child))
  | some .black => .next s

/-- One step. -/
def step (successors : NodeId → List NodeId) (s : Search) : SearchStep :=
  match s.stack, s.roots with
  | [], [] => .halt .clear
  | [], root :: rest => s.start root rest
  | (node, seen) :: below, _ =>
    match (successors node)[seen]? with
    | some child => { s with stack := (node, seen + 1) :: below }.look child
    | none => .next { s.paint node .black with stack := below }

/-- Performs at most as many steps as the first argument says. -/
def run (successors : NodeId → List NodeId) : Nat → Search → SearchResult
  | 0, _ => .unfinished
  | bound + 1, s =>
    match s.step successors with
    | .next s => run successors bound s
    | .halt r => r

end Search

namespace Graph

variable {κ : Type} [Kernel κ]

/-- The search before its first step. -/
def search (g : Graph κ) : Search :=
  ⟨g.ids.map fun id => (id, .white), g.ids, []⟩

/-- How many steps a search may take: two for every node, one for every connection, and the last. -/
def searchBound (g : Graph κ) : Nat :=
  2 * g.nodes.length + g.connections.length + 1

/-- What a search of the graph finds. -/
def searched (g : Graph κ) : SearchResult :=
  Search.run g.successors g.searchBound g.search

/-- A cycle of the graph, if there is one. -/
def findCycle? (g : Graph κ) : Option (List NodeId) :=
  match g.searched with
  | .cycle nodes => some nodes
  | _ => none

/-- Whether the graph has a cycle. -/
def hasCycle (g : Graph κ) : Bool :=
  g.findCycle?.isSome

end Graph

/-- A cycle as a user reads it. -/
def cycleText (nodes : List NodeId) : String :=
  " -> ".intercalate (nodes.map NodeId.text)

end TextureFlow
