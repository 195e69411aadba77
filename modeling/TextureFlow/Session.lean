import TextureFlow.Graph.Pass

/-!
# Editing sessions

A session is what an editor holds: several graphs, one of which is current, nodes that are held
outside of any graph, and the supplies of numbers for nodes and connections. Creating a node takes
one number and putting it into a graph takes another, so a node never returns under a number it had
before.

Edits are data. `step` performs one and says what came of it, and a history is a list of edits.
-/

namespace TextureFlow

/-! ## Sessions -/

/-- The state of an editor. -/
structure Session (κ : Type) where
  graphs : List (Graph κ)
  /-- The position of the current graph. -/
  current : Nat
  /-- Nodes outside of any graph, by slot. A slot stays empty once its node has left. -/
  held : List (Option (Node κ))
  /-- How many node numbers were given. -/
  issued : Nat
  /-- How many connections were made. This is the identifier of the one that is made next. -/
  connected : Nat
deriving DecidableEq

/-- Where a node is found. -/
inductive NodePlace where
  /-- In the current graph. -/
  | node (id : NodeId)
  /-- Outside of any graph. -/
  | slot (index : Nat)
deriving DecidableEq, Repr

/-- One edit of a session. -/
inductive Edit (κ : Type) where
  /-- Makes a graph current, creating those up to it that are missing, and may rename it. -/
  | focus (index : Nat) (name : Option String)
  /-- Creates a node in a new slot. -/
  | create (draft : Draft κ)
  /-- Moves the node of a slot into the current graph. -/
  | insert (slot : Nat)
  /-- Creates a node in the current graph. -/
  | add (draft : Draft κ)
  /-- Moves a node of the current graph to a new slot. -/
  | remove (id : NodeId)
  | connect (source : OutputPlace) (target : InputPlace)
  | connectPorts (source target : PortPlace)
  | disconnect (target : InputPlace)
  | disconnectId (id : ConnectionId)
  /-- Edits one node. -/
  | node (place : NodePlace) (e : NodeEdit)
  /-- Runs a pass of the current graph. -/
  | evaluate (settings : Settings)
deriving DecidableEq

/-- What came of an edit. -/
inductive Outcome where
  /-- The current graph has this name. -/
  | focused (name : String)
  /-- A node was created in a slot. -/
  | created (slot : Nat) (id : NodeId)
  /-- A node is in the graph under this number. -/
  | inserted (id : NodeId)
  /-- A node is in a slot, and this many connections are left. -/
  | removed (slot : Nat) (connections : Nat)
  | connected (c : Connection)
  | refused (error : ConnectError)
  | disconnected (c : Connection)
  | edited (result : Except ParameterError Unit)
  | evaluated (result : Except EvaluationError Report)
  /-- There was nothing to edit. -/
  | absent

namespace Session

variable {κ : Type} [Kernel κ]

/-- A session with one graph without nodes. -/
def start (name : String) : Session κ :=
  ⟨[.empty name], 0, [], 0, 0⟩

/-- The name of a graph that was not named. -/
def unnamed : String :=
  "Untitled"

/-- The current graph. -/
def graph (s : Session κ) : Graph κ :=
  s.graphs.getD s.current (.empty unnamed)

/-- The session with another current graph. -/
def setGraph (s : Session κ) (g : Graph κ) : Session κ :=
  { s with graphs := s.graphs.set s.current g }

/-- The node in a slot. -/
def slot? (s : Session κ) (index : Nat) : Option (Node κ) :=
  s.held[index]?.join

/-- The node at a place. -/
def node? (s : Session κ) : NodePlace → Option (Node κ)
  | .node id => s.graph.node? id
  | .slot index => s.slot? index

/-- The session with another node at the place of one it has. -/
def setNode (s : Session κ) (place : NodePlace) (n : Node κ) : Session κ :=
  match place with
  | .node _ => s.setGraph (s.graph.setNode n)
  | .slot index => { s with held := s.held.set index (some n) }

/-- The next number for a node. -/
def nextId (s : Session κ) : NodeId :=
  s.issued + 1

/-! ## Edits -/

/-- Makes a graph current. -/
def focus (s : Session κ) (index : Nat) (name : Option String) : Session κ :=
  let missing := index + 1 - s.graphs.length
  let graphs := s.graphs ++ List.replicate missing (.empty unnamed)
  let s := { s with graphs := graphs, current := index }
  match name with
  | some name => s.setGraph { s.graph with name }
  | none => s

/-- Creates a node in a new slot. -/
def create (s : Session κ) (d : Draft κ) : Outcome × Session κ :=
  (.created s.held.length s.nextId,
    { s with held := s.held ++ [some (d.node s.nextId)], issued := s.issued + 1 })

/-- Puts a node into the current graph under a new number. -/
def place (s : Session κ) (n : Node κ) : Outcome × Session κ :=
  (.inserted s.nextId,
    { s.setGraph (s.graph.insert s.nextId n) with issued := s.issued + 1 })

/-- Takes a node out of the current graph. -/
def remove (s : Session κ) (id : NodeId) : Outcome × Session κ :=
  match s.graph.remove? id with
  | none => (.absent, s)
  | some (n, g) =>
    (.removed s.held.length g.connections.length,
      { s.setGraph g with held := s.held ++ [some n] })

/-- Keeps the result of a connection. -/
def settleConnect (s : Session κ) :
    Except ConnectError (Connection × Graph κ) → Outcome × Session κ
  | .error e => (.refused e, s)
  | .ok (c, g) => (.connected c, { s.setGraph g with connected := s.connected + 1 })

/-- Keeps the result of a disconnection. -/
def settleDisconnect (s : Session κ) : Option (Connection × Graph κ) → Outcome × Session κ
  | none => (.absent, s)
  | some (c, g) => (.disconnected c, s.setGraph g)

/-- Edits one node. -/
def editNode (s : Session κ) (p : NodePlace) (e : NodeEdit) : Outcome × Session κ :=
  match s.node? p with
  | none => (.absent, s)
  | some n =>
    match e.apply n with
    | .ok edited => (.edited (.ok ()), s.setNode p edited)
    | .error err => (.edited (.error err), s)

/-- Runs a pass of the current graph. -/
def evaluate (s : Session κ) (settings : Settings) : Outcome × Session κ :=
  match s.graph.evaluate settings with
  | .ok (g, report) => (.evaluated (.ok report), s.setGraph g)
  | .error e => (.evaluated (.error e), s)

/-- Performs one edit. -/
def step (s : Session κ) : Edit κ → Outcome × Session κ
  | .focus index name =>
    let s := s.focus index name
    (.focused s.graph.name, s)
  | .create draft => s.create draft
  | .insert slot =>
    match s.slot? slot with
    | none => (.absent, s)
    | some n => { s with held := s.held.set slot none }.place n
  | .add draft => { s with issued := s.issued + 1 }.place (draft.node s.nextId)
  | .remove id => s.remove id
  | .connect source target => s.settleConnect (s.graph.connect s.connected source target)
  | .connectPorts source target => s.settleConnect (s.graph.connectPorts s.connected source target)
  | .disconnect target => s.settleDisconnect (s.graph.disconnect? target)
  | .disconnectId id => s.settleDisconnect (s.graph.disconnectId? id)
  | .node p e => s.editNode p e
  | .evaluate settings => s.evaluate settings

/-- Performs a history of edits. -/
def run (s : Session κ) (edits : List (Edit κ)) : Session κ :=
  edits.foldl (fun s e => (s.step e).2) s

end Session

end TextureFlow
