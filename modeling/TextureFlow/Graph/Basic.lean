import TextureFlow.Graph.Connection

/-!
# Graphs

A graph is a list of nodes in the order of their insertion and a list of connections. Three things
hold of every graph that is built by the operations below: a connection joins ports that exist and
whose kinds agree, an input has at most one connection (a new one takes the place of the old one),
and the connections of a node disappear with it. Cycles are allowed while editing.

Numbers for nodes and connections come from outside, so that one supply can serve several graphs.
The revision is a natural number like the generations that are taken from it: a counter of 64 bits
would stop the pass that fills it, so a pass that succeeds gives the same generations.
-/

namespace TextureFlow

/-- A graph of nodes whose kernels are of one family. -/
structure Graph (κ : Type) where
  name : String
  nodes : List (Node κ)
  connections : List Connection
  /-- The last generation that was given to an output. -/
  revision : Nat
deriving DecidableEq

namespace Graph

variable {κ : Type} [Kernel κ]

/-- A graph without nodes. -/
def empty (name : String) : Graph κ :=
  ⟨name, [], [], 0⟩

/-! ## Nodes -/

/-- The numbers of the nodes, in order. -/
def ids (g : Graph κ) : List NodeId :=
  g.nodes.map Node.id

/-- The node of a number. -/
def node? (g : Graph κ) (id : NodeId) : Option (Node κ) :=
  g.nodes.find? fun n => n.id = id

/-- Whether a node of this number is in the graph. -/
def contains (g : Graph κ) (id : NodeId) : Bool :=
  (g.node? id).isSome

/-- Puts a node in place of the one with the same number. -/
def setNode (g : Graph κ) (n : Node κ) : Graph κ :=
  { g with nodes := g.nodes.map fun old => if old.id = n.id then n else old }

/-- Adds a node at the end under a new number. -/
def insert (g : Graph κ) (id : NodeId) (n : Node κ) : Graph κ :=
  { g with nodes := g.nodes ++ [{ n with id }] }

/-- Takes a node out together with its connections. The node keeps its values and its memo. -/
def remove? (g : Graph κ) (id : NodeId) : Option (Node κ × Graph κ) :=
  (g.node? id).map fun n =>
    (n, { g with
      nodes := g.nodes.filter fun m => m.id ≠ id
      connections := g.connections.filter fun c => !c.involves id })

/-! ## Looking at connections -/

/-- The connection that feeds an input. -/
def connectionTo? (g : Graph κ) (target : InputPlace) : Option Connection :=
  g.connections.find? fun c => c.target = target

/-- The connections that an output feeds, in order. -/
def connectionsFrom (g : Graph κ) (source : OutputPlace) : List Connection :=
  g.connections.filter fun c => c.source = source

/-- The connections with a node at either end, in order. -/
def connectionsOf (g : Graph κ) (id : NodeId) : List Connection :=
  g.connections.filter fun c => c.involves id

/-- The nodes that feed a node, ascending and each once. -/
def feeders (g : Graph κ) (id : NodeId) : List NodeId :=
  let sources := (g.connections.filter fun c => c.target.node = id).map fun c => c.source.node
  (sources.mergeSort (· ≤ ·)).eraseReps

/-- The node at the other end of every connection that leaves a node, in order. A node that is
connected twice stands twice. -/
def successors (g : Graph κ) (id : NodeId) : List NodeId :=
  (g.connections.filter fun c => c.source.node = id).map fun c => c.target.node

/-! ## Connecting -/

/-- The node at an end of a connection. -/
def endpoint (g : Graph κ) (id : NodeId) : Except EndpointError (Node κ) :=
  match g.node? id with
  | some n => .ok n
  | none => .error (.nodeNotFound id)

/-- The kind of an output that may feed connections. -/
def outputKind (n : Node κ) (output : Nat) : Except EndpointError ValueKind :=
  match n.outputs[output]?.bind Port.emits? with
  | some k => .ok k
  | none => .error (.noSuchOutput n.id output)

/-- An input that may be fed by a connection. -/
def inputPort (n : Node κ) (input : Nat) : Except EndpointError Port :=
  match n.inputs[input]? with
  | some p => .ok p
  | none => .error (.noSuchInput n.id input)

/-- The ends of a new connection: the kind of the output, and the input. -/
def ends (g : Graph κ) (source : OutputPlace) (target : InputPlace) :
    Except EndpointError (ValueKind × Port) := do
  let sourceNode ← g.endpoint source.node
  let targetNode ← g.endpoint target.node
  let kind ← outputKind sourceNode source.output
  let port ← inputPort targetNode target.input
  return (kind, port)

/-- The list with a connection in place of the one with the same target, or else at the end. -/
def placed (c : Connection) (cs : List Connection) : List Connection :=
  if cs.any fun d => d.target = c.target then
    cs.map fun d => if d.target = c.target then c else d
  else cs ++ [c]

/-- Connects an output with an input. A connection that fed the input before is replaced. -/
def connect (g : Graph κ) (id : ConnectionId) (source : OutputPlace) (target : InputPlace) :
    Except ConnectError (Connection × Graph κ) := do
  let (kind, port) ← (g.ends source target).mapError .invalidEndpoint
  if port.accepts kind then
    let c : Connection := ⟨id, source, target⟩
    return (c, { g with connections := placed c g.connections })
  else throw (.kindMismatch kind port.accepted)

/-- The position of a port among the ports of its own direction, which has to be the expected
one. -/
def directed (g : Graph κ) (place : PortPlace) (expected : Direction) :
    Except EndpointError Nat := do
  let n ← g.endpoint place.node
  match n.ports[place.port]? with
  | none => throw (.noSuchPort place.node place.port)
  | some p =>
    if p.direction = expected then
      match expected with
      | .input => return place.port
      | .output => return place.port - n.inputs.length
    else throw (.wrongDirection place.node place.port expected)

/-- Connects two ports that are given by their position among all ports of their nodes. -/
def connectPorts (g : Graph κ) (id : ConnectionId) (source target : PortPlace) :
    Except ConnectError (Connection × Graph κ) := do
  let output ← (g.directed source .output).mapError .invalidEndpoint
  let input ← (g.directed target .input).mapError .invalidEndpoint
  g.connect id ⟨source.node, output⟩ ⟨target.node, input⟩

/-! ## Disconnecting -/

/-- Removes a connection that the graph has. -/
def drop (g : Graph κ) (c : Connection) : Graph κ :=
  { g with connections := g.connections.filter fun d => d.target ≠ c.target }

/-- Removes the connection that feeds an input. -/
def disconnect? (g : Graph κ) (target : InputPlace) : Option (Connection × Graph κ) :=
  (g.connectionTo? target).map fun c => (c, g.drop c)

/-- Removes a connection by its number. -/
def disconnectId? (g : Graph κ) (id : ConnectionId) : Option (Connection × Graph κ) :=
  (g.connections.find? fun c => c.id = id).map fun c => (c, g.drop c)

end Graph

end TextureFlow
