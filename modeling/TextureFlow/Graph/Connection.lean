import TextureFlow.Graph.Node

/-!
# Connections

A connection leads from one output of a node to one input of a node. Outputs and inputs are counted
separately; a `PortPlace` counts all ports of a node, inputs first.
-/

namespace TextureFlow

/-- An output of a node, by its position among the outputs. -/
structure OutputPlace where
  node : NodeId
  output : Nat
deriving DecidableEq, Repr

/-- The output as a user reads it. -/
def OutputPlace.text (p : OutputPlace) : String :=
  s!"{p.node.text}.out[{p.output}]"

/-- An input of a node, by its position among the inputs. -/
structure InputPlace where
  node : NodeId
  input : Nat
deriving DecidableEq, Repr

/-- The input as a user reads it. -/
def InputPlace.text (p : InputPlace) : String :=
  s!"{p.node.text}.in[{p.input}]"

/-- A place on a node, by its position among all its ports. -/
structure PortPlace where
  node : NodeId
  port : Nat
deriving DecidableEq, Repr

/-- The number by which a connection is known. It stands for an identifier that is drawn at random
when the connection is made: identifiers are only compared, and all of them are different, so the
running number of the connection does as well. -/
abbrev ConnectionId := Nat

/-- An edge of a graph. -/
structure Connection where
  id : ConnectionId
  source : OutputPlace
  target : InputPlace
deriving DecidableEq, Repr

namespace Connection

/-- Whether a node is at either end. -/
def involves (c : Connection) (node : NodeId) : Bool :=
  c.source.node = node || c.target.node = node

/-- The connection as a user reads it. -/
def text (c : Connection) : String :=
  s!"{c.source.text} -> {c.target.text}"

end Connection

/-! ## Why a connection is refused -/

/-- Why an end of a connection is not usable. -/
inductive EndpointError where
  | nodeNotFound (node : NodeId)
  | noSuchOutput (node : NodeId) (index : Nat)
  | noSuchInput (node : NodeId) (index : Nat)
  | noSuchPort (node : NodeId) (index : Nat)
  | wrongDirection (node : NodeId) (index : Nat) (expected : Direction)
deriving DecidableEq, Repr

/-- The error as a user reads it. -/
def EndpointError.message : EndpointError → String
  | nodeNotFound node => s!"Node not found: {node.text}"
  | noSuchOutput node index => s!"Node {node.text} has no output {index}"
  | noSuchInput node index => s!"Node {node.text} has no input {index}"
  | noSuchPort node index => s!"Node {node.text} has no port {index}"
  | wrongDirection node index expected =>
    s!"Port {index} on node {node.text} is not an {expected.text} port"

/-- Why a connection is refused. -/
inductive ConnectError where
  | kindMismatch (output : ValueKind) (accepted : Accepted)
  | invalidEndpoint (error : EndpointError)
deriving DecidableEq, Repr

/-- The error as a user reads it. -/
def ConnectError.message : ConnectError → String
  | kindMismatch output accepted =>
    s!"Type mismatch: {output.name} output cannot feed an input accepting {accepted.text}"
  | invalidEndpoint error => s!"Invalid endpoint: {error.message}"

end TextureFlow
