import TextureFlow.Value.Basic

/-!
# Ports

A port is a typed place on a node. An input falls back on a value of its own while nothing is
connected to it; an input without such a fallback is required. Every write is stamped with a
generation, so that whether a value was rewritten can be told without comparing values. Generation
`0` means that the value is the fallback, or that nothing was ever written: a port is built with it,
and only passes stamp ports.

Generations are natural numbers where a machine has counters of 64 bits. They are counted up by one,
compared and shown, and a counter that is full would stop the pass, so no pass that succeeds can
tell the difference.
-/

namespace TextureFlow

/-- Which way values pass through a port. -/
inductive Direction where
  | input
  | output
deriving DecidableEq, Repr

/-- The direction as a user reads it. -/
def Direction.text : Direction → String
  | input => "Input"
  | output => "Output"

/-- A typed place on a node. A port that was built, but not written to, is at generation `0`. -/
structure Port where
  name : String
  direction : Direction
  accepted : Accepted
  fallback : Option Value
  value : Option Value
  generation : Nat
deriving DecidableEq, Repr

namespace Port

/-! ## Building a port -/

/-- An input that falls back on the zero of its first accepted kind. -/
def input (name : String) (accepted : Accepted) : Port :=
  let zero := accepted.primary?.map ValueKind.zero
  { name, direction := .input, accepted, fallback := zero, value := zero, generation := 0 }

/-- An output, which holds nothing yet. -/
def output (name : String) (kind : ValueKind) : Port :=
  { name, direction := .output, accepted := .single kind, fallback := none, value := none,
    generation := 0 }

/-- The port with a fallback, which is also its value. -/
def withFallback (p : Port) (v : Value) : Port :=
  { p with fallback := some v, value := some v }

/-- The port without a fallback. -/
def required (p : Port) : Port :=
  { p with fallback := none, value := none }

/-! ## Questions -/

/-- Whether this is an input with nothing to fall back on. -/
def isRequired (p : Port) : Bool :=
  p.direction = .input && p.fallback.isNone

/-- The one kind that an output declares. -/
def emits? (p : Port) : Option ValueKind :=
  match p.direction, p.accepted with
  | .output, .single k => some k
  | _, _ => none

/-- Whether a value of this kind may flow into the port. -/
def accepts (p : Port) (k : ValueKind) : Bool :=
  p.accepted.contains k

/-- Whether a connection may lead from `p` to `q`. -/
def canConnect (p q : Port) : Bool :=
  q.direction = .input && p.emits?.any q.accepts

/-! ## Values over time -/

/-- Overwrites the value and stamps it. -/
def write (p : Port) (v : Value) (generation : Nat) : Port :=
  { p with value := some v, generation }

/-- Back to the fallback, at generation `0`. -/
def reset (p : Port) : Port :=
  { p with value := p.fallback, generation := 0 }

end Port

end TextureFlow
