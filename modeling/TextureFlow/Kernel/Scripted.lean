import TextureFlow.Kernel.Basic

/-!
# Scripted kernels

A kernel written down as data: its ports, the reads it performs, and what it answers when all reads
succeed. Such kernels can declare ports that no catalogue kernel has and can break their own
declarations, which is how the evaluator is tried on misbehaving nodes.
-/

namespace TextureFlow

/-- What a scripted kernel answers. -/
inductive ScriptedAnswer where
  /-- A failure with this text. -/
  | fails (text : String)
  /-- One scalar: this number plus all inputs, in order. -/
  | sumsFrom (start : Float32)
  /-- The inputs themselves. -/
  | forwards
  /-- These values. -/
  | emits (values : List Value)
deriving DecidableEq, Repr

/-- A kernel written down as data. -/
structure Scripted where
  layout : Layout
  reads : List (Accessor × Nat)
  answer : ScriptedAnswer
deriving DecidableEq, Repr

namespace Scripted

/-- Performs every read; the first that fails decides the error. -/
def performReads (inputs : Inputs) : List (Accessor × Nat) → Except ComputeError Unit
  | [] => .ok ()
  | (accessor, index) :: rest => do
    let _ ← accessor.read inputs index
    performReads inputs rest

/-- Adds the scalars at positions `index`, `index + 1`, ... of the inputs to a number. -/
def sumFrom (inputs : Inputs) (start : Float32) : Except ComputeError Float32 :=
  (List.range inputs.length).foldlM (fun sum index => (sum + ·) <$> inputs.scalar index) start

/-- The answer after all reads. -/
def compute (k : Scripted) (inputs : Inputs) : Except ComputeError (List Value) := do
  performReads inputs k.reads
  match k.answer with
  | .fails text => throw (.failed (.reported text))
  | .sumsFrom start => return [.scalar (← sumFrom inputs start)]
  | .forwards => return inputs
  | .emits values => return values

instance : Kernel Scripted where
  kind _ := "custom"
  displayName _ := "custom"
  layout := Scripted.layout
  strategy _ := .eager
  compute := compute
  parameters _ := []
  setParameter _ name _ := .error (.unknown "custom" name)
  badge? _ := none

end Scripted

end TextureFlow
