import TextureFlow.Script.Build
import TextureFlow.Script.Recorded

/-!
# Running a script

A run builds the graph of a script and then does its passes one after the other. Before each pass
the edits that are scheduled for it are made, in the order of the script. After the last pass the
exported nodes are read. The first edit, pass or export that is refused stops the run; a node that
fails does not.
-/

namespace TextureFlow

/-! ## What a run gives -/

/-- The outputs of an exported node after the last pass. -/
structure Export where
  key : String
  outputs : List (Option Value)
deriving DecidableEq, Repr

/-- What a run gives: a report for every pass, and the exports. -/
structure Summary where
  reports : List Report
  exports : List Export
deriving DecidableEq, Repr

namespace Summary

/-- How many times a node failed in a pass. -/
def failures (s : Summary) : Nat :=
  s.reports.foldl (fun n r => n + r.failures.length) 0

end Summary

/-- What happens in a run. -/
inductive RunEvent where
  /-- An edit was made before a pass. -/
  | edited (pass : Nat) (edit : EditSpec)
  /-- A pass was refused. -/
  | refused (error : EvaluationError)
  /-- A pass was done. -/
  | passed (pass : Nat) (report : Report)
  /-- A node failed in a pass that was done. -/
  | nodeFailed (pass : Nat) (key : String) (error : ComputeError)
  /-- An output of an exported node was read. -/
  | exported (key : String) (output : Nat) (value : Option Value)
deriving DecidableEq, Repr

/-- A part of a run. -/
abbrev Run (α : Type) := Recorded RunEvent ScriptError α

namespace Built

variable {κ : Type} [Kernel κ]

/-! ## Passes -/

/-- Makes an edit. -/
def edit (b : Built κ) (e : EditSpec) : Except ScriptError (Built κ) := do
  let id ← b.id e.node
  match b.graph.node? id with
  | none => throw (.unknownNode e.node)
  | some n =>
    let n ← (n.setParameter e.parameter e.value).mapError (.parameter e.node)
    return { b with graph := b.graph.setNode n }

/-- Makes an edit before a pass. -/
def editBefore (pass : Nat) (b : Built κ) (e : EditSpec) : Run (Built κ) := do
  let b ← .ofResult (b.edit e)
  .log [.edited pass e]
  return b

/-- The key of a node. -/
def keyOf (b : Built κ) (id : NodeId) : String :=
  ((b.keys.entries.find? fun e => e.2 = id).map Prod.fst).getD "?"

/-- Evaluates the graph. -/
def evaluate (settings : Settings) (pass : Nat) (b : Built κ) : Run (Built κ × Report) :=
  match b.graph.evaluate settings with
  | .ok (graph, report) =>
    let failed := report.failures.map fun f => .nodeFailed pass (b.keyOf f.1) f.2
    ⟨.passed pass report :: failed, .ok ({ b with graph }, report)⟩
  | .error e => ⟨[.refused e], .error (.evaluation e)⟩

/-- Makes the edits before a pass and does the pass. -/
def runPass (s : Script) (settings : Settings) (pass : Nat) (b : Built κ) :
    Run (Built κ × Report) := do
  let b ← (s.editsBefore pass).foldlM (editBefore pass) b
  b.evaluate settings pass

/-- Does a pass and puts its report before those of earlier passes. -/
def runNext (s : Script) (settings : Settings) (pass : Nat) (done : Built κ × List Report) :
    Run (Built κ × List Report) := do
  let (b, report) ← done.1.runPass s settings pass
  return (b, report :: done.2)

/-- Does so many passes and gives their reports, the latest first. -/
def runPasses (s : Script) (settings : Settings) (b : Built κ) (passes : Nat) :
    Run (Built κ × List Report) :=
  .steps (runNext s settings) (b, []) passes

/-! ## Exports -/

/-- The outputs of a node. -/
def outputs (b : Built κ) (id : NodeId) : List (Option Value) :=
  (b.graph.node? id).elim [] fun n => n.outputs.map Port.value

/-- Reads the outputs of a node and puts them before those that were read already. -/
def readExport (b : Built κ) (others : List Export) (key : String) : Run (List Export) := do
  let id ← .ofResult (b.id key)
  .log ((b.outputs id).mapIdx fun output value => .exported key output value)
  return ⟨key, b.outputs id⟩ :: others

/-- Does the passes of a script and reads its exports. -/
def finish (s : Script) (settings : Settings) (b : Built κ) : Run Summary := do
  let (b, reports) ← b.runPasses s settings s.passes
  let exports ← s.exports.foldlM b.readExport []
  return ⟨reports.reverse, exports.reverse⟩

end Built

/-- Runs a script. -/
def Script.run {κ : Type} [Kernel κ] (registry : Registry κ) (settings : Settings) (s : Script) :
    Run Summary := do
  let b ← .ofResult (s.build registry)
  b.finish s settings

end TextureFlow
