import TextureFlow.Graph.Pass
import TextureFlow.Table

/-!
# Scripts

A script describes a graph by nodes with keys of their own, says how many passes to run, which
parameters to edit before which pass, and which nodes to report at the end.
-/

namespace TextureFlow

/-! ## Parts of a script -/

/-- A node of a script. -/
structure NodeSpec where
  /-- The name by which the script refers to the node. -/
  key : String
  kind : String
  /-- The strategy, where it differs from that of the kind. -/
  strategy : Option Strategy
  parameters : Table String ParamValue
  /-- What inputs fall back on, by their position. -/
  fallbacks : Table Nat Value
deriving DecidableEq

/-- A connection of a script, from an output of one node to an input of another. -/
structure ConnectionSpec where
  source : String
  output : Nat
  target : String
  input : Nat
deriving DecidableEq, Repr

/-- An edit of a script: a parameter that changes before a pass. Passes are counted from `1`. -/
structure EditSpec where
  beforePass : Nat
  node : String
  parameter : String
  value : ParamValue
deriving DecidableEq, Repr

/-- A script. -/
structure Script where
  /-- The version of the format that the script was written in. -/
  version : Nat
  /-- The name of the graph. -/
  name : String
  nodes : List NodeSpec
  connections : List ConnectionSpec
  edits : List EditSpec
  /-- How many passes to run. -/
  passes : Nat
  /-- The nodes to report after the last pass. -/
  exports : List String
deriving DecidableEq

namespace Script

/-- The newest version of the format. -/
def currentVersion : Nat :=
  1

/-- The edits before one pass, in order. -/
def editsBefore (s : Script) (pass : Nat) : List EditSpec :=
  s.edits.filter fun e => e.beforePass = pass

end Script

/-! ## Errors -/

/-- Why a script cannot be run. -/
inductive ScriptError where
  | malformed
  /-- The script was written in a newer version of the format. -/
  | unsupportedVersion (found : Nat)
  | duplicateKey (key : String)
  | unknownNode (key : String)
  | unknownKind (key kind : String)
  /-- A parameter or a fallback of a node was refused. -/
  | parameter (key : String) (error : ParameterError)
  | connect (connection : ConnectionSpec) (error : ConnectError)
  /-- A pass was refused. -/
  | evaluation (error : EvaluationError)
deriving DecidableEq, Repr

/-- The error as a user reads it. -/
def ScriptError.message : ScriptError → String
  | malformed => "Parse error"
  | unsupportedVersion found =>
    s!"Script version {found} is newer than supported version {Script.currentVersion}"
  | duplicateKey key => s!"Duplicate node key '{key}'"
  | unknownNode key => s!"Unknown node key '{key}'"
  | unknownKind key kind => s!"Node '{key}' has unknown kind '{kind}'"
  | parameter key error => s!"Node '{key}': {error.message}"
  | connect c error =>
    s!"Cannot connect {c.source}.out[{c.output}] -> {c.target}.in[{c.input}]: {error.message}"
  | evaluation error => s!"Evaluation failed: {error.message}"

end TextureFlow
