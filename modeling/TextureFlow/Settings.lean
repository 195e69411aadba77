/-!
# Settings of the evaluator

Settings are kept in a text file beside a graph. Every field has a default, so a file may leave out
what it does not change.
-/

namespace TextureFlow

/-- How passes are run. -/
structure Settings where
  /-- The version of the format that the settings were written in. -/
  version : Nat
  /-- Whether memoized nodes may reuse their outputs; otherwise every node computes in every
  pass. -/
  memoization : Bool
  /-- Whether a pass ends with a summary in the log. -/
  logSummary : Bool
  /-- Whether outputs of a failed node that never held a value get the zero of their kind. -/
  zeroFill : Bool
deriving DecidableEq, Repr

namespace Settings

/-- The newest version of the format. -/
def currentVersion : Nat :=
  1

/-- The file that holds the settings of the graphs beside it. -/
def fileName : String :=
  "texture_graph.ron"

/-- The settings in force when nothing is said. -/
def standard : Settings :=
  ⟨currentVersion, true, true, true⟩

end Settings

end TextureFlow
