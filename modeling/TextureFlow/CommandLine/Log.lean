import TextureFlow.Script.Run
import TextureFlow.Text.Quoted
import TextureFlow.Value.Describe

/-!
# The log

What the program says while it works. An entry has a level, the part of the program that speaks, a
message, and fields; what is said during a pass stands inside a span that names the graph.
-/

namespace TextureFlow
namespace CommandLine

/-! ## Entries -/

/-- How much an entry matters. -/
inductive Level where
  | info
  | warn
  | error
deriving DecidableEq, Repr

/-- The level as a reader of the log sees it. -/
def Level.name : Level → String
  | info => "INFO"
  | warn => "WARN"
  | error => "ERROR"

/-- An entry of the log. -/
structure LogEntry where
  level : Level
  span : Option String
  /-- The part of the program that speaks. -/
  target : String
  message : String
  fields : List (String × String)
deriving DecidableEq, Repr

/-- A character of a message. Those that could steer a terminal are escaped. -/
def shownChar (c : Char) : List Char :=
  if c = '\x1b' then ['\\', 'x', '1', 'b']
  else if c = '\x07' then ['\\', 'x', '0', '7']
  else if c = '\x08' then ['\\', 'x', '0', '8']
  else if c = '\x0c' then ['\\', 'x', '0', 'c']
  else if c = '\x7f' then ['\\', 'x', '7', 'f']
  else if 0x80 ≤ c.toNat ∧ c.toNat ≤ 0x9f then Text.codeEscape c
  else [c]

/-- A message as it stands in the log. -/
def shown (message : String) : String :=
  String.ofList (message.toList.flatMap shownChar)

namespace LogEntry

/-- The text of an entry, which has more than one line when a text in it has. -/
def text (e : LogEntry) : String :=
  let span := e.span.elim "" fun s => s ++ ": "
  let parts := shown e.message :: e.fields.map fun p => p.1 ++ "=" ++ p.2
  e.level.name ++ " " ++ span ++ e.target ++ ": " ++ " ".intercalate parts

/-- An entry of the program itself. -/
def main (level : Level) (message : String) (fields : List (String × String)) : LogEntry :=
  ⟨level, none, "texgraph", message, fields⟩

/-- An entry about a run. -/
def run (level : Level) (message : String) (fields : List (String × String)) : LogEntry :=
  ⟨level, none, "texgraph::run", message, fields⟩

/-- An entry about a pass over the graph of a script. -/
def pass (s : Script) (level : Level) (message : String) (fields : List (String × String)) :
    LogEntry :=
  ⟨level, some s!"evaluate_pass\x7bgraph={s.name} nodes={s.nodes.length}\x7d",
    "ordoplay_texture_graph::evaluation", message, fields⟩

end LogEntry

/-! ## Entries of a run -/

/-- How many nodes did what in a pass. -/
def counts (r : Report) : List (String × String) := [
  ("computed", toString r.computed.length),
  ("reused", toString r.reused.length),
  ("failed", toString r.failures.length)]

/-- The entries about what happened in a run of a script. -/
def entries (s : Script) (settings : Settings) : RunEvent → List LogEntry
  | .edited pass e =>
    [.run .info "applied edit"
      [("pass", toString pass), ("node", e.node), ("param", e.parameter)]]
  | .refused (.cycle nodes) =>
    [.pass s .warn "refusing to evaluate cyclic graph" [("cycle", cycleText nodes)]]
  | .passed pass r =>
    let failed := r.failures.map fun f =>
      .pass s .warn "node failed" [("node", NodeId.text f.1), ("error", f.2.message)]
    let summary := if settings.logSummary then [.pass s .info "pass finished" (counts r)] else []
    failed ++ summary ++ [.run .info "pass complete" (("pass", toString pass) :: counts r)]
  | .nodeFailed pass key error =>
    [.run .warn "node failed"
      [("pass", toString pass), ("node", Text.quoted key), ("error", error.message)]]
  | .exported key output (some v) =>
    [.run .info "export"
      [("node", key), ("output", toString output), ("value", v.describe)]]
  | .exported key output none =>
    [.run .info "export (never computed)" [("node", key), ("output", toString output)]]

end CommandLine
end TextureFlow
