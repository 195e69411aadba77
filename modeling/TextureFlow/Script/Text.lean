import TextureFlow.Script.Basic
import TextureFlow.Script.Values

/-!
# The text of scripts

Scripts are read from RON. Only the list of nodes has to be there; a script without a version is of
the first one. A text of a newer version is refused.
-/

namespace TextureFlow

open Ron

namespace Script

/-- A node. -/
def node : Decoder NodeSpec :=
  .record "NodeSpec" (.fields ⟨"", "", none, .empty, .empty⟩ ["key", "kind"]
    [Decoder.field "key" .text fun x node => { node with key := x },
      Decoder.field "kind" .text fun x node => { node with kind := x },
      Decoder.field "strategy" (.optional strategy) fun x node => { node with strategy := x },
      Decoder.field "params" (.table .text parameter) fun x node => { node with parameters := x },
      Decoder.field "defaults" (.table (.word 64) value) fun x node =>
        { node with fallbacks := x }])

/-- A connection. -/
def connection : Decoder ConnectionSpec :=
  .record "ConnectionSpec" (.fields ⟨"", 0, "", 0⟩ ["from", "to"]
    [Decoder.field "from" (.pair .text (.word 64)) fun x c =>
        { c with source := x.1, output := x.2 },
      Decoder.field "to" (.pair .text (.word 64)) fun x c =>
        { c with target := x.1, input := x.2 }])

/-- An edit. -/
def edit : Decoder EditSpec :=
  .record "EditSpec" (.fields ⟨0, "", "", .scalar 0⟩ ["before_pass", "node", "param", "value"]
    [Decoder.field "before_pass" (.word 32) fun x edit => { edit with beforePass := x },
      Decoder.field "node" .text fun x edit => { edit with node := x },
      Decoder.field "param" .text fun x edit => { edit with parameter := x },
      Decoder.field "value" parameter fun x edit => { edit with value := x }])

/-- A script. -/
def decoder : Decoder Script :=
  .record "GraphScript" (.fields ⟨0, "Untitled", [], [], [], 1, []⟩ ["nodes"]
    [Decoder.field "version" (.word 32) fun x script => { script with version := x },
      Decoder.field "name" .text fun x script => { script with name := x },
      Decoder.field "nodes" (.list node) fun x script => { script with nodes := x },
      Decoder.field "connections" (.list connection) fun x script =>
        { script with connections := x },
      Decoder.field "edits" (.list edit) fun x script => { script with edits := x },
      Decoder.field "passes" (.word 32) fun x script => { script with passes := x },
      Decoder.field "exports" (.list .text) fun x script => { script with exports := x }])

/-- Reads a script. -/
def ofRon (s : String) : Except ScriptError Script :=
  match decode? decoder s with
  | none => .error .malformed
  | some script =>
    if script.version > currentVersion then .error (.unsupportedVersion script.version)
    else .ok script

end Script

end TextureFlow
