/-!
# Arguments

The command line names one script and may name a file of settings; of several such files the last
one counts. Arguments are read from left to right, and the first one that cannot be used decides the
error.
-/

namespace TextureFlow
namespace CommandLine

/-- What the command line asks for. -/
structure Arguments where
  script : String
  settings : Option String
deriving DecidableEq, Repr

/-- Why a command line cannot be used. -/
inductive UsageError where
  /-- Help was asked for. -/
  | help
  | noScript
  /-- The settings have no path. -/
  | noSettingsPath
  /-- A second script. -/
  | unexpected (argument : String)
deriving DecidableEq, Repr

/-- How the program is called. -/
def usage : String :=
  "usage: texgraph <script.ron> [--settings <settings.ron>]"

/-- The error as a user reads it. -/
def UsageError.message : UsageError → String
  | help => usage
  | noScript => usage
  | noSettingsPath => s!"--settings needs a path\n{usage}"
  | unexpected argument => s!"unexpected argument '{argument}'\n{usage}"

namespace Arguments

/-- Reads arguments after others that named these files. -/
def parseFrom (script settings : Option String) : List String → Except UsageError Arguments
  | [] =>
    match script with
    | some script => .ok ⟨script, settings⟩
    | none => .error .noScript
  | "--settings" :: rest =>
    match rest with
    | path :: rest => parseFrom script (some path) rest
    | [] => .error .noSettingsPath
  | "-h" :: _ => .error .help
  | "--help" :: _ => .error .help
  | argument :: rest =>
    match script with
    | none => parseFrom (some argument) settings rest
    | some _ => .error (.unexpected argument)

/-- Reads a command line. -/
def parse (arguments : List String) : Except UsageError Arguments :=
  parseFrom none none arguments

end Arguments

end CommandLine
end TextureFlow
