import TextureFlow.Files
import TextureFlow.Ron.Decoder
import TextureFlow.Settings

/-!
# The text of settings

Settings are read from RON, where every field may be missing, and written with all fields, one a
line. A text of a newer version is refused, because its fields may mean something else.
-/

namespace TextureFlow

/-- Why settings cannot be read or written. -/
inductive SettingsError where
  | file (error : FileError)
  | malformed
  /-- The text was written in a newer version of the format. -/
  | unsupportedVersion (found : Nat)
deriving DecidableEq, Repr

/-- The error as a user reads it. -/
def SettingsError.message : SettingsError → String
  | file error => s!"IO error: {error.message}"
  | malformed => "Parse error"
  | unsupportedVersion found =>
    s!"Settings version {found} is newer than supported version {Settings.currentVersion}"

open Ron

namespace Settings

/-- Settings in RON. -/
def decoder : Decoder Settings :=
  .record "EvaluatorSettings" (.fields standard []
    [Decoder.field "version" (.word 32) fun x s => { s with version := x },
      Decoder.field "memoization" .bool fun x s => { s with memoization := x },
      Decoder.field "log_pass_summary" .bool fun x s => { s with logSummary := x },
      Decoder.field "zero_fill_failed_outputs" .bool fun x s => { s with zeroFill := x }])

/-- Reads settings. -/
def ofRon (s : String) : Except SettingsError Settings :=
  match decode? decoder s with
  | none => .error .malformed
  | some settings =>
    if settings.version > currentVersion then .error (.unsupportedVersion settings.version)
    else .ok settings

/-- One field of a written structure. -/
def fieldLine (name value : String) : String :=
  s!"    {name}: {value},\n"

/-- Writes settings. -/
def toRon (settings : Settings) : String :=
  "EvaluatorSettings(\n"
    ++ fieldLine "version" (toString settings.version)
    ++ fieldLine "memoization" (toString settings.memoization)
    ++ fieldLine "log_pass_summary" (toString settings.logSummary)
    ++ fieldLine "zero_fill_failed_outputs" (toString settings.zeroFill)
    ++ ")"

/-- Reads the settings of a file. -/
def load (files : Files) (path : String) : Except SettingsError Settings :=
  match files.read path with
  | .ok text => ofRon text
  | .error e => .error (.file e)

/-- Writes settings to a file. -/
def save (settings : Settings) (files : Files) (path : String) : Except SettingsError Files :=
  (files.write path settings.toRon).mapError .file

end Settings

end TextureFlow
