import TextureFlow.Catalogue.Registry
import TextureFlow.CommandLine.Arguments
import TextureFlow.CommandLine.Log
import TextureFlow.Script.Text
import TextureFlow.Settings.Text

/-!
# The program

Runs the script that the command line names, with the settings that it names, or else with those in
a file beside the script, or else with the standard ones. Settings are read before the script.

The program sees files through two questions, so that the same definition runs on the files of the
system and on a tree of files that is given as a value.
-/

namespace TextureFlow
namespace CommandLine

/-! ## Outcomes -/

/-- Why the program fails. -/
inductive ProgramError where
  | file (error : FileError)
  | settings (error : SettingsError)
  | script (error : ScriptError)
deriving DecidableEq, Repr

/-- The error as a user reads it. -/
def ProgramError.message : ProgramError → String
  | file error => s!"IO error: {error.message}"
  | settings error => s!"Settings error: {error.message}"
  | script error => error.message

/-- What the program leaves behind. -/
structure Outcome where
  /-- `0` for success, `1` for a failure and `2` for a command line that cannot be used. -/
  code : Nat
  log : List LogEntry
  /-- What is said outside of the log. -/
  complaint : String
deriving DecidableEq, Repr

namespace Outcome

/-- The first entry of every log. -/
def greeting : LogEntry :=
  .main .info "Starting texgraph v0.1.0" []

/-- A command line that cannot be used. -/
def misused (e : UsageError) : Outcome :=
  ⟨2, [greeting], e.message ++ "\n"⟩

/-- A failure after some entries. -/
def failed (log : List LogEntry) (e : ProgramError) : Outcome :=
  ⟨1, greeting :: log ++ [.main .error s!"texgraph failed: {e.message}" []], ""⟩

/-- A success. -/
def finished (log : List LogEntry) (summary : Summary) : Outcome :=
  let fields := [("passes", toString summary.reports.length),
    ("failures", toString summary.failures)]
  ⟨0, greeting :: log ++ [.main .info "run finished" fields], ""⟩

/-- What comes of a script under settings. -/
def ofScript (settings : Settings) (s : Script) : Outcome :=
  let loaded : LogEntry := .main .info "loaded script" [("graph", s.name),
    ("nodes", toString s.nodes.length), ("passes", toString s.passes)]
  let course := s.run Builtin.registry settings
  let log := loaded :: course.events.flatMap (entries s settings)
  match course.result with
  | .ok summary => finished log summary
  | .error e => failed log (.script e)

end Outcome

/-! ## Running -/

/-- How the program sees files. -/
structure FileView (m : Type → Type) where
  /-- The text of a file. -/
  read : String → m (Except FileError String)
  /-- Whether a path leads to a file. -/
  isFile : String → m Bool

namespace FileView

variable {m : Type → Type} [Monad m]

/-- The file that holds the settings, if any. -/
def settingsPath (view : FileView m) (a : Arguments) : m (Option String) :=
  match a.settings with
  | some path => pure (some path)
  | none =>
    match Path.beside? a.script Settings.fileName with
    | none => pure none
    | some path => do return if ← view.isFile path then some path else none

/-- The settings of a command line. -/
def settings (view : FileView m) (a : Arguments) : m (Except SettingsError Settings) := do
  match ← view.settingsPath a with
  | none => return .ok .standard
  | some path =>
    match ← view.read path with
    | .ok text => return Settings.ofRon text
    | .error e => return .error (.file e)

/-- Runs the program on a command line that can be used. -/
def execute (view : FileView m) (a : Arguments) : m Outcome := do
  match ← view.settings a with
  | .error e => return .failed [] (.settings e)
  | .ok settings =>
    match ← view.read a.script with
    | .error e => return .failed [] (.file e)
    | .ok text =>
      match Script.ofRon text with
      | .error e => return .failed [] (.script e)
      | .ok s => return .ofScript settings s

/-- Runs the program. -/
def run (view : FileView m) (arguments : List String) : m Outcome :=
  match Arguments.parse arguments with
  | .error e => pure (.misused e)
  | .ok a => view.execute a

/-- The view of a tree of files. -/
def ofFiles (files : Files) : FileView Id where
  read path := files.read path
  isFile path := files.isFile path

end FileView

end CommandLine
end TextureFlow
