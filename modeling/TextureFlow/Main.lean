import TextureFlow.CommandLine.Program

/-!
# The command line

Shows the program the files of the system and prints what it leaves behind.
-/

namespace TextureFlow
namespace CommandLine

/-- The error of a code of the system, which some calls report with a minus sign. -/
def codedError (code : UInt32) (reason : String) : FileError :=
  let size := if code < 0x80000000 then code else 0 - code
  if size = 20 then .notDirectory
  else if size = 21 then .isDirectory
  else if size = 36 then .nameTooLong
  else .system size.toNat reason

/-- Why a file of the system cannot be read. -/
def fileError : IO.Error → FileError
  | .noFileOrDirectory .. => .notFound
  | .inappropriateType _ code reason => codedError code reason
  | .permissionDenied _ code reason => codedError code reason
  | .invalidArgument _ code reason => codedError code reason
  | .resourceExhausted _ code reason => codedError code reason
  | .otherError code reason => codedError code reason
  | .userError _ => .notText
  | _ => .system 5 "Input/output error"

/-- Reads a file of the system. -/
def readSystemFile (path : String) : IO (Except FileError String) := do
  match ← (IO.FS.readFile path).toBaseIO with
  | .ok text => return .ok text
  | .error e => return .error (fileError e)

/-- Whether a path of the system leads to a file. -/
def isSystemFile (path : String) : IO Bool := do
  match ← readSystemFile path with
  | .ok _ => return true
  | .error .notText => return true
  | .error (.system ..) => return true
  | .error _ => return false

end CommandLine
end TextureFlow

open TextureFlow CommandLine in
/-- Runs the program on the files of the system. -/
def main (arguments : List String) : IO UInt32 := do
  let outcome ← FileView.run ⟨readSystemFile, isSystemFile⟩ arguments
  for entry in outcome.log do
    IO.println entry.text
  IO.eprint outcome.complaint
  return outcome.code.toUInt32
