import TextureFlow.Table

/-!
# Files

The files that a run can see: a tree of directories in which every file is a text. A path is read
part by part. Empty parts and `.` stay where they are, `..` goes one directory up, and every part
but the last has to lead to a directory. Paths and their parts have a greatest length, which is
counted in bytes.

Of what is outside of the tree only as much is known as every system has: directories above the
tree, the common directories at the root, and the device that reads as an empty text.
-/

namespace TextureFlow

/-! ## Errors -/

/-- Why a file cannot be read or written. -/
inductive FileError where
  | notFound
  | notDirectory
  | isDirectory
  | nameTooLong
  | notText
  /-- Another reason, as the system words it. -/
  | system (code : Nat) (reason : String)
deriving DecidableEq, Repr

/-- The error as a user reads it. -/
def FileError.message : FileError → String
  | notFound => "No such file or directory (os error 2)"
  | notDirectory => "Not a directory (os error 20)"
  | isDirectory => "Is a directory (os error 21)"
  | nameTooLong => "File name too long (os error 36)"
  | notText => "stream did not contain valid UTF-8"
  | system code reason => s!"{reason} (os error {code})"

/-! ## Paths -/

namespace Path

/-- The parts of a path between its slashes. -/
def parts (path : String) : List String :=
  path.splitOn "/"

/-- Whether a part of a path leads nowhere. -/
def stays (part : String) : Bool :=
  part = "" || part = "."

/-- The parts up to the last one that leads somewhere. In front of a relative path, `.` counts as
the directory that the path starts from. -/
def significant : List String → List String
  | [] => []
  | first :: rest => first :: (rest.reverse.dropWhile stays).reverse

/-- The greatest length of a path. -/
def maxLength : Nat :=
  4095

/-- The greatest length of a part that leads somewhere. -/
def maxPartLength : Nat :=
  255

/-- Refuses a path that leads nowhere whatever files there are: an empty one, and one that is too
long. -/
def check (path : String) : Except FileError Unit :=
  if path.isEmpty then .error .notFound
  else if maxLength < path.utf8ByteSize then .error .nameTooLong
  else .ok ()

/-- The path of a file in the directory that holds another one. An empty path and the root are in no
directory. -/
def beside? (path name : String) : Option String :=
  match significant (parts path) with
  | [] => none
  | [""] => none
  | found => some ("/".intercalate (significant found.dropLast ++ [name]))

end Path

/-! ## The tree -/

/-- A tree of files: the text of each, by the names on the way to it. -/
structure Files where
  texts : Table (List String) String

/-- What a path leads to. -/
inductive FileEntry where
  | file (text : String)
  /-- The directory at the end of these names. -/
  | directory (names : List String)
  /-- A directory above the tree. -/
  | above
  /-- The directory at the end of these names from the root of the system on. -/
  | system (names : List String)
deriving DecidableEq, Repr

namespace Files

/-- The tree without files. -/
def empty : Files :=
  ⟨.empty⟩

/-! ### What every system has -/

/-- The directories at the root of every system. -/
def rootDirectories : List String :=
  ["bin", "boot", "dev", "etc", "home", "lib", "media", "mnt", "opt", "proc", "root", "run", "sbin",
    "srv", "sys", "tmp", "usr", "var"]

/-- What stands at the end of some names from the root of the system on. -/
def systemEntry? (names : List String) : Option FileEntry :=
  match names with
  | [name] => if rootDirectories.contains name then some (.system [name]) else none
  | ["dev", "null"] => some (.file "")
  | _ => none

/-! ### Following a path -/

/-- What stands at the end of some names. A directory is there as long as it holds a file. -/
def entry? (fs : Files) (names : List String) : Option FileEntry :=
  match fs.texts.find? names with
  | some text => some (.file text)
  | none =>
    if fs.texts.keys.any fun path => names.isPrefixOf path then some (.directory names) else none

/-- The directory that holds a directory. -/
def parent (names : List String) : FileEntry :=
  if names.isEmpty then .above else .directory names.dropLast

/-- What a part leads to that neither stays nor goes up. -/
def child (fs : Files) (e : FileEntry) (part : String) : Except FileError FileEntry :=
  let found : Option FileEntry :=
    match e with
    | .file _ => none
    | .directory names => fs.entry? (names ++ [part])
    | .above => none
    | .system names => systemEntry? (names ++ [part])
  if Path.maxPartLength < part.utf8ByteSize then .error .nameTooLong
  else
    match found with
    | some e => .ok e
    | none => .error .notFound

/-- What the part `..` leads to. -/
def up : FileEntry → FileEntry
  | .file text => .file text
  | .directory names => parent names
  | .above => .above
  | .system names => .system names.dropLast

/-- Follows the parts of a path from an entry on. -/
def walk (fs : Files) : FileEntry → List String → Except FileError FileEntry
  | e, [] => .ok e
  | .file _, _ :: _ => .error .notDirectory
  | e, part :: rest =>
    if Path.stays part then walk fs e rest
    else if part = ".." then walk fs (up e) rest
    else (fs.child e part).bind fun e => walk fs e rest

/-- Where a path starts: an absolute one at the root of the system, and a relative one in the
tree. -/
def start (path : String) : FileEntry :=
  if path.startsWith "/" then .system [] else .directory []

/-- The text of a file. -/
def read (fs : Files) (path : String) : Except FileError String := do
  Path.check path
  match ← fs.walk (start path) (Path.parts path) with
  | .file text => return text
  | _ => throw .isDirectory

/-- Whether a path leads to a file. -/
def isFile (fs : Files) (path : String) : Bool :=
  (fs.read path).isOk

/-- Gives a file another text, or creates it in a directory that exists. -/
def write (fs : Files) (path text : String) : Except FileError Files := do
  Path.check path
  let parts := Path.parts path
  let name := parts.getLastD ""
  match ← fs.walk (start path) parts.dropLast with
  | .file _ => throw .notDirectory
  | .above => throw .notFound
  | .system _ => throw .notFound
  | .directory names =>
    if Path.stays name || name = ".." then throw .isDirectory
    else if Path.maxPartLength < name.utf8ByteSize then throw .nameTooLong
    else
      match fs.entry? (names ++ [name]) with
      | some (.directory _) => throw .isDirectory
      | _ => return ⟨fs.texts.put (names ++ [name]) text⟩

end Files

end TextureFlow
