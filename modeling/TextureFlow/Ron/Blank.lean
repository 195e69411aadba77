/-!
# Blank space and comments

Between two tokens of a RON text there may be blank space, comments to the end of a line, and block
comments, which nest.
-/

namespace TextureFlow
namespace Ron

/-- The characters of blank space: Unicode's pattern white space. -/
def isBlank (c : Char) : Bool :=
  [' ', '\t', '\n', '\r', '\x0b', '\x0c', '\u0085', '\u200e', '\u200f', '\u2028',
    '\u2029'].contains c

/-- Where the text between tokens stands. -/
inductive Gap where
  | blank
  | line
  /-- In block comments that are open around this one. -/
  | block (depth : Nat)
deriving DecidableEq, Repr

/-- The text from the next token on, or none when a comment is malformed or a block is never
closed. -/
def skipGap : Gap → List Char → Option (List Char)
  | .blank, '/' :: '/' :: rest => skipGap .line rest
  | .blank, '/' :: '*' :: rest => skipGap (.block 0) rest
  | .blank, '/' :: _ => none
  | .blank, c :: rest => if isBlank c then skipGap .blank rest else some (c :: rest)
  | .blank, [] => some []
  | .line, '\n' :: rest => skipGap .blank rest
  | .line, _ :: rest => skipGap .line rest
  | .line, [] => some []
  | .block depth, '/' :: '*' :: rest => skipGap (.block (depth + 1)) rest
  | .block 0, '*' :: '/' :: rest => skipGap .blank rest
  | .block (depth + 1), '*' :: '/' :: rest => skipGap (.block depth) rest
  | .block depth, _ :: rest => skipGap (.block depth) rest
  | .block _, [] => none

end Ron
end TextureFlow
