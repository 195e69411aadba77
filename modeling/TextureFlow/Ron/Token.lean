import TextureFlow.Ron.Blank
import TextureFlow.Ron.Quotation
import TextureFlow.Text.Identifier

/-!
# Tokens of RON

The words of a RON text. Numbers are kept as they are written, because how one is read depends on
the type that is wanted.
-/

namespace TextureFlow
namespace Ron

/-- A word of a RON text. -/
inductive Token where
  /-- One of the characters that stand for themselves: brackets, comma, colon, and the marks of an
  attribute. -/
  | sign (c : Char)
  /-- An opening round bracket, with the text behind it for those who look ahead. -/
  | round (inside : List Char)
  /-- Two round brackets with nothing between them, not even blank space. -/
  | unit
  | identifier (name : String)
  /-- An identifier that is marked as one, so that it is nothing but a name. -/
  | rawIdentifier (name : String)
  | text (s : String)
  | number (written : List Char)
  /-- A byte literal. -/
  | byte (value : UInt8)
  /-- A character or byte string, which no type of this library is read from. -/
  | otherLiteral
deriving DecidableEq, Repr

/-- The name that an identifier of either kind gives. -/
def Token.name? : Token → Option String
  | identifier name => some name
  | rawIdentifier name => some name
  | _ => none

/-- The characters that are tokens by themselves. -/
def isSign (c : Char) : Bool :=
  [')', '[', ']', '\x7b', '\x7d', ',', ':', '#', '!'].contains c

/-- Whether a number may start with a character. -/
def isNumberFirst (c : Char) : Bool :=
  c.isDigit || ['+', '-', '.'].contains c

/-- Whether a character belongs to a number that has started. -/
def isNumberRest (c : Char) : Bool :=
  isNumberFirst c || c.isAlpha || c = '_'

/-- Whether a character may stand in an identifier that is marked as one. -/
def isRawIdentifier (c : Char) : Bool :=
  ['.', '+', '-'].contains c || Text.isIdentifierRest c

/-- A run of characters with a property as a token, and what follows it. -/
def spanToken (p : Char → Bool) (token : List Char → Token) (cs : List Char) : Token × List Char :=
  (token (cs.takeWhile p), cs.dropWhile p)

/-- A text, from behind its first quote on. -/
def textToken (cs : List Char) : Option (Token × List Char) := do
  let (pieces, rest) ← (quoted '"' cs).closed?
  let s ← textOf? pieces
  return (.text s, rest)

/-- A raw text, from its `#`s on. -/
def rawTextToken (cs : List Char) : Option (Token × List Char) :=
  (rawQuotation cs).map fun (found, rest) => (.text (String.ofList found), rest)

/-- A byte string, from behind its first quote on. Its bytes need not be UTF-8. -/
def byteStringToken (cs : List Char) : Option (Token × List Char) :=
  (quoted '"' cs).closed?.map fun (_, rest) => (.otherLiteral, rest)

/-- A raw byte string, from its `#`s on. -/
def rawByteStringToken (cs : List Char) : Option (Token × List Char) :=
  (rawQuotation cs).map fun (_, rest) => (.otherLiteral, rest)

/-- A character literal, from behind its first quote on. -/
def charToken (cs : List Char) : Option (Token × List Char) := do
  let (piece, rest) ← onePiece cs
  let _ ← piece.char?
  return (.otherLiteral, rest)

/-- A byte literal, from behind its first quote on. -/
def byteToken (cs : List Char) : Option (Token × List Char) := do
  let (piece, rest) ← onePiece cs
  let value ← piece.byte?
  return (.byte value, rest)

/-- The first token of a text that does not begin with a gap, and what follows it. -/
def firstToken (cs : List Char) : Option (Token × List Char) :=
  match cs with
  | [] => none
  | '"' :: rest => textToken rest
  | 'r' :: '"' :: rest => rawTextToken ('"' :: rest)
  | 'r' :: '#' :: '"' :: rest => rawTextToken ('#' :: '"' :: rest)
  | 'r' :: '#' :: '#' :: rest => rawTextToken ('#' :: '#' :: rest)
  | 'r' :: '#' :: rest =>
    if rest.head?.any isRawIdentifier then
      some (spanToken isRawIdentifier (fun name => .rawIdentifier (String.ofList name)) rest)
    else none
  | 'b' :: '"' :: rest => byteStringToken rest
  | 'b' :: '\'' :: rest => byteToken rest
  | 'b' :: 'r' :: '"' :: rest => rawByteStringToken ('"' :: rest)
  | 'b' :: 'r' :: '#' :: rest => rawByteStringToken ('#' :: rest)
  | '\'' :: rest => charToken rest
  | '(' :: ')' :: rest => some (.unit, rest)
  | '(' :: rest => some (.round rest, rest)
  | c :: rest =>
    if isSign c then some (.sign c, rest)
    else if isNumberFirst c then some (spanToken isNumberRest .number cs)
    else if Text.isIdentifierFirst c then
      some (spanToken Text.isIdentifierRest (fun name => .identifier (String.ofList name)) cs)
    else none

/-- All tokens of a text. The first argument bounds their number. -/
def tokensUpTo : Nat → List Char → Option (List Token)
  | 0, _ => none
  | bound + 1, cs =>
    match skipGap .blank cs with
    | none => none
    | some [] => some []
    | some cs => (firstToken cs).bind fun p => (tokensUpTo bound p.2).map (p.1 :: ·)

/-- All tokens of a text, or none when some part of it is no token. -/
def tokens (s : String) : Option (List Token) :=
  tokensUpTo (s.length + 1) s.toList

end Ron
end TextureFlow
