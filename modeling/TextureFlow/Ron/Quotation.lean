/-!
# Quoted text in RON

Text between double quotes may hold escapes; raw text stands between a quote and a quote followed by
as many `#` as came before the first one, and holds no escapes. Byte strings, byte literals and
character literals use the same escapes.

An escape of two hexadecimal digits stands for one byte. A character beyond ASCII can so be written
byte by byte in a text, whose bytes have to be UTF-8 as a whole.
-/

namespace TextureFlow
namespace Ron

/-- The value of a hexadecimal digit. -/
def hexDigit? (c : Char) : Option Nat :=
  if '0' ≤ c ∧ c ≤ '9' then some (c.toNat - 48)
  else if 'a' ≤ c ∧ c ≤ 'f' then some (c.toNat - 87)
  else if 'A' ≤ c ∧ c ≤ 'F' then some (c.toNat - 55)
  else none

/-- The character of a code point. -/
def charOf? (code : Nat) : Option Char :=
  if h : code.isValidChar then some (Char.ofNatAux code h) else none

/-- The character of an escape of one letter. -/
def simpleEscape? : Char → Option Char
  | '\'' => some '\''
  | '"' => some '"'
  | '\\' => some '\\'
  | 'n' => some '\n'
  | 'r' => some '\r'
  | 't' => some '\t'
  | '0' => some '\x00'
  | _ => none

/-! ## Parts of a quotation -/

/-- A part of a quotation. -/
inductive Piece where
  /-- A character that is written as itself or by an escape of one letter. -/
  | plain (c : Char)
  /-- An escape of two hexadecimal digits. -/
  | byte (value : UInt8)
  /-- An escape that gives a code point. -/
  | code (c : Char)
deriving DecidableEq, Repr

/-- The bytes that a part stands for. -/
def Piece.bytes : Piece → List UInt8
  | plain c => String.utf8EncodeChar c
  | byte value => [value]
  | code c => String.utf8EncodeChar c

/-- The text of a quotation, unless its bytes are not UTF-8. -/
def textOf? (pieces : List Piece) : Option String :=
  String.fromUTF8? ⟨(pieces.flatMap Piece.bytes).toArray⟩

/-- Where the text between two quotes stands. -/
inductive Escape where
  /-- Outside of escapes. -/
  | outside
  /-- After a backslash. -/
  | started
  /-- In an escape of two hexadecimal digits, after the first. -/
  | byte (first : Option Nat)
  /-- Before the bracket of a code point. -/
  | code
  /-- After so many digits of a code point, with this value. -/
  | digits (count value : Nat)
deriving DecidableEq, Repr

/-- What comes of reading a quotation. -/
inductive Quotation where
  /-- It has these parts, and this follows its closing mark. -/
  | closed (pieces : List Piece) (rest : List Char)
  /-- Behind these parts no closing mark follows any more. -/
  | endless (pieces : List Piece)
  /-- It holds an escape that does not exist. -/
  | malformed
deriving DecidableEq, Repr

/-- The parts of a quotation that ends, and what follows it. -/
def Quotation.closed? : Quotation → Option (List Piece × List Char)
  | closed pieces rest => some (pieces, rest)
  | _ => none

/-- Reads a quotation up to `close`, behind the parts already found, which stand in reverse. Only an
escape of one letter can use up a closing mark, so one is looked for anew behind an escape that
did. -/
def quotation (close : Char) : Escape → List Piece → List Char → Quotation
  | _, found, [] => .endless found.reverse
  | .outside, found, c :: rest =>
    if c = close then .closed found.reverse rest
    else if c = '\\' then quotation close .started found rest
    else quotation close .outside (.plain c :: found) rest
  | .started, found, c :: rest =>
    if c = 'x' then quotation close (.byte none) found rest
    else if c = 'u' then quotation close .code found rest
    else
      match simpleEscape? c with
      | none => .malformed
      | some d =>
        if c = close ∧ !rest.contains close then .endless (.plain d :: found).reverse
        else quotation close .outside (.plain d :: found) rest
  | .byte first, found, c :: rest =>
    match first, hexDigit? c with
    | _, none => .malformed
    | none, some d => quotation close (.byte (some d)) found rest
    | some first, some d =>
      quotation close .outside (.byte (16 * first + d).toUInt8 :: found) rest
  | .code, found, c :: rest =>
    if c = '\x7b' then quotation close (.digits 0 0) found rest else .malformed
  | .digits count value, found, c :: rest =>
    if c = '\x7d' then
      match charOf? value with
      | none => .malformed
      | some e => if count = 0 then .malformed else quotation close .outside (.code e :: found) rest
    else if count = 6 then .malformed
    else
      match hexDigit? c with
      | none => .malformed
      | some d => quotation close (.digits (count + 1) (16 * value + d)) found rest

/-- Reads a quotation from behind its first mark on. -/
def quoted (close : Char) (cs : List Char) : Quotation :=
  if cs.contains close then quotation close .outside [] cs else .endless []

/-! ## Raw text -/

/-- What stands before the first place where `mark` begins, and what follows the mark. -/
def breakAt (mark : List Char) : List Char → Option (List Char × List Char)
  | [] => none
  | c :: rest =>
    if mark.isPrefixOf (c :: rest) then some ([], (c :: rest).drop mark.length)
    else (breakAt mark rest).map fun p => (c :: p.1, p.2)

/-- The closing mark of raw text and what follows the opening one, from its `#`s on. -/
def rawOpening (cs : List Char) : Option (List Char × List Char) :=
  let hashes := cs.takeWhile (· = '#')
  match cs.drop hashes.length with
  | '"' :: rest => some ('"' :: hashes, rest)
  | _ => none

/-- Raw text from its `#`s on. -/
def rawQuotation (cs : List Char) : Option (List Char × List Char) :=
  (rawOpening cs).bind fun (mark, rest) => breakAt mark rest

/-! ## Literals of one part -/

/-- One character or escape between single quotes, from behind the first quote on. -/
def onePiece : List Char → Option (Piece × List Char)
  | '\\' :: rest =>
    match quotation '\'' .started [] rest with
    | .closed [p] tail => some (p, tail)
    | _ => none
  | c :: '\'' :: rest => some (.plain c, rest)
  | _ => none

/-- The character of a character literal. A byte stands for one only in ASCII. -/
def Piece.char? : Piece → Option Char
  | plain c => some c
  | byte value => if value < 128 then some (Char.ofNat value.toNat) else none
  | code c => some c

/-- The byte of a byte literal: an ASCII character or an escape of a byte. -/
def Piece.byte? : Piece → Option UInt8
  | plain c => if c.toNat < 128 then some c.toNat.toUInt8 else none
  | byte value => some value
  | code _ => none

end Ron
end TextureFlow
