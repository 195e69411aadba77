import TextureFlow.Ron.Blank
import TextureFlow.Ron.Quotation

/-!
# Looking ahead

Where the brackets of `Some` may stand for those of its value, how many parts stand in them decides
how the value is read. They are counted before anything is read, by a look ahead that knows
brackets, commas, comments, character literals, and texts, and takes every other character by
itself.

The look ahead is coarser than the reading. It takes a byte literal apart, so that an escape beyond
ASCII leaves its closing quote behind, from which a character literal may then begin; and a comment
that touches the end of a literal has its first character taken by itself. A text without an end
stops it.
-/

namespace TextureFlow
namespace Ron

/-! ## Literals -/

/-- What comes of looking for a literal at some place of a text. -/
inductive Sight where
  /-- There is one, and this follows it. -/
  | found (rest : List Char)
  | absent
  /-- One begins and never ends. -/
  | endless
deriving DecidableEq, Repr

/-- What follows the literal that was looked for, or the text itself where there is none. -/
def Sight.after (cs : List Char) : Sight → Option (List Char)
  | found rest => some rest
  | absent => some cs
  | endless => none

/-- Looks for a text, from behind its first quote on. A part of it that is not UTF-8 makes it none.
-/
def sightText (cs : List Char) : Sight :=
  match quoted '"' cs with
  | .closed pieces rest => if (textOf? pieces).isSome then .found rest else .absent
  | .endless pieces => if (textOf? pieces).isSome then .endless else .absent
  | .malformed => .absent

/-- Looks for a byte string, from behind its first quote on. -/
def sightBytes (cs : List Char) : Sight :=
  match quoted '"' cs with
  | .closed _ rest => .found rest
  | .endless _ => .endless
  | .malformed => .absent

/-- Looks for raw text, from its `#`s on. -/
def sightRaw (cs : List Char) : Sight :=
  match rawOpening cs with
  | none => .absent
  | some (mark, rest) =>
    match breakAt mark rest with
    | some (_, rest) => .found rest
    | none => .endless

/-- What follows a character literal, if one stands here. -/
def afterCharacter (cs : List Char) : List Char :=
  match cs with
  | '\'' :: rest =>
    match onePiece rest with
    | some (piece, rest) => if piece.char?.isSome then rest else cs
    | none => cs
  | _ => cs

/-- What follows a text, if one stands here. -/
def afterText (cs : List Char) : Option (List Char) :=
  match cs with
  | '"' :: rest => (sightText rest).after cs
  | 'r' :: rest => (sightRaw rest).after cs
  | _ => some cs

/-- What follows a byte string, if one stands here. -/
def afterBytes (cs : List Char) : Option (List Char) :=
  match cs with
  | 'b' :: '"' :: rest => (sightBytes rest).after cs
  | 'b' :: 'r' :: rest => (sightRaw rest).after cs
  | _ => some cs

/-! ## Counting parts -/

/-- Whether a comma and another part follow before a bracket ends, inside of which so many others
are open. At most as many characters are taken by themselves as the first list has. -/
def secondPart? : List Char → Nat → List Char → Option Bool
  | [], _, _ => none
  | _ :: bound, depth, cs => do
    let cs ← skipGap .blank cs
    let cs ← afterText (afterCharacter cs)
    match ← afterBytes cs with
    | [] => none
    | c :: rest =>
      if c = '(' ∨ c = '[' ∨ c = '\x7b' then secondPart? bound (depth + 1) rest
      else if c = ')' ∨ c = ']' ∨ c = '\x7d' then
        if depth = 0 then some false else secondPart? bound (depth - 1) rest
      else if c = ',' ∧ depth = 0 then (skipGap .blank rest).map fun rest => rest.head? ≠ some ')'
      else secondPart? bound depth rest

/-- Whether more than one part stands in a bracket, from behind its opening on, or none where that
cannot be told. -/
def hasSecondPart? (cs : List Char) : Option Bool :=
  secondPart? cs 0 cs

end Ron
end TextureFlow
