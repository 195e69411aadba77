import TextureFlow.Ron.Token

/-!
# Readers

A reader takes a value off the front of a list of tokens. This module holds the readers of what all
notations share: brackets, and parts with commas between them.

Brackets are read in three steps, because some values are written without their own: the opening
bracket, what is inside, and the closing bracket. A reader of the inside stops in front of the
closing bracket.
-/

namespace TextureFlow
namespace Ron

/-- Reads a value off the front of a list of tokens. -/
abbrev Reader (α : Type) := List Token → Option (α × List Token)

/-! ## Brackets -/

/-- What follows an opening bracket. -/
def afterOpening (opening : Char) : List Token → Option (List Token)
  | .sign c :: ts => if c = opening then some ts else none
  | .round _ :: ts => if opening = '(' then some ts else none
  | .unit :: ts => if opening = '(' then some (.sign ')' :: ts) else none
  | _ => none

/-- Whether the next token is one of the characters that stand for themselves. -/
def startsWith (c : Char) (ts : List Token) : Bool :=
  ts.head? = some (.sign c)

/-- What follows a closing bracket, or another character that has to stand here. -/
def afterSign (c : Char) (ts : List Token) : Option (List Token) :=
  if startsWith c ts then some ts.tail else none

/-- What follows a comma, which may be missing. -/
def afterComma (ts : List Token) : List Token :=
  if startsWith ',' ts then ts.tail else ts

/-- Reads what stands between two brackets. -/
def enclosed {α : Type} (opening closing : Char) (inside : Reader α) : Reader α := fun ts => do
  let ts ← afterOpening opening ts
  let (x, ts) ← inside ts
  let ts ← afterSign closing ts
  return (x, ts)

/-- Reads one value between round brackets, behind which a comma may stand. -/
def single {α : Type} (inside : Reader α) : Reader α :=
  enclosed '(' ')' fun ts => (inside ts).map fun (x, ts) => (x, afterComma ts)

/-! ## Parts -/

/-- Parts with commas between them and perhaps one at the end, up to a closing bracket. There are at
most as many as the first list has tokens. -/
def partsWithin {α : Type} (closing : Char) (part : Reader α) : List Token → Reader (List α)
  | [], _ => none
  | _ :: bound, ts =>
    if startsWith closing ts then some ([], ts)
    else
      (part ts).bind fun (x, ts) =>
        if startsWith ',' ts then
          (partsWithin closing part bound ts.tail).map fun (xs, ts) => (x :: xs, ts)
        else if startsWith closing ts then some ([x], ts)
        else none

/-- Any number of parts up to a closing bracket. Each takes a token at least. -/
def parts {α : Type} (closing : Char) (part : Reader α) : Reader (List α) := fun ts =>
  partsWithin closing part ts ts

/-- A fixed number of parts with commas between them and perhaps one at the end. -/
def exactly {α : Type} (part : Reader α) : Nat → Reader (List α)
  | 0, ts => some ([], ts)
  | 1, ts => (part ts).map fun (x, ts) => ([x], afterComma ts)
  | count + 2, ts => do
    let (x, ts) ← part ts
    let ts ← afterSign ',' ts
    let (xs, ts) ← exactly part (count + 1) ts
    return (x :: xs, ts)

/-- What an identifier of either kind says. -/
def identifier : Reader String
  | t :: ts => t.name?.map fun name => (name, ts)
  | [] => none

/-- Whether named fields follow: an identifier and a colon. -/
def startsWithField : List Token → Bool
  | t :: ts => t.name?.isSome && startsWith ':' ts
  | [] => false

end Ron
end TextureFlow
