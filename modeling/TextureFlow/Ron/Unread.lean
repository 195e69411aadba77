import TextureFlow.Ron.Ahead
import TextureFlow.Ron.Features
import TextureFlow.Ron.Number

/-!
# Values that nobody reads

A field that no type knows is passed over. It has to hold a value all the same: numbers have to be
numbers, brackets have to match, and the name `Some` has to stand in front of exactly one value.

Values nest to a limited depth. Brackets take one level and each of their parts another one; `Some`
takes one level only.
-/

namespace TextureFlow
namespace Ron

/-- The names that are values by themselves and never begin a bracket. -/
def plainNames : List String :=
  ["true", "false", "None", "inf", "inff32", "inff64", "NaN", "NaNf32", "NaNf64"]

/-- Whether an opening bracket is next. -/
def opens (opening : Char) (ts : List Token) : Bool :=
  (afterOpening opening ts).isSome

/-- Whether the value in the brackets of `Some` is written without brackets of its own: it has named
fields or more than one part. Given are the text and the tokens behind the opening bracket. -/
def isBare? (text : List Char) (ts : List Token) : Option Bool :=
  if startsWithField ts then some true else hasSecondPart? text

/-- Passes over a name, a colon and a value. -/
def skipField (value : Reader Unit) : Reader Unit := fun ts => do
  let (_, ts) ← identifier ts
  value (← afterSign ':' ts)

/-- Passes over a key, a colon and a value. -/
def skipEntry (value : Reader Unit) : Reader Unit := fun ts => do
  let (_, ts) ← value ts
  value (← afterSign ':' ts)

/-- Passes over the parts up to a closing bracket, each of which holds a value: the entries of a
map, the fields of a structure, or the items of a list or tuple. -/
def skipParts (closing : Char) (value : Reader Unit) : Reader Unit := fun ts =>
  let part :=
    if closing = '\x7d' then skipEntry value
    else if closing = ')' ∧ startsWithField ts then skipField value
    else value
  (parts closing part ts).map fun (_, ts) => ((), ts)

mutual

/-- Passes over a value that nests at most so many levels deep. -/
def skipValue (f : Features) : Nat → Reader Unit
  | _, [] => none
  | _, .number written :: ts => if isNumber written then some ((), ts) else none
  | _, .byte _ :: ts => some ((), ts)
  | _, .text _ :: ts => some ((), ts)
  | _, .otherLiteral :: ts => some ((), ts)
  | _, .unit :: ts => some ((), ts)
  | levels, .sign c :: ts =>
    match levels with
    | 0 => none
    | levels + 1 => skipBrackets f c levels (.sign c :: ts)
  | levels, .round text :: ts =>
    match levels with
    | 0 => none
    | levels + 1 => skipBrackets f '(' levels (.round text :: ts)
  | levels, .rawIdentifier _ :: ts =>
    if opens '(' ts then
      match levels with
      | 0 => none
      | levels + 1 => skipBrackets f '(' levels ts
    else some ((), ts)
  | levels, .identifier name :: ts =>
    if name = "Some" then
      match levels with
      | 0 => none
      | levels + 1 =>
        match ts with
        | .unit :: rest => if f.unwrapVariantNewtypes then some ((), rest) else none
        | .round text :: inside =>
          if !f.unwrapVariantNewtypes then single (skipValue f levels) ts
          else if startsWith ')' inside then some ((), inside.tail)
          else
            match isBare? text inside, levels with
            | some false, levels => single (skipValue f levels) ts
            | some true, levels + 1 => skipBrackets f '(' levels ts
            | _, _ => none
        | _ => if f.implicitSome then skipValue f levels ts else none
    else if plainNames.contains name then some ((), ts)
    else if opens '(' ts then
      match levels with
      | 0 => none
      | levels + 1 => skipBrackets f '(' levels ts
    else some ((), ts)

/-- Passes over a pair of brackets, inside of which values nest at most so many levels deep. -/
def skipBrackets (f : Features) (opening : Char) : Nat → Reader Unit
  | levels, ts =>
    let closing := if opening = '(' then ')' else if opening = '[' then ']' else '\x7d'
    let value : Reader Unit :=
      match levels with
      | 0 => fun _ => none
      | levels + 1 => skipValue f levels
    if opening = '(' ∨ opening = '[' ∨ opening = '\x7b' then
      enclosed opening closing (skipParts closing value) ts
    else none

end

end Ron
end TextureFlow
