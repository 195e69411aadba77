/-!
# Ranges of characters

A property of characters beyond ASCII is kept as the list of the ranges of code points that have it.
-/

namespace TextureFlow
namespace Text

/-- Code points by ranges, both ends included. -/
abbrev Ranges := List (Nat × Nat)

/-- Whether a character lies in one of the ranges. -/
def Ranges.contains (ranges : Ranges) (c : Char) : Bool :=
  ranges.any fun r => r.1 ≤ c.toNat && c.toNat ≤ r.2

end Text
end TextureFlow
