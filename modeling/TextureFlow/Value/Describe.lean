import TextureFlow.Binary32.Decimal
import TextureFlow.Value.Basic

/-!
# Values in one line

The text by which a run reports a value: numbers in full, buffers by their size.
-/

namespace TextureFlow

/-- Numbers in brackets, each recognisable as a fraction. -/
def bracketed (xs : List Float32) : String :=
  "[" ++ ", ".intercalate (xs.map Binary32.general) ++ "]"

/-- The one-line text of a value. -/
def Value.describe : Value → String
  | .scalar x => Binary32.plain x
  | .vector v => bracketed v.toList
  | .color c => "color " ++ bracketed c.toList
  | .image i => "image " ++ i.size.text
  | .mask m => "mask " ++ m.size.text
  | .bytes b => s!"{b.length} bytes"
  | .texture handle => s!"texture {handle.toNat}"

end TextureFlow
