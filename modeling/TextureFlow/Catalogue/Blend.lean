import TextureFlow.Kernel.Parameter

/-!
# Blending two colours

A blend mode joins two colour channels to one; the result is then mixed with the first colour by a
factor. Alpha takes no part in the mode and always goes linearly from the first colour to the
second.
-/

namespace TextureFlow

/-- How two colours are joined before they are mixed by a factor. -/
inductive BlendMode where
  | mix
  | add
  | multiply
  | screen
  | difference
deriving DecidableEq, Repr

namespace BlendMode

/-- Every mode, in the order they are listed to a user. -/
def all : List BlendMode :=
  [mix, add, multiply, screen, difference]

/-- The name by which a parameter chooses the mode. -/
def name : BlendMode → String
  | mix => "mix"
  | add => "add"
  | multiply => "multiply"
  | screen => "screen"
  | difference => "difference"

/-- The mode of a name. -/
def parse (text : String) : Except Rejection BlendMode :=
  match all.find? fun mode => mode.name = text with
  | some mode => .ok mode
  | none => .error (.unknownBlendMode text)

/-- Reads the mode that a parameter asks for. -/
def ofParameter (name : String) (v : ParamValue) : Except ParameterError BlendMode := do
  let text ← v.toChoice name
  (parse text).mapError (.outOfRange name)

/-- Two channels joined. -/
def channel : BlendMode → Float32 → Float32 → Float32
  | mix, _, b => b
  | add, a, b => a + b
  | multiply, a, b => a * b
  | screen, a, b => 1 - (1 - a) * (1 - b)
  | difference, a, b => (a - b).abs

/-- The point between two numbers at a factor; nothing is clamped. -/
def between (x y factor : Float32) : Float32 :=
  x + (y - x) * factor

/-- The second colour blended over the first. -/
def blend (mode : BlendMode) (c d : Rgba) (factor : Float32) : Rgba where
  r := between c.r (mode.channel c.r d.r) factor
  g := between c.g (mode.channel c.g d.g) factor
  b := between c.b (mode.channel c.b d.b) factor
  a := between c.a d.a factor

theorem parse_name (mode : BlendMode) : parse mode.name = .ok mode := by
  cases mode <;> rfl

end BlendMode

end TextureFlow
