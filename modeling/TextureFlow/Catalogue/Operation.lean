import TextureFlow.Kernel.Parameter

/-!
# Operations on two numbers

The operations that the arithmetic kernels offer. An operation fails on division by zero and
whenever its result is not a number; an infinite result is a result.
-/

namespace TextureFlow

/-- An operation on two numbers. -/
inductive Operation where
  | add
  | subtract
  | multiply
  | divide
  | power
  | min
  | max
deriving DecidableEq, Repr

namespace Operation

/-- Every operation, in the order they are listed to a user. -/
def all : List Operation :=
  [add, subtract, multiply, divide, power, min, max]

/-- The name by which a parameter chooses the operation. -/
def name : Operation → String
  | add => "add"
  | subtract => "subtract"
  | multiply => "multiply"
  | divide => "divide"
  | power => "power"
  | min => "min"
  | max => "max"

/-- The operation of a name. -/
def parse (text : String) : Except Rejection Operation :=
  match all.find? fun op => op.name = text with
  | some op => .ok op
  | none => .error (.unknownOperation text (all.map name))

/-- The result before it is checked. -/
def raw : Operation → Float32 → Float32 → Float32
  | add, a, b => a + b
  | subtract, a, b => a - b
  | multiply, a, b => a * b
  | divide, a, b => a / b
  | power, a, b => a.pow b
  | min, a, b => Binary32.least a b
  | max, a, b => Binary32.greatest a b

/-- The result, or why there is none. -/
def apply (op : Operation) (a b : Float32) : Except ComputeError Float32 :=
  if op = divide ∧ b == 0 then .error (.failed .divisionByZero)
  else if (op.raw a b).isNaN then .error (.failed (.notANumber op.name a b))
  else .ok (op.raw a b)

/-- Reads the operation that a parameter asks for. -/
def ofParameter (name : String) (v : ParamValue) : Except ParameterError Operation := do
  let text ← v.toChoice name
  (parse text).mapError (.outOfRange name)

theorem parse_name (op : Operation) : parse op.name = .ok op := by
  cases op <;> rfl

end Operation

end TextureFlow
