import TextureFlow.Kernel.Error

/-!
# Parameter values

A parameter is set from outside with a value of one of six types. Each reader below gives the
payload of its type, or the error that names the parameter, the expected type and the type found.
-/

namespace TextureFlow

/-- A value that a parameter can be set to. -/
inductive ParamValue where
  | scalar (x : Float32)
  | integer (n : UInt32)
  | choice (name : String)
  | color (c : Rgba)
  | vector (components : List Float32)
  | image (i : Image)
deriving DecidableEq, Repr

namespace ParamValue

/-- The name of the value's type. -/
def typeName : ParamValue → String
  | scalar _ => "Scalar"
  | integer _ => "Integer"
  | choice _ => "Choice"
  | color _ => "Color"
  | vector _ => "Vector"
  | image _ => "Image"

/-- The error for a parameter that expects another type. -/
def wrongType (v : ParamValue) (name expected : String) : ParameterError :=
  .wrongType name expected v.typeName

/-- The number of a scalar. -/
def toScalar (v : ParamValue) (name : String) : Except ParameterError Float32 :=
  match v with
  | scalar x => .ok x
  | _ => .error (v.wrongType name "Scalar")

/-- The number of an integer. -/
def toInteger (v : ParamValue) (name : String) : Except ParameterError UInt32 :=
  match v with
  | integer n => .ok n
  | _ => .error (v.wrongType name "Integer")

/-- The text of a choice. -/
def toChoice (v : ParamValue) (name : String) : Except ParameterError String :=
  match v with
  | choice c => .ok c
  | _ => .error (v.wrongType name "Choice")

/-- The channels of a colour. -/
def toColor (v : ParamValue) (name : String) : Except ParameterError Rgba :=
  match v with
  | color c => .ok c
  | _ => .error (v.wrongType name "Color")

/-- The components of a vector of a required length. -/
def toVec (v : ParamValue) (name : String) (arity : Arity) : Except ParameterError Vec :=
  match v with
  | vector components =>
    match Vec.ofList? components with
    | some u =>
      if u.arity = arity then .ok u
      else .error (.outOfRange name (.componentCount arity.toNat components.length))
    | none => .error (.outOfRange name (.componentCount arity.toNat components.length))
  | _ => .error (v.wrongType name "Vector")

/-- The image of an image. -/
def toImage (v : ParamValue) (name : String) : Except ParameterError Image :=
  match v with
  | image i => .ok i
  | _ => .error (v.wrongType name "Image")

end ParamValue

end TextureFlow
