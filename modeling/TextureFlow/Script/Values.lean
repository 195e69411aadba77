import TextureFlow.Kernel.Basic
import TextureFlow.Ron.Decoder

/-!
# Values in a script

How values and parameters are written in a script: as a variant named after the type, holding the
payload. Numbers of fixed count stand in round brackets, lists of any length in square ones.
-/

namespace TextureFlow

open Ron

namespace Script

/-! ## Payloads -/

/-- A word of 32 bits. -/
def word32 : Decoder UInt32 :=
  Decoder.map Nat.toUInt32 (.word 32)

/-- A byte. -/
def byte : Decoder UInt8 :=
  Decoder.map Nat.toUInt8 (.word 8)

/-- The number of a texture. -/
def handle : Decoder TextureHandle :=
  Decoder.map Nat.toUInt64 (.word 64)

/-- The colour of four channels. -/
def rgba? : List Float32 → Option Rgba
  | [r, g, b, a] => some ⟨r, g, b, a⟩
  | _ => none

/-- A colour in a list of pixels. -/
def pixel : Decoder Rgba :=
  Decoder.filterMap rgba? (.bracketed '(' ')' (.items 4 .float))

/-- The fields of an image. -/
def image : Decoder Image :=
  .fields ⟨⟨0, 0⟩, []⟩ ["width", "height", "pixels"]
    [Decoder.field "width" word32 fun x i => { i with size := { i.size with width := x } },
      Decoder.field "height" word32 fun x i => { i with size := { i.size with height := x } },
      Decoder.field "pixels" (.list pixel) fun x i => { i with pixels := x }]

/-- The fields of a mask. -/
def mask : Decoder Mask :=
  .fields ⟨⟨0, 0⟩, []⟩ ["width", "height", "values"]
    [Decoder.field "width" word32 fun x m => { m with size := { m.size with width := x } },
      Decoder.field "height" word32 fun x m => { m with size := { m.size with height := x } },
      Decoder.field "values" (.list .float) fun x m => { m with values := x }]

/-! ## Variants -/

/-- The payload of a colour. -/
def color : Decoder Rgba :=
  Decoder.filterMap rgba? (.tupleContent 4 .float)

/-- The payload of a vector. -/
def vector (arity : Arity) : Decoder Value :=
  Decoder.filterMap (fun xs => (Vec.ofList? xs).map Value.vector) (.tupleContent arity.toNat .float)

/-- A value. -/
def value : Decoder Value :=
  .variant
    [("Scalar", .map .scalar (.content .float)),
      ("Vector2", vector .two),
      ("Vector3", vector .three),
      ("Vector4", vector .four),
      ("Color", .map .color color),
      ("Image", .map .image (.recordContent "ImageBuffer" image)),
      ("Mask", .map .mask (.recordContent "MaskBuffer" mask)),
      ("Bytes", .map .bytes (.content (.list byte))),
      ("Texture", .map .texture (.wrapperContent "TextureHandle" handle))]

/-- A value of a parameter. -/
def parameter : Decoder ParamValue :=
  .variant
    [("Scalar", .map .scalar (.content .float)),
      ("Integer", .map .integer (.content word32)),
      ("Choice", .map .choice (.content .text)),
      ("Color", .map .color color),
      ("Vector", .map .vector (.content (.list .float))),
      ("Image", .map .image (.recordContent "ImageBuffer" image))]

/-- A strategy. -/
def strategy : Decoder Strategy :=
  .variant [("Eager", .constant .eager), ("Memoized", .constant .memoized)]

end Script

end TextureFlow
