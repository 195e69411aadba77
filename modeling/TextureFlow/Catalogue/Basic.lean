import TextureFlow.Catalogue.Blend
import TextureFlow.Catalogue.Operation
import TextureFlow.Catalogue.Pixels
import TextureFlow.Kernel.Basic

/-!
# The catalogue of kernels

Every kernel that a graph can be built from, one constructor each, with its parameters as fields.
The ports, the parameters and the computation of a kernel are read off the constructor, so a kernel
has no state besides its parameters.
-/

namespace TextureFlow

/-- A kernel of the catalogue. -/
inductive Builtin where
  | scalarConstant (x : Float32)
  | vectorConstant (v : Vec)
  | colorConstant (c : Rgba)
  | imageSource (i : Image)
  | imageOutput
  | math (op : Operation)
  | vectorMath (op : Operation) (arity : Arity)
  | vectorScale (arity : Arity)
  | vectorLength
  | combineVector (arity : Arity)
  | splitVector
  | colorAdjust
  | invert
  | tint
  | mix (mode : BlendMode)
  | splitView (split : Float32)
  | solidColor (size : Size)
  | extractAlpha
  | luminance
  | applyMask
  | imageFromBytes (size : Size)
  | imageToBytes
deriving DecidableEq, Repr

/-- A size with both sides moved into `1 ≤ n ≤ maxDimension`. -/
def Size.clamped (width height : UInt32) : Size :=
  let clamp (n : UInt32) : UInt32 :=
    if n < 1 then 1 else if maxDimension < n then maxDimension else n
  ⟨clamp width, clamp height⟩

namespace Builtin

/-! ## Kernels from plain numbers

Arities and sizes from outside are moved into their range. -/

/-- The constant zero vector. -/
def zeroVector (components : Nat) : Builtin :=
  vectorConstant (.zero (.clamp components))

/-- The constant vector with given components, if their number is an arity. -/
def ofComponents? (components : List Float32) : Option Builtin :=
  (Vec.ofList? components).map vectorConstant

/-- An operation on vectors of a number of components. -/
def vectorMathOf (op : Operation) (components : Nat) : Builtin :=
  vectorMath op (.clamp components)

/-- A product of a scalar and a vector of a number of components. -/
def vectorScaleOf (components : Nat) : Builtin :=
  vectorScale (.clamp components)

/-- A vector of a number of scalars. -/
def combineVectorOf (components : Nat) : Builtin :=
  combineVector (.clamp components)

/-- An image of one colour. -/
def solidColorOf (width height : UInt32) : Builtin :=
  solidColor (.clamped width height)

/-- An image read from bytes. -/
def imageFromBytesOf (width height : UInt32) : Builtin :=
  imageFromBytes (.clamped width height)

/-! ## Names and strategy -/

/-- The identifier of the kind. -/
def kind : Builtin → String
  | scalarConstant _ => "scalar"
  | vectorConstant v => s!"vector{v.arity.toNat}"
  | colorConstant _ => "color"
  | imageSource _ => "image_source"
  | imageOutput => "output"
  | math _ => "math"
  | vectorMath _ arity => s!"vector_math{arity.toNat}"
  | vectorScale arity => s!"vector_scale{arity.toNat}"
  | vectorLength => "vector_length"
  | combineVector arity => s!"combine_vector{arity.toNat}"
  | splitVector => "split_vector"
  | colorAdjust => "color_adjust"
  | invert => "invert"
  | tint => "tint"
  | mix _ => "mix"
  | splitView _ => "split_view"
  | solidColor _ => "solid_color"
  | extractAlpha => "extract_alpha"
  | luminance => "luminance"
  | applyMask => "apply_mask"
  | imageFromBytes _ => "image_from_bytes"
  | imageToBytes => "image_to_bytes"

/-- The name of a new node. -/
def displayName : Builtin → String
  | scalarConstant _ => "Scalar"
  | vectorConstant v => s!"Vector{v.arity.toNat}"
  | colorConstant _ => "Color"
  | imageSource _ => "Image"
  | imageOutput => "Output"
  | math _ => "Math"
  | vectorMath _ arity => s!"Vector{arity.toNat} Math"
  | vectorScale arity => s!"Scale Vector{arity.toNat}"
  | vectorLength => "Length"
  | combineVector arity => s!"Combine Vector{arity.toNat}"
  | splitVector => "Split Vector"
  | colorAdjust => "Color Adjust"
  | invert => "Invert"
  | tint => "Tint"
  | mix _ => "Mix"
  | splitView _ => "Split View"
  | solidColor _ => "Solid Color"
  | extractAlpha => "Extract Alpha"
  | luminance => "Luminance"
  | applyMask => "Apply Mask"
  | imageFromBytes _ => "Bytes to Image"
  | imageToBytes => "Image to Bytes"

/-- Cheap kernels compute in every pass; sources and whatever touches pixels only when needed. -/
def strategy : Builtin → Strategy
  | imageOutput | math _ | vectorMath .. | vectorScale _ | vectorLength | combineVector _
  | splitVector => .eager
  | _ => .memoized

/-! ## Ports -/

/-- The names of the components of a vector. -/
def componentNames : List String :=
  ["X", "Y", "Z", "W"]

/-- An input for a scalar. -/
def scalarInput (name : String) : Port :=
  .input name (.single .scalar)

/-- An input for a vector of one arity. -/
def vectorInput (name : String) (arity : Arity) : Port :=
  .input name (.single (.vector arity))

/-- A required input for an image. -/
def imageInput (name : String) : Port :=
  (Port.input name (.single .image)).required

/-- An input for a colour that is white while unconnected. -/
def colorInput (name : String) : Port :=
  (Port.input name (.single .color)).withFallback (.color .white)

/-- The output for the image of an image kernel. -/
def imageResult : List Port :=
  [.output "Image" .image]

/-- The ports of a new node. -/
def layout : Builtin → Layout
  | scalarConstant _ => ⟨[], [.output "Value" .scalar]⟩
  | vectorConstant v => ⟨[], [.output "Vector" (.vector v.arity)]⟩
  | colorConstant _ => ⟨[], [.output "Color" .color]⟩
  | imageSource _ => ⟨[], imageResult⟩
  | imageOutput => ⟨[imageInput "Image"], imageResult⟩
  | math _ => ⟨[scalarInput "A", scalarInput "B"], [.output "Result" .scalar]⟩
  | vectorMath _ arity =>
    ⟨[vectorInput "A" arity, vectorInput "B" arity], [.output "Result" (.vector arity)]⟩
  | vectorScale arity =>
    ⟨[vectorInput "Vector" arity, (scalarInput "Factor").withFallback (.scalar 1)],
      [.output "Result" (.vector arity)]⟩
  | vectorLength => ⟨[.input "Vector" .anyVector], [.output "Length" .scalar]⟩
  | combineVector arity =>
    ⟨(componentNames.take arity.toNat).map scalarInput, [.output "Vector" (.vector arity)]⟩
  | splitVector =>
    ⟨[.input "Vector" .anyVector], componentNames.map fun name => .output name .scalar⟩
  | colorAdjust =>
    ⟨[imageInput "Image", scalarInput "Brightness",
        (scalarInput "Contrast").withFallback (.scalar 1),
        (scalarInput "Saturation").withFallback (.scalar 1)], imageResult⟩
  | invert => ⟨[imageInput "Image"], imageResult⟩
  | tint => ⟨[imageInput "Image", colorInput "Color"], imageResult⟩
  | mix _ =>
    ⟨[imageInput "A", imageInput "B", (scalarInput "Factor").withFallback (.scalar 0.5)],
      imageResult⟩
  | splitView _ => ⟨[imageInput "A", imageInput "B"], imageResult⟩
  | solidColor _ => ⟨[colorInput "Color"], imageResult⟩
  | extractAlpha => ⟨[imageInput "Image"], [.output "Mask" .mask]⟩
  | luminance => ⟨[imageInput "Image"], [.output "Mask" .mask]⟩
  | applyMask =>
    ⟨[imageInput "Image", (Port.input "Mask" (.single .mask)).required], imageResult⟩
  | imageFromBytes _ => ⟨[(Port.input "Bytes" (.single .bytes)).required], imageResult⟩
  | imageToBytes => ⟨[imageInput "Image"], [.output "Bytes" .bytes]⟩

/-! ## Computation -/

/-- The vector of the first scalars, one for every component. -/
def combine (arity : Arity) (inputs : Inputs) : Except ComputeError Vec := do
  let x ← inputs.scalar 0
  let y ← inputs.scalar 1
  match arity with
  | .two => return .two x y
  | .three =>
    let z ← inputs.scalar 2
    return .three x y z
  | .four =>
    let z ← inputs.scalar 2
    let w ← inputs.scalar 3
    return .four x y z w

/-- One value for every output. -/
def compute (k : Builtin) (inputs : Inputs) : Except ComputeError (List Value) :=
  match k with
  | scalarConstant x => .ok [.scalar x]
  | vectorConstant v => .ok [.vector v]
  | colorConstant c => .ok [.color c]
  | imageSource i => do
    let image ← i.requireConsistent
    return [.image image]
  | imageOutput => do
    let image ← inputs.image 0
    return [.image image]
  | math op => do
    let a ← inputs.scalar 0
    let b ← inputs.scalar 1
    let result ← op.apply a b
    return [.scalar result]
  | vectorMath op arity => do
    let a ← inputs.vectorOf 0 arity.toNat
    let b ← inputs.vectorOf 1 arity.toNat
    let result ← Vec.combine op.apply a b
    return [.vector result]
  | vectorScale arity => do
    let v ← inputs.vectorOf 0 arity.toNat
    let factor ← inputs.scalar 1
    return [.vector (v.map (· * factor))]
  | vectorLength => do
    let v ← inputs.vector 0
    return [.scalar v.length]
  | combineVector arity => do
    let v ← combine arity inputs
    return [.vector v]
  | splitVector => do
    let v ← inputs.vector 0
    return [.scalar (v.component 0), .scalar (v.component 1), .scalar (v.component 2),
      .scalar (v.component 3)]
  | colorAdjust => do
    let image ← inputs.image 0
    let brightness ← inputs.scalar 1
    let contrast ← inputs.scalar 2
    let saturation ← inputs.scalar 3
    return [.image (image.map (Rgba.adjust brightness contrast saturation))]
  | invert => do
    let image ← inputs.image 0
    return [.image (image.map Rgba.invert)]
  | tint => do
    let image ← inputs.image 0
    let color ← inputs.color 1
    return [.image (image.map (Rgba.tint color))]
  | mix mode => do
    let first ← inputs.image 0
    let second ← inputs.image 1
    let factor ← inputs.scalar 2
    first.requireSameSize second
    let weight := Binary32.clampUnit factor
    return [.image (Image.zipWith (mode.blend · · weight) first second)]
  | splitView split => do
    let first ← inputs.image 0
    let second ← inputs.image 1
    first.requireSameSize second
    return [.image (Image.splitAt split first second)]
  | solidColor size => do
    let color ← inputs.color 0
    return [.image (.filled size color)]
  | extractAlpha => do
    let image ← inputs.image 0
    return [.mask (.ofImage Rgba.a image)]
  | luminance => do
    let image ← inputs.image 0
    return [.mask (.ofImage Rgba.luminance image)]
  | applyMask => do
    let image ← inputs.image 0
    let mask ← inputs.mask 1
    let result ← image.applyMask mask
    return [.image result]
  | imageFromBytes size => do
    let bytes ← inputs.bytes 0
    let image ← Image.ofBytes size bytes
    return [.image image]
  | imageToBytes => do
    let image ← inputs.image 0
    return [.bytes image.toBytes]

/-! ## Parameters -/

/-- The sides of a size as parameters. -/
def sizeParameters (size : Size) : List (String × ParamValue) :=
  [("width", .integer size.width), ("height", .integer size.height)]

/-- The parameters and their values. -/
def parameters : Builtin → List (String × ParamValue)
  | scalarConstant x => [("value", .scalar x)]
  | vectorConstant v => [("value", .vector v.toList)]
  | colorConstant c => [("color", .color c)]
  | imageSource i => [("image", .image i)]
  | math op => [("op", .choice op.name)]
  | vectorMath op _ => [("op", .choice op.name)]
  | mix mode => [("mode", .choice mode.name)]
  | splitView split => [("split", .scalar split)]
  | solidColor size => sizeParameters size
  | imageFromBytes size => sizeParameters size
  | _ => []

/-- Reads one side of a size. -/
def dimension (name : String) (v : ParamValue) : Except ParameterError UInt32 := do
  let n ← v.toInteger name
  if n = 0 ∨ maxDimension < n then throw (.outOfRange name (.dimension n)) else return n

/-- Reads the position of a split. -/
def fraction (name : String) (v : ParamValue) : Except ParameterError Float32 := do
  let x ← v.toScalar name
  if 0 ≤ x ∧ x ≤ 1 then return x else throw (.outOfRange name (.outsideUnit x))

/-- The kernel after one parameter was set. -/
def setParameter (k : Builtin) (name : String) (v : ParamValue) : Except ParameterError Builtin :=
  match k, name with
  | scalarConstant _, "value" => scalarConstant <$> v.toScalar name
  | vectorConstant u, "value" => vectorConstant <$> v.toVec name u.arity
  | colorConstant _, "color" => colorConstant <$> v.toColor name
  | imageSource _, "image" => imageSource <$> v.toImage name
  | math _, "op" => math <$> Operation.ofParameter name v
  | vectorMath _ arity, "op" => (vectorMath · arity) <$> Operation.ofParameter name v
  | mix _, "mode" => mix <$> BlendMode.ofParameter name v
  | splitView _, "split" => splitView <$> fraction name v
  | solidColor size, "width" => (fun n => solidColor { size with width := n }) <$> dimension name v
  | solidColor size, "height" =>
    (fun n => solidColor { size with height := n }) <$> dimension name v
  | imageFromBytes size, "width" =>
    (fun n => imageFromBytes { size with width := n }) <$> dimension name v
  | imageFromBytes size, "height" =>
    (fun n => imageFromBytes { size with height := n }) <$> dimension name v
  | _, _ => .error (.unknown k.kind name)

/-! ## The family -/

/-- What the kernel shows of itself: a constant colour, or the chosen operation or mode. -/
def badge? : Builtin → Option Badge
  | colorConstant c => some (.swatch c)
  | math op => some (.label op.name)
  | vectorMath op _ => some (.label op.name)
  | mix mode => some (.label mode.name)
  | _ => none

instance : Kernel Builtin where
  kind := kind
  displayName := displayName
  layout := layout
  strategy := strategy
  compute := compute
  parameters := parameters
  setParameter := setParameter
  badge? := badge?

end Builtin

end TextureFlow
