import TextureFlow.Catalogue.Basic
import TextureFlow.Registry

/-!
# The registry of the catalogue

Every kind of node that comes with the library, with the kernel that a new node starts with.
-/

namespace TextureFlow
namespace Builtin

/-- Constants and sources. -/
def inputEntries : List (RegistryEntry Builtin) := [
  ⟨"scalar", "Scalar", .input, "Constant scalar value", scalarConstant 0⟩,
  ⟨"vector2", "Vector2", .input, "Constant 2D vector value", zeroVector 2⟩,
  ⟨"vector3", "Vector3", .input, "Constant 3D vector value", zeroVector 3⟩,
  ⟨"vector4", "Vector4", .input, "Constant 4D vector value", zeroVector 4⟩,
  ⟨"color", "Color", .input, "Constant color value", colorConstant .white⟩,
  ⟨"image_source", "Image", .input, "Image supplied by the host's importer", imageSource .empty⟩]

/-- The result of a graph. -/
def outputEntries : List (RegistryEntry Builtin) := [
  ⟨"output", "Output", .output, "Final image handed to exporters", imageOutput⟩]

/-- Arithmetic on scalars. -/
def mathEntries : List (RegistryEntry Builtin) := [
  ⟨"math", "Math", .math, "Add, subtract, multiply, divide, power, min or max of two scalars",
    math .add⟩]

/-- Arithmetic on vectors. -/
def vectorEntries : List (RegistryEntry Builtin) := [
  ⟨"vector_math2", "Vector2 Math", .vector, "Component-wise operation on two 2D vectors",
    vectorMath .add .two⟩,
  ⟨"vector_math3", "Vector3 Math", .vector, "Component-wise operation on two 3D vectors",
    vectorMath .add .three⟩,
  ⟨"vector_math4", "Vector4 Math", .vector, "Component-wise operation on two 4D vectors",
    vectorMath .add .four⟩,
  ⟨"vector_scale2", "Scale Vector2", .vector, "Multiply a 2D vector by a scalar",
    vectorScale .two⟩,
  ⟨"vector_scale3", "Scale Vector3", .vector, "Multiply a 3D vector by a scalar",
    vectorScale .three⟩,
  ⟨"vector_scale4", "Scale Vector4", .vector, "Multiply a 4D vector by a scalar",
    vectorScale .four⟩,
  ⟨"vector_length", "Length", .vector, "Euclidean length of a vector", vectorLength⟩,
  ⟨"combine_vector2", "Combine Vector2", .vector, "Build a 2D vector from scalars",
    combineVector .two⟩,
  ⟨"combine_vector3", "Combine Vector3", .vector, "Build a 3D vector from scalars",
    combineVector .three⟩,
  ⟨"combine_vector4", "Combine Vector4", .vector, "Build a 4D vector from scalars",
    combineVector .four⟩,
  ⟨"split_vector", "Split Vector", .vector, "Split a vector into X, Y, Z and W", splitVector⟩]

/-- Work on colours. -/
def colorEntries : List (RegistryEntry Builtin) := [
  ⟨"color_adjust", "Color Adjust", .color, "Brightness, contrast and saturation", colorAdjust⟩,
  ⟨"invert", "Invert", .color, "Invert color channels", invert⟩,
  ⟨"tint", "Tint", .color, "Multiply an image by a color", tint⟩,
  ⟨"mix", "Mix", .color, "Blend two images", mix .mix⟩,
  ⟨"split_view", "Split View", .color, "Compare two images side by side", splitView 0.5⟩]

/-- From one kind of value to another. -/
def convertEntries : List (RegistryEntry Builtin) := [
  ⟨"solid_color", "Solid Color", .convert, "Image filled with one color",
    solidColorOf 256 256⟩,
  ⟨"extract_alpha", "Extract Alpha", .convert, "Alpha channel as a mask", extractAlpha⟩,
  ⟨"luminance", "Luminance", .convert, "Relative luminance as a mask", luminance⟩,
  ⟨"apply_mask", "Apply Mask", .convert, "Multiply alpha by a mask", applyMask⟩,
  ⟨"image_from_bytes", "Bytes to Image", .convert, "Decode RGBA8 bytes",
    imageFromBytesOf 1 1⟩,
  ⟨"image_to_bytes", "Image to Bytes", .convert, "Encode as RGBA8 bytes", imageToBytes⟩]

/-- Every kind of the catalogue. -/
def registry : Registry Builtin :=
  ⟨inputEntries ++ outputEntries ++ mathEntries ++ vectorEntries ++ colorEntries ++ convertEntries⟩

end Builtin
end TextureFlow
