import TextureFlow.Kernel.Error

/-!
# Operations on images

What the image kernels do to pixels, apart from ports and parameters.
-/

namespace TextureFlow

/-! ## One pixel -/

namespace Rgba

/-- Brightness is added, contrast scales around one half, saturation scales around the luminance.
Alpha stays. -/
def adjust (brightness contrast saturation : Float32) (c : Rgba) : Rgba :=
  let shift (x : Float32) : Float32 := (x - 0.5) * contrast + 0.5 + brightness
  let shifted : Rgba := ⟨shift c.r, shift c.g, shift c.b, c.a⟩
  let grey := shifted.luminance
  let saturate (x : Float32) : Float32 := grey + (x - grey) * saturation
  ⟨saturate shifted.r, saturate shifted.g, saturate shifted.b, c.a⟩

/-- The complement of every channel but alpha. -/
def invert (c : Rgba) : Rgba :=
  ⟨1 - c.r, 1 - c.g, 1 - c.b, c.a⟩

/-- Every channel but alpha multiplied by another colour's. -/
def tint (filter c : Rgba) : Rgba :=
  ⟨c.r * filter.r, c.g * filter.g, c.b * filter.b, c.a⟩

/-- Alpha multiplied by a factor. -/
def fade (c : Rgba) (factor : Float32) : Rgba :=
  { c with a := c.a * factor }

end Rgba

/-! ## Two images -/

namespace Image

/-- Fails unless two images have the same size. -/
def requireSameSize (i j : Image) : Except ComputeError Unit :=
  if i.size = j.size then .ok () else .error (.failed (.sizesDiffer i.size j.size))

/-- The column at which a fraction of the width ends, rounded to the nearest. -/
def splitColumn (split : Float32) (width : UInt32) : Nat :=
  Binary32.nearestNat (split * width.toFloat32)

/-- Columns left of the split from the first image, the others from the second. A width of zero
counts as one. -/
def splitAt (split : Float32) (i j : Image) : Image :=
  let column := splitColumn split i.size.width
  let width := max i.size.width.toNat 1
  let pairs := (i.pixels.zip j.pixels).zipIdx
  { i with pixels := pairs.map fun (p, k) => if k % width < column then p.1 else p.2 }

/-- Alpha multiplied by a mask of the same size and length. -/
def applyMask (i : Image) (m : Mask) : Except ComputeError Image :=
  if i.size ≠ m.size then .error (.failed (.maskSize m.size i.size))
  else if m.values.length ≠ i.pixels.length then
    .error (.failed (.maskCount m.values.length i.pixels.length))
  else .ok { i with pixels := List.zipWith Rgba.fade i.pixels m.values }

/-- The image itself when its pixel list is as long as its size says. -/
def requireConsistent (i : Image) : Except ComputeError Image :=
  if i.pixels.length = i.size.area then .ok i
  else .error (.failed (.pixelCount i.pixels.length i.size))

end Image

/-! ## Four bytes a pixel -/

namespace Rgba

/-- The four bytes of a pixel. -/
def toBytes (c : Rgba) : List UInt8 :=
  c.toList.map Binary32.toByte

/-- The pixels of a byte list, put behind those already found, which stand in reverse. Bytes at the
end that do not fill a pixel are dropped. -/
def pixelsOnto (found : List Rgba) : List UInt8 → List Rgba
  | r :: g :: b :: a :: rest =>
    let pixel : Rgba :=
      ⟨Binary32.ofByte r, Binary32.ofByte g, Binary32.ofByte b, Binary32.ofByte a⟩
    pixelsOnto (pixel :: found) rest
  | _ => found.reverse

end Rgba

namespace Image

/-- The pixels as bytes, row by row. -/
def toBytes (i : Image) : List UInt8 :=
  i.pixels.flatMap Rgba.toBytes

/-- The image of a given size whose pixels are the given bytes. -/
def ofBytes (size : Size) (bytes : List UInt8) : Except ComputeError Image :=
  let expected := size.area * 4
  if bytes.length = expected then .ok ⟨size, Rgba.pixelsOnto [] bytes⟩
  else .error (.failed (.byteCount bytes.length expected size))

end Image

end TextureFlow
