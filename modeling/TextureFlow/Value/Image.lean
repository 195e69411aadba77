import TextureFlow.Binary32.Rounding
import TextureFlow.Word

/-!
# Images and masks

An image is a size and a row-major list of pixels. The list may be shorter or longer than the size
says, because pixels can come from outside; `Image.Consistent` says that it is neither. For the same
reason a size may have more places than there are 32-bit words, and lookup, which counts places in
words, stops at a coordinate whose place is no word.
-/

namespace TextureFlow

/-! ## Sizes -/

/-- Width and height of a buffer. -/
structure Size where
  width : UInt32
  height : UInt32
deriving DecidableEq, Repr

namespace Size

/-- The size without any pixel. -/
def zero : Size :=
  ⟨0, 0⟩

/-- How many pixels a buffer of this size holds. -/
def area (s : Size) : Nat :=
  s.width.toNat * s.height.toNat

/-- The size as a user reads it. -/
def text (s : Size) : String :=
  s!"{s.width.toNat}x{s.height.toNat}"

end Size

/-! ## Pixels -/

/-- A colour with alpha, four linear channels. -/
structure Rgba where
  r : Float32
  g : Float32
  b : Float32
  a : Float32
deriving DecidableEq, Repr

namespace Rgba

/-- The colour whose channels are all zero. -/
def zero : Rgba :=
  ⟨0, 0, 0, 0⟩

/-- Opaque black. -/
def black : Rgba :=
  ⟨0, 0, 0, 1⟩

/-- Opaque white. -/
def white : Rgba :=
  ⟨1, 1, 1, 1⟩

/-- The channels in order. -/
def toList (c : Rgba) : List Float32 :=
  [c.r, c.g, c.b, c.a]

/-- Equality of the channels as numbers: the two zeros agree, and what is not a number agrees with
nothing. -/
def agrees (c d : Rgba) : Bool :=
  c.r == d.r && c.g == d.g && c.b == d.b && c.a == d.a

/-- Rec. 709 relative luminance. -/
def luminance (c : Rgba) : Float32 :=
  0.2126 * c.r + 0.7152 * c.g + 0.0722 * c.b

end Rgba

/-! ## Images -/

/-- An image: its size and its pixels, row by row. -/
structure Image where
  size : Size
  pixels : List Rgba
deriving DecidableEq, Repr

namespace Image

/-- The image without any pixel. -/
def empty : Image :=
  ⟨.zero, []⟩

/-- An image of one colour. -/
def filled (size : Size) (color : Rgba) : Image :=
  ⟨size, List.replicate size.area color⟩

/-- The pixel list is as long as the size says. -/
def Consistent (i : Image) : Prop :=
  i.pixels.length = i.size.area

instance (i : Image) : Decidable i.Consistent :=
  inferInstanceAs (Decidable (_ = _))

/-- The place of a coordinate in the pixel list, counted in checked words. -/
def index (i : Image) (x y : UInt32) : Except Panic UInt32 := do
  let rows ← Word.mul y i.size.width
  Word.add rows x

/-- The pixel at a coordinate inside the image, when the list reaches that far. -/
def pixel? (i : Image) (x y : UInt32) : Except Panic (Option Rgba) :=
  if x < i.size.width ∧ y < i.size.height then do
    let place ← i.index x y
    return i.pixels[place.toNat]?
  else .ok none

/-- The same change made to every pixel. -/
def map (i : Image) (f : Rgba → Rgba) : Image :=
  { i with pixels := i.pixels.map f }

/-- Pixels of two images joined in pairs, in the size of the first. -/
def zipWith (f : Rgba → Rgba → Rgba) (i j : Image) : Image :=
  { i with pixels := List.zipWith f i.pixels j.pixels }

/-- Equality of sizes and, as numbers, of all channels. -/
def agrees (i j : Image) : Bool :=
  i.size = j.size && i.pixels.length = j.pixels.length &&
    (i.pixels.zip j.pixels).all fun p => p.1.agrees p.2

theorem consistent_filled (size : Size) (color : Rgba) : (filled size color).Consistent := by
  simp [Consistent, filled]

theorem Consistent.map {i : Image} (h : i.Consistent) (f : Rgba → Rgba) : (i.map f).Consistent := by
  simpa [Consistent, Image.map] using h

end Image

/-! ## Masks -/

/-- A buffer of one channel. -/
structure Mask where
  size : Size
  values : List Float32
deriving DecidableEq, Repr

namespace Mask

/-- The mask without any value. -/
def empty : Mask :=
  ⟨.zero, []⟩

/-- The list of values is as long as the size says. -/
def Consistent (m : Mask) : Prop :=
  m.values.length = m.size.area

instance (m : Mask) : Decidable m.Consistent :=
  inferInstanceAs (Decidable (_ = _))

/-- One value for every pixel of an image. -/
def ofImage (f : Rgba → Float32) (i : Image) : Mask :=
  ⟨i.size, i.pixels.map f⟩

/-- The mask as an opaque grey image. -/
def toImage (m : Mask) : Image :=
  ⟨m.size, m.values.map fun v => ⟨v, v, v, 1⟩⟩

theorem Consistent.ofImage {i : Image} (h : i.Consistent) (f : Rgba → Float32) :
    (Mask.ofImage f i).Consistent := by
  simpa [Mask.Consistent, Image.Consistent, Mask.ofImage] using h

end Mask

end TextureFlow
