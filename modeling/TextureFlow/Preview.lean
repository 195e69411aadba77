import TextureFlow.Binary32.Decimal
import TextureFlow.Graph.Node

/-!
# Previews

What a node shows on its surface, as a list of marks in painting order, without positions. Images
are shown as a grid of at most eight by eight sampled pixels; the arithmetic that finds them is
checked, so painting can stop. Colours are painted with their alpha multiplied in, which is done on
linear light and written back in the gamma of the display.
-/

namespace TextureFlow

/-! ## Marks -/

/-- A colour of the display, alpha multiplied in. -/
structure Paint where
  r : UInt8
  g : UInt8
  b : UInt8
  a : UInt8
deriving DecidableEq, Repr

/-- One thing that is painted. -/
inductive Mark where
  | text (s : String)
  /-- A filled rectangle. -/
  | fill (p : Paint)
  /-- An outlined rectangle. -/
  | stroke (p : Paint)
deriving DecidableEq, Repr

/-! ## Colours -/

namespace Paint

/-- The linear light of a display value. -/
def linear (b : UInt8) : Float32 :=
  let s := b.toFloat32
  if s ≤ 10 then s / 3294.6 else ((s + 14.025) / 269.025).pow 2.4

/-- The display value of linear light. -/
def display (l : Float32) : UInt8 :=
  if l ≤ 0 then 0
  else if l ≤ 0.0031308 then (3294.6 * l + 0.5).toUInt8
  else if l ≤ 1 then (269.025 * l.pow (1 / 2.4) - 14.025 + 0.5).toUInt8
  else 255

/-- A colour of the display from bytes whose alpha is apart. -/
def premultiplied (r g b a : UInt8) : Paint :=
  if a = 0 then ⟨0, 0, 0, 0⟩
  else if a = 255 then ⟨r, g, b, a⟩
  else
    let factor := a.toFloat32 / 255
    let scale (c : UInt8) : UInt8 := display (linear c * factor)
    ⟨scale r, scale g, scale b, a⟩

/-- The paint of a colour. -/
def ofColor (c : Rgba) : Paint :=
  premultiplied (Binary32.toByte c.r) (Binary32.toByte c.g) (Binary32.toByte c.b)
    (Binary32.toByte c.a)

/-- The outline of swatches. -/
def outline : Paint :=
  ⟨90, 90, 90, 255⟩

end Paint

/-! ## Samples of an image -/

/-- The largest number of cells along either side. -/
def previewCells : UInt32 :=
  8

/-- One cell for each column and row, up to a limit. -/
def Size.capped (s : Size) (limit : UInt32) : Size :=
  ⟨min s.width limit, min s.height limit⟩

namespace Image

/-- The cells of a grid in row-major order. -/
def cells (columns rows : UInt32) : List (UInt32 × UInt32) :=
  (List.range rows.toNat).flatMap fun row =>
    (List.range columns.toNat).map fun column => (column.toUInt32, row.toUInt32)

/-- The nearest pixel for a cell of a grid. A pixel that the list does not reach reads as zero. -/
def sample (i : Image) (grid : Size) (cell : UInt32 × UInt32) : Except Panic Rgba := do
  let across ← Word.mul cell.1 i.size.width
  let x ← Word.div across grid.width
  let down ← Word.mul cell.2 i.size.height
  let y ← Word.div down grid.height
  let pixel ← i.pixel? x y
  return pixel.getD .zero

/-- The samples for the cells of a grid of at most `limit` by `limit` cells, with the number of
columns and rows. -/
def downsample (i : Image) (limit : UInt32) : Except Panic (UInt32 × UInt32 × List Rgba) :=
  if i.pixels.isEmpty ∨ limit = 0 then .ok (0, 0, [])
  else do
    let grid := i.size.capped limit
    let sampled ← (cells grid.width grid.height).mapM (i.sample grid)
    return (grid.width, grid.height, sampled)

/-- The column and the row at which a sample is painted, from its number. -/
def cell (columns : UInt32) (k : Nat) : Except Panic (UInt32 × UInt32) := do
  let column ← Word.mod k.toUInt32 columns
  let row ← Word.div k.toUInt32 columns
  return (column, row)

/-- The samples of a preview with the cells at which they are painted. -/
def painted (i : Image) : Except Panic (List ((UInt32 × UInt32) × Rgba)) := do
  let (columns, _, sampled) ← i.downsample previewCells
  sampled.zipIdx.mapM fun p => do
    let place ← cell columns p.2
    return (place, p.1)

/-- The marks of an image: its cells and its size. -/
def marks (i : Image) : Except Panic (List Mark) := do
  match ← i.painted with
  | [] => return [.text "empty image"]
  | shown => return shown.map (fun p => .fill (.ofColor p.2)) ++ [.text i.size.text]

end Image

/-! ## Nodes -/

/-- The marks of a colour. -/
def swatch (c : Rgba) : List Mark :=
  [.fill (.ofColor c), .stroke .outline]

/-- A number with three decimal places. -/
def rounded (x : Float32) : String :=
  Binary32.fixed 3 x

/-- The marks of a value. -/
def Value.marks : Value → Except Panic (List Mark)
  | .scalar x => .ok [.text (rounded x)]
  | .vector v => .ok [.text ("(" ++ ", ".intercalate (v.toList.map rounded) ++ ")")]
  | .color c => .ok (swatch c)
  | .image i => i.marks
  | .mask m => m.toImage.marks
  | .bytes b => .ok [.text s!"{b.length} bytes"]
  | .texture handle => .ok [.text s!"texture {handle.toNat}"]

/-- The marks of an output: its name and its value. -/
def Port.marks (p : Port) : Except Panic (List Mark) := do
  let shown ← p.value.elim (.ok [.text "-"]) Value.marks
  return .text p.name :: shown

/-- The marks of a kernel's badge. -/
def Badge.marks : Badge → List Mark
  | .label s => [.text s]
  | .swatch c => TextureFlow.swatch c

/-- Everything that a node paints: its kernel's badge, its outputs, and the error of the last
pass. -/
def Node.marks {κ : Type} [Kernel κ] (n : Node κ) : Except Panic (List Mark) := do
  let badge := (Kernel.badge? n.kernel).elim [] Badge.marks
  let outputs ← n.outputs.mapM Port.marks
  return badge ++ outputs.flatten ++ n.error.elim [] fun e => [.text e.message]

end TextureFlow
