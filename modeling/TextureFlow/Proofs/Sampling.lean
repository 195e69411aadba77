import Mathlib
import TextureFlow.Preview
import TextureFlow.Proofs.Addressing

/-!
# Samples of an image

A preview is a grid of at most eight by eight cells, each of which shows one pixel. Along either
side the cells are spread over the pixels by a truncating division, so no two cells show the same
column or row, and the first shows the first. All of this is counted in checked words, which are
wide enough for the largest image of the catalogue; a larger image may stop the preview.

* `spread_of_le`: the pixels that cells stand for, along one side;
* `Image.sample_eq`: a cell shows its pixel, and no step of finding it stops;
* `Image.painted_eq`: the sample of each cell is painted at that cell;
* `Image.preview_exact`: so a preview shows, and says that an image is empty when there is nothing.
-/

namespace TextureFlow

/-! ## Cells along one side -/

/-- The pixel that a cell stands for, when so many cells are spread over a side. -/
def scaled (side count cell : Nat) : Nat :=
  cell * side / count

/-- The cells along a side stand for different pixels inside it, in order and from the first on. -/
structure Spread (side count : Nat) : Prop where
  inside : ∀ cell < count, scaled side count cell < side
  first : scaled side count 0 = 0
  increasing : StrictMonoOn (scaled side count) (Set.Iio count)

/-- No more cells than pixels are spread over a side. -/
theorem spread_of_le {side count : Nat} (h : count ≤ side) : Spread side count where
  inside := by
    intro cell hcell
    have hside : 0 < side := by omega
    exact Nat.div_lt_of_lt_mul (Nat.mul_lt_mul_of_pos_right hcell hside)
  first := by rw [scaled, Nat.zero_mul, Nat.zero_div]
  increasing := by
    intro cell _ cell' hcell' hlt
    have hcount : 0 < count := Nat.zero_lt_of_lt hcell'
    -- the next cell is a whole side further, and a side is at least one step of the division
    have hnext : cell * side + count ≤ cell' * side :=
      calc cell * side + count ≤ cell * side + side := Nat.add_le_add_left h _
        _ = (cell + 1) * side := (Nat.succ_mul cell side).symm
        _ ≤ cell' * side := Nat.mul_le_mul_right side hlt
    calc scaled side count cell < cell * side / count + 1 := Nat.lt_succ_self _
      _ = (cell * side + count) / count := (Nat.add_div_right _ hcount).symm
      _ ≤ scaled side count cell' := Nat.div_le_div_right hnext

/-- As many cells as pixels show each pixel. -/
theorem scaled_self {side cell : Nat} (h : cell < side) : scaled side side cell = cell :=
  Nat.mul_div_cancel cell (Nat.zero_lt_of_lt h)

/-- The products that occur fit a 32-bit word. -/
theorem mul_side_lt {side count cell : UInt32} (hside : side ≤ maxDimension) (hcount : count ≤ side)
    (hcell : cell < count) : cell.toNat * side.toNat < 2 ^ 32 := by
  have hside : side.toNat ≤ 16384 := UInt32.le_iff_toNat_le.mp hside
  have hcell : cell.toNat ≤ 16384 :=
    (UInt32.lt_iff_toNat_lt.mp hcell).le.trans ((UInt32.le_iff_toNat_le.mp hcount).trans hside)
  calc cell.toNat * side.toNat ≤ 16384 * 16384 := Nat.mul_le_mul hcell hside
    _ < 2 ^ 32 := by norm_num

/-- The pixel that a cell stands for is found without leaving the words. -/
theorem exists_scaled {side count cell : UInt32} (hside : side ≤ maxDimension)
    (hcount : count ≤ side) (hcell : cell < count) :
    ∃ product place, Word.mul cell side = .ok product ∧ Word.div product count = .ok place ∧
      place.toNat = scaled side.toNat count.toNat cell.toNat := by
  obtain ⟨product, hmul, hproduct⟩ := Word.exists_ofNat_eq_ok (mul_side_lt hside hcount hcell)
  have hzero : count ≠ 0 := UInt32.pos_iff_ne_zero.mp (UInt32.lt_of_le_of_lt UInt32.zero_le hcell)
  refine ⟨product, product / count, hmul, Word.div_of_ne_zero hzero, ?_⟩
  rw [UInt32.toNat_div, hproduct]
  rfl

namespace Size

/-- A grid has no more columns and rows than an image. -/
structure Inside (grid s : Size) : Prop where
  width : grid.width ≤ s.width
  height : grid.height ≤ s.height

theorem Inside.spread_width {grid s : Size} (h : grid.Inside s) :
    Spread s.width.toNat grid.width.toNat :=
  spread_of_le (UInt32.le_iff_toNat_le.mp h.width)

theorem Inside.spread_height {grid s : Size} (h : grid.Inside s) :
    Spread s.height.toNat grid.height.toNat :=
  spread_of_le (UInt32.le_iff_toNat_le.mp h.height)

theorem inside_capped (s : Size) (limit : UInt32) : (s.capped limit).Inside s where
  width := by
    rw [UInt32.le_iff_toNat_le, capped, UInt32.toNat_min]
    exact min_le_left _ _
  height := by
    rw [UInt32.le_iff_toNat_le, capped, UInt32.toNat_min]
    exact min_le_left _ _

theorem capped_eq_self {s : Size} {limit : UInt32} (hw : s.width ≤ limit) (hh : s.height ≤ limit) :
    s.capped limit = s := by
  rw [capped, UInt32.min_def, UInt32.min_def, if_pos hw, if_pos hh]

theorem area_capped_eq_zero_iff {s : Size} {limit : UInt32} (hlimit : limit ≠ 0) :
    (s.capped limit).area = 0 ↔ s.width = 0 ∨ s.height = 0 := by
  have hpos : 0 < limit.toNat := Nat.pos_of_ne_zero fun h => hlimit (UInt32.toNat_inj.mp h)
  have hzero (n : UInt32) : (min n limit).toNat = 0 ↔ n = 0 := by
    rw [UInt32.toNat_min, ← UInt32.toNat_inj, UInt32.toNat_zero]
    omega
  rw [area, Nat.mul_eq_zero, capped, hzero, hzero]

/-- The column and the row of a place, counted in words. -/
def coordinate (s : Size) (k : Nat) : UInt32 × UInt32 :=
  (k.toUInt32 % s.width, k.toUInt32 / s.width)

theorem coordinate_offset {s : Size} (harea : s.area ≤ 2 ^ 32) {x y : Nat}
    (hx : x < s.width.toNat) (hy : y < s.height.toNat) :
    s.coordinate (s.offset x y) = (x.toUInt32, y.toUInt32) := by
  have hplace : (s.offset x y).toUInt32.toNat = s.offset x y :=
    UInt32.toNat_ofNat_of_lt' ((offset_lt_area hx hy).trans_le harea)
  have hcolumn : (s.offset x y).toUInt32 % s.width = x.toUInt32 := by
    apply UInt32.toNat_inj.mp
    rw [UInt32.toNat_mod, hplace, offset_mod_width hx, toNat_toUInt32 hx]
  have hrow : (s.offset x y).toUInt32 / s.width = y.toUInt32 := by
    apply UInt32.toNat_inj.mp
    rw [UInt32.toNat_div, hplace, offset_div_width hx, toNat_toUInt32 hy]
  rw [coordinate, hcolumn, hrow]

end Size

/-- A traversal of which no step stops. -/
theorem mapM_eq_ok_map {ε α β : Type} {f : α → Except ε β} {g : α → β} {l : List α}
    (h : ∀ a ∈ l, f a = .ok (g a)) : l.mapM f = .ok (l.map g) := by
  induction l with
  | nil => rfl
  | cons a l ih =>
    rw [List.mapM_cons, h a List.mem_cons_self, ih fun b hb => h b (List.mem_cons_of_mem a hb)]
    rfl

namespace Image

variable {i : Image} {grid : Size} {limit : UInt32}

/-! ## Grids -/

/-- The entry of a list of rows at a column of one of them. -/
theorem getElem?_flatMap_range {α : Type} (f : Nat → Nat → α) {columns rows column row : Nat}
    (hcolumn : column < columns) (hrow : row < rows) :
    ((List.range rows).flatMap fun row => (List.range columns).map fun column =>
      f column row)[row * columns + column]? = some (f column row) := by
  induction rows with
  | zero => exact absurd hrow (Nat.not_lt_zero row)
  | succ rows ih =>
    have hlength : ((List.range rows).flatMap fun row => (List.range columns).map fun column =>
        f column row).length = rows * columns := by
      simp [List.length_flatMap]
    rw [List.range_succ, List.flatMap_append, List.flatMap_singleton]
    obtain hlt | rfl := Nat.lt_succ_iff_lt_or_eq.mp hrow
    · have hbefore : row * columns + column < rows * columns := by
        rw [Nat.add_comm, Nat.mul_comm row, Nat.mul_comm rows]
        exact Nat.add_mul_lt_mul_of_lt_of_lt hcolumn hlt
      rw [List.getElem?_append_left (hlength ▸ hbefore), ih hlt]
    · rw [List.getElem?_append_right (by omega), hlength, Nat.add_sub_cancel_left,
        List.getElem?_map, List.getElem?_range hcolumn]
      rfl

theorem length_cells (grid : Size) : (cells grid.width grid.height).length = grid.area := by
  simp [cells, List.length_flatMap, Size.area, Nat.mul_comm]

theorem getElem?_cells {x y : Nat} (hx : x < grid.width.toNat) (hy : y < grid.height.toNat) :
    (cells grid.width grid.height)[grid.offset x y]? = some (x.toUInt32, y.toUInt32) :=
  getElem?_flatMap_range (fun column row => (column.toUInt32, row.toUInt32)) hx hy

theorem mem_cells {cell : UInt32 × UInt32} (h : cell ∈ cells grid.width grid.height) :
    cell.1 < grid.width ∧ cell.2 < grid.height := by
  simp only [cells, List.mem_flatMap, List.mem_map, List.mem_range] at h
  obtain ⟨y, hy, x, hx, rfl⟩ := h
  exact ⟨toUInt32_lt hx, toUInt32_lt hy⟩

/-- A sample is painted at the column and the row of its number. -/
theorem cell_eq {k : Nat} (hk : k < grid.area) : cell grid.width k = .ok (grid.coordinate k) := by
  have hpos : 0 < grid.width.toNat := Nat.pos_of_mul_pos_right (Nat.zero_lt_of_lt hk)
  have hwidth : grid.width ≠ 0 := fun h => hpos.ne' (congrArg UInt32.toNat h)
  rw [cell, Word.mod_of_ne_zero hwidth, Word.div_of_ne_zero hwidth]
  rfl

/-- That is the cell which was sampled. -/
theorem zipIdx_map_coordinate (harea : grid.area ≤ 2 ^ 32) {sampled : List Rgba}
    (hlength : sampled.length = grid.area) :
    (sampled.zipIdx.map fun p => (grid.coordinate p.2, p.1)) =
      (cells grid.width grid.height).zip sampled := by
  apply List.ext_getElem?
  intro k
  rw [List.getElem?_map, List.getElem?_zipIdx]
  by_cases hk : k < grid.area
  · obtain ⟨x, hx, y, hy, rfl⟩ := Size.exists_offset_eq hk
    obtain ⟨c, hsampled⟩ : ∃ c, sampled[grid.offset x y]? = some c :=
      ⟨_, List.getElem?_eq_getElem (hlength ▸ hk)⟩
    have hpair : ((cells grid.width grid.height).zip sampled)[grid.offset x y]? =
        some ((x.toUInt32, y.toUInt32), c) :=
      List.getElem?_zip_eq_some.mpr ⟨getElem?_cells hx hy, hsampled⟩
    rw [hsampled, hpair, ← Size.coordinate_offset harea hx hy]
    simp
  · rw [List.getElem?_eq_none (by omega), List.getElem?_eq_none]
    · rfl
    · rw [List.length_zip, length_cells]
      omega

/-! ## Samples -/

/-- The pixel that a cell of a grid stands for, or zero where the list of pixels ends before. -/
def nearest (i : Image) (grid : Size) (x y : Nat) : Rgba :=
  i.pixels[i.size.offset (scaled i.size.width.toNat grid.width.toNat x)
    (scaled i.size.height.toNat grid.height.toNat y)]?.getD .zero

/-- The cells of a grid over an image, row by row. Each shows the pixel that it stands for. -/
structure Samples (i : Image) (grid : Size) (sampled : List Rgba) : Prop where
  length : sampled.length = grid.area
  cell : ∀ x < grid.width.toNat, ∀ y < grid.height.toNat,
    sampled[grid.offset x y]? = some (i.nearest grid x y)

/-- The pixels that the cells of a grid stand for. -/
def sampleAll (i : Image) (grid : Size) : List Rgba :=
  (cells grid.width grid.height).map fun cell => i.nearest grid cell.1.toNat cell.2.toNat

theorem samples_sampleAll (i : Image) (grid : Size) : i.Samples grid (i.sampleAll grid) where
  length := by rw [sampleAll, List.length_map, length_cells]
  cell := by
    intro x hx y hy
    rw [sampleAll, List.getElem?_map, getElem?_cells hx hy, Option.map_some, toNat_toUInt32 hx,
      toNat_toUInt32 hy]

/-- A grid with a cell for every pixel shows the pixels. -/
theorem Samples.eq_pixels {sampled : List Rgba} (h : i.Samples i.size sampled)
    (hc : i.Consistent) : sampled = i.pixels := by
  apply List.ext_getElem?
  intro k
  by_cases hk : k < i.size.area
  · obtain ⟨x, hx, y, hy, rfl⟩ := Size.exists_offset_eq hk
    obtain ⟨p, hp⟩ := hc.exists_pixel hx hy
    rw [h.cell x hx y hy, nearest, scaled_self hx, scaled_self hy, hp]
    rfl
  · rw [List.getElem?_eq_none (by rw [h.length]; omega),
      List.getElem?_eq_none (by rw [hc]; omega)]

theorem downsample_of_nil (h : i.pixels = []) (limit : UInt32) :
    i.downsample limit = .ok (0, 0, []) :=
  if_pos (.inl (List.isEmpty_iff.mpr h))

section

variable (hw : i.size.width ≤ maxDimension) (hh : i.size.height ≤ maxDimension)

include hw hh

/-- A cell shows the pixel that it stands for, and no step of finding it stops. -/
theorem sample_eq (hgrid : grid.Inside i.size) {cell : UInt32 × UInt32} (hx : cell.1 < grid.width)
    (hy : cell.2 < grid.height) :
    i.sample grid cell = .ok (i.nearest grid cell.1.toNat cell.2.toNat) := by
  obtain ⟨across, x, hacross, hxplace, hxscaled⟩ := exists_scaled hw hgrid.width hx
  obtain ⟨down, y, hdown, hyplace, hyscaled⟩ := exists_scaled hh hgrid.height hy
  have hinx : x < i.size.width := by
    rw [UInt32.lt_iff_toNat_lt, hxscaled]
    exact hgrid.spread_width.inside _ (UInt32.lt_iff_toNat_lt.mp hx)
  have hiny : y < i.size.height := by
    rw [UInt32.lt_iff_toNat_lt, hyscaled]
    exact hgrid.spread_height.inside _ (UInt32.lt_iff_toNat_lt.mp hy)
  have hpixel := pixel?_of_lt hinx hiny
    (Size.offset_lt_of_area_le (Size.area_le hw hh) hinx hiny)
  rw [hxscaled, hyscaled] at hpixel
  simp only [sample, hacross, hxplace, hdown, hyplace, hpixel, Except.bind, bind]
  rfl

theorem downsample_of_ne_nil (h : i.pixels ≠ []) (hlimit : limit ≠ 0) :
    i.downsample limit = .ok ((i.size.capped limit).width, (i.size.capped limit).height,
      i.sampleAll (i.size.capped limit)) := by
  have hsome : ¬ (i.pixels.isEmpty ∨ limit = 0) :=
    not_or.mpr ⟨fun hempty => h (List.isEmpty_iff.mp hempty), hlimit⟩
  have hsampled : (cells (i.size.capped limit).width (i.size.capped limit).height).mapM
      (i.sample (i.size.capped limit)) = .ok (i.sampleAll (i.size.capped limit)) := by
    refine mapM_eq_ok_map fun cell hcell => ?_
    obtain ⟨hx, hy⟩ := mem_cells hcell
    exact sample_eq hw hh (i.size.inside_capped limit) hx hy
  rw [downsample, if_neg hsome]
  exact congrArg (· >>= _) hsampled

end

/-! ## Previews -/

/-- The sample of each cell is painted at that cell. -/
theorem painted_eq {sampled : List Rgba}
    (h : i.downsample previewCells = .ok (grid.width, grid.height, sampled))
    (hlength : sampled.length = grid.area) (harea : grid.area ≤ 2 ^ 32) :
    i.painted = .ok ((cells grid.width grid.height).zip sampled) := by
  have hcells : (sampled.zipIdx.mapM fun p => do
      let place ← cell grid.width p.2
      return (place, p.1)) = .ok (sampled.zipIdx.map fun p => (grid.coordinate p.2, p.1)) := by
    refine mapM_eq_ok_map fun p hp => ?_
    have hk : p.2 < grid.area := hlength ▸ List.snd_lt_of_mem_zipIdx hp
    simp only [cell_eq hk]
    rfl
  rw [painted, h]
  exact hcells.trans (congrArg Except.ok (zipIdx_map_coordinate harea hlength))

/-- An image is said to be empty exactly if no cell is painted. -/
theorem exists_marks {shown : List ((UInt32 × UInt32) × Rgba)} (h : i.painted = .ok shown) :
    ∃ marks, i.marks = .ok marks ∧ (marks = [.text "empty image"] ↔ shown = []) := by
  rw [marks, h]
  cases shown with
  | nil => exact ⟨_, rfl, iff_of_true rfl rfl⟩
  | cons p shown => exact ⟨_, rfl, iff_of_false (by simp) nofun⟩

/-- The preview of an image of at most the largest size has a cell for each column and row, up to
eight, or none without pixels. The cells are spread over the image, and each shows its pixel, or
zero where the list of pixels ends before, and is painted at its column and row; so a small image is
shown as it is. No step leaves the words or divides by zero: every preview has a result. It says
that the image is empty if it has no pixels or no side. -/
theorem preview_exact (hw : i.size.width ≤ maxDimension) (hh : i.size.height ≤ maxDimension) :
    let grid : Size := ⟨min i.size.width previewCells, min i.size.height previewCells⟩
    (i.pixels = [] → i.downsample previewCells = .ok (0, 0, [])) ∧
    (i.pixels ≠ [] → ∃ sampled,
      i.downsample previewCells = .ok (grid.width, grid.height, sampled) ∧
      i.Samples grid sampled ∧
      i.painted = .ok ((cells grid.width grid.height).zip sampled)) ∧
    Spread i.size.width.toNat grid.width.toNat ∧ Spread i.size.height.toNat grid.height.toNat ∧
    (i.Consistent → i.size.width ≤ previewCells → i.size.height ≤ previewCells →
      grid = i.size ∧ ∃ columns rows, i.downsample previewCells = .ok (columns, rows, i.pixels)) ∧
    ∃ marks, i.marks = .ok marks ∧ (marks = [.text "empty image"] ↔
      i.pixels = [] ∨ i.size.width = 0 ∨ i.size.height = 0) := by
  intro grid
  have hlimit : previewCells ≠ 0 := by decide
  have hgrid : grid.Inside i.size := i.size.inside_capped previewCells
  have harea : grid.area ≤ 2 ^ 32 :=
    Size.area_le (UInt32.le_trans hgrid.width hw) (UInt32.le_trans hgrid.height hh)
  have hsamples : i.Samples grid (i.sampleAll grid) := i.samples_sampleAll grid
  have hshown (hpixels : i.pixels ≠ []) := downsample_of_ne_nil hw hh hpixels hlimit
  have hpainted (hpixels : i.pixels ≠ []) : i.painted = .ok
      ((cells grid.width grid.height).zip (i.sampleAll grid)) :=
    painted_eq (hshown hpixels) hsamples.length harea
  refine ⟨fun hpixels => downsample_of_nil hpixels _,
    fun hpixels => ⟨_, hshown hpixels, hsamples, hpainted hpixels⟩,
    hgrid.spread_width, hgrid.spread_height, fun hc hwide hhigh => ?small, ?marks⟩
  case small =>
    have hsize : grid = i.size := Size.capped_eq_self hwide hhigh
    refine ⟨hsize, ?_⟩
    by_cases hpixels : i.pixels = []
    · exact ⟨0, 0, hpixels ▸ downsample_of_nil hpixels _⟩
    · have hall : i.sampleAll grid = i.pixels := by
        rw [hsize]
        exact (i.samples_sampleAll i.size).eq_pixels hc
      exact ⟨_, _, hall ▸ hshown hpixels⟩
  case marks =>
    by_cases hpixels : i.pixels = []
    · have hnil : i.downsample previewCells = .ok (Size.zero.width, Size.zero.height, []) :=
        downsample_of_nil hpixels _
      have hnone : i.painted = .ok [] := painted_eq hnil rfl (Nat.zero_le _)
      obtain ⟨marks, hmarks, hiff⟩ := exists_marks hnone
      exact ⟨marks, hmarks, hiff.trans (iff_of_true rfl (.inl hpixels))⟩
    · obtain ⟨marks, hmarks, hiff⟩ := exists_marks (hpainted hpixels)
      have hsides : grid.area = 0 ↔ i.size.width = 0 ∨ i.size.height = 0 :=
        Size.area_capped_eq_zero_iff hlimit
      refine ⟨marks, hmarks, hiff.trans ?_⟩
      rw [← List.length_eq_zero_iff, List.length_zip, length_cells, hsamples.length, min_self,
        hsides, or_iff_right hpixels]

/-- An image of twelve rows whose list of pixels ends in the second. -/
def torn : Image :=
  ⟨⟨2, 12⟩, [.black, .black, .white]⟩

/-- Eight rows are shown of it. The second shows the last pixel and, where there is none, zero. -/
theorem preview_exact_torn :
    torn.size.width ≤ maxDimension ∧ torn.size.height ≤ maxDimension ∧ ∃ sampled,
      torn.downsample previewCells = .ok (2, 8, sampled) ∧ sampled.length = 16 ∧
      sampled[2]? = some .white ∧ sampled[3]? = some .zero ∧
      ∃ marks, torn.marks = .ok marks ∧ marks ≠ [.text "empty image"] := by
  have hw : torn.size.width ≤ maxDimension := by decide
  have hh : torn.size.height ≤ maxDimension := by decide
  obtain ⟨-, hshown, -, -, -, marks, hmarks, hempty⟩ := preview_exact hw hh
  obtain ⟨sampled, hsampled, hsamples, -⟩ := hshown (List.cons_ne_nil _ _)
  refine ⟨hw, hh, sampled, hsampled, hsamples.length, hsamples.cell 0 (by decide) 1 (by decide),
    hsamples.cell 1 (by decide) 1 (by decide), marks, hmarks, fun h => ?_⟩
  have hnone := hempty.mp h
  simp [torn] at hnone

end Image

end TextureFlow
