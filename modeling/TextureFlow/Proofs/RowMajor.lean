import Mathlib
import TextureFlow.Proofs.CatalogueParameters
import TextureFlow.Proofs.Consistency

/-!
# Pixels, row by row

An image lists its rows one after the other, so a coordinate stands `y * width + x` places into the
list, and its column is what is left of its place when whole rows are taken away. A split view sees
places only. It finds the column again by a remainder, and cuts every row at the same column.

* `Size.offset_lt_area`, `Size.offset_mod_width`, `Size.offset_div_width`: the place of a
  coordinate, and its column and row back;
* `Image.index_eq_ok_iff`, `Image.index_eq_error_iff`: the places that can be counted in words;
* `Image.getElem?_splitAt`: every pixel of a split view, by its place;
* `Builtin.split_columns`: the same by columns, for every position of the split that can be set.
-/

namespace TextureFlow

/-! ## Places -/

namespace Size

/-- The place of a coordinate in a list that holds one row after the other. -/
def offset (s : Size) (x y : Nat) : Nat :=
  y * s.width.toNat + x

variable {s : Size} {x y : Nat}

theorem offset_lt_area (hx : x < s.width.toNat) (hy : y < s.height.toNat) :
    s.offset x y < s.area := by
  rw [offset, Nat.add_comm, Nat.mul_comm y]
  exact Nat.add_mul_lt_mul_of_lt_of_lt hx hy

/-- The column of a coordinate is left when whole rows are taken away from its place. -/
theorem offset_mod_width (hx : x < s.width.toNat) : s.offset x y % s.width.toNat = x := by
  rw [offset, Nat.mul_add_mod_self_right, Nat.mod_eq_of_lt hx]

/-- The row of a coordinate is the number of whole rows before its place. -/
theorem offset_div_width (hx : x < s.width.toNat) : s.offset x y / s.width.toNat = y := by
  have hwidth : 0 < s.width.toNat := by omega
  rw [offset, Nat.mul_comm, Nat.mul_add_div hwidth, Nat.div_eq_of_lt hx, Nat.add_zero]

/-- Every place is a word if their number is not too large. -/
theorem offset_lt_of_area_le (harea : s.area ≤ 2 ^ 32) {x y : UInt32} (hx : x < s.width)
    (hy : y < s.height) : s.offset x.toNat y.toNat < 2 ^ 32 :=
  (offset_lt_area (UInt32.lt_iff_toNat_lt.mp hx) (UInt32.lt_iff_toNat_lt.mp hy)).trans_le harea

/-- The largest image of the catalogue has fewer places than there are 32-bit words. -/
theorem area_le (hw : s.width ≤ maxDimension) (hh : s.height ≤ maxDimension) :
    s.area ≤ 2 ^ 32 := by
  have hwidth : s.width.toNat ≤ 16384 := UInt32.le_iff_toNat_le.mp hw
  have hheight : s.height.toNat ≤ 16384 := UInt32.le_iff_toNat_le.mp hh
  calc s.area ≤ 16384 * 16384 := Nat.mul_le_mul hwidth hheight
    _ ≤ 2 ^ 32 := by norm_num

end Size

namespace Image

variable {i j : Image} {x y k : UInt32} {e : Panic}

/-! ## Places in words -/

/-- What is counted is the place. -/
theorem index_eq_ok_iff : i.index x y = .ok k ↔ k.toNat = i.size.offset x.toNat y.toNat := by
  rw [index, bind_eq_ok_iff]
  constructor
  · rintro ⟨rows, hmul, hadd⟩
    have hrows : rows.toNat = y.toNat * i.size.width.toNat := Word.ofNat_eq_ok_iff.mp hmul
    have hplace : k.toNat = rows.toNat + x.toNat := Word.ofNat_eq_ok_iff.mp hadd
    rw [hplace, hrows]
    rfl
  · intro hplace
    have hlt : i.size.offset x.toNat y.toNat < 2 ^ 32 := hplace ▸ k.toNat_lt
    obtain ⟨rows, hmul, hrows⟩ := Word.exists_ofNat_eq_ok ((Nat.le_add_right _ _).trans_lt hlt)
    refine ⟨rows, hmul, Word.ofNat_eq_ok_iff.mpr ?_⟩
    rw [hplace, hrows]
    rfl

/-- A place that is no word is not counted. The product of a row and the width may be too large
already; else it is the sum. -/
theorem index_eq_error_iff : i.index x y = .error e ↔ 2 ^ 32 ≤ i.size.offset x.toNat y.toNat ∧
    e = if y.toNat * i.size.width.toNat < 2 ^ 32 then .sum else .product := by
  by_cases hlt : y.toNat * i.size.width.toNat < 2 ^ 32
  · obtain ⟨rows, hmul, hrows⟩ := Word.exists_ofNat_eq_ok hlt
    have hsum : i.index x y = Word.add rows x := by
      rw [index, Word.mul, hmul]
      rfl
    rw [if_pos hlt, hsum, Size.offset, ← hrows]
    exact Word.ofNat_eq_error_iff
  · have hmul : Word.mul y i.size.width = .error .product :=
      Word.ofNat_eq_error_iff.mpr ⟨Nat.le_of_not_lt hlt, rfl⟩
    have hplace : 2 ^ 32 ≤ i.size.offset x.toNat y.toNat :=
      (Nat.le_of_not_lt hlt).trans (Nat.le_add_right _ _)
    have hstop : i.index x y = .error .product := by rw [index, hmul]; rfl
    rw [if_neg hlt, and_iff_right hplace, hstop, Except.error.injEq]
    exact eq_comm

theorem exists_index (hplace : i.size.offset x.toNat y.toNat < 2 ^ 32) :
    ∃ k, i.index x y = .ok k ∧ k.toNat = i.size.offset x.toNat y.toNat := by
  have hk : (i.size.offset x.toNat y.toNat).toUInt32.toNat = i.size.offset x.toNat y.toNat :=
    UInt32.toNat_ofNat_of_lt' hplace
  exact ⟨_, index_eq_ok_iff.mpr hk, hk⟩

/-- Lookup inside an image reads the place of the coordinate, if that is a word. -/
theorem pixel?_of_lt (hx : x < i.size.width) (hy : y < i.size.height)
    (hplace : i.size.offset x.toNat y.toNat < 2 ^ 32) :
    i.pixel? x y = .ok i.pixels[i.size.offset x.toNat y.toNat]? := by
  obtain ⟨k, hindex, hk⟩ := exists_index hplace
  rw [pixel?, if_pos ⟨hx, hy⟩, hindex]
  exact congrArg (fun n => Except.ok i.pixels[n]?) hk

/-- Every place of a consistent image holds a pixel. -/
theorem Consistent.exists_pixel (h : i.Consistent) {x y : Nat} (hx : x < i.size.width.toNat)
    (hy : y < i.size.height.toNat) : ∃ p, i.pixels[i.size.offset x y]? = some p := by
  have hlt : i.size.offset x y < i.pixels.length :=
    (Size.offset_lt_area hx hy).trans_eq h.symm
  exact ⟨_, List.getElem?_eq_getElem hlt⟩

/-! ## Splitting -/

/-- A remainder that refuses to divide by zero. -/
def remainder? (n divisor : Nat) : Option Nat :=
  if divisor = 0 then none else some (n % divisor)

/-- A split view whose columns are found by remainders that refuse to divide by zero. -/
def splitExactly? (split : Float32) (i j : Image) : Option Image := do
  let pixels ← (i.pixels.zip j.pixels).zipIdx.mapM fun (p, k) => do
    let column ← remainder? k (max i.size.width.toNat 1)
    return if column < splitColumn split i.size.width then p.1 else p.2
  return { i with pixels }

/-- No division by zero is tried, whatever the sizes and the pixel lists are. -/
theorem splitExactly?_eq (split : Float32) (i j : Image) :
    splitExactly? split i j = some (splitAt split i j) := by
  have hwidth : max i.size.width.toNat 1 ≠ 0 := by omega
  have hcolumn (k : Nat) : remainder? k (max i.size.width.toNat 1) =
      some (k % max i.size.width.toNat 1) := if_neg hwidth
  unfold splitExactly?
  simp only [hcolumn, Option.bind_eq_bind, Option.bind_some]
  rw [List.mapM_pure]
  rfl

/-- A pixel of a split view is taken from the first image or from the second, by its column. -/
theorem getElem?_splitAt (hl : i.pixels.length = j.pixels.length) (split : Float32) (k : Nat) :
    (splitAt split i j).pixels[k]? =
      if k % max i.size.width.toNat 1 < splitColumn split i.size.width then i.pixels[k]?
      else j.pixels[k]? := by
  simp only [splitAt, List.getElem?_map, List.getElem?_zipIdx, Nat.zero_add]
  by_cases hk : k < i.pixels.length
  · have hk' : k < j.pixels.length := by omega
    have hpair : (i.pixels.zip j.pixels)[k]? = some (i.pixels[k], j.pixels[k]) :=
      List.getElem?_zip_eq_some.mpr ⟨List.getElem?_eq_getElem hk, List.getElem?_eq_getElem hk'⟩
    rw [hpair, List.getElem?_eq_getElem hk, List.getElem?_eq_getElem hk']
    exact apply_ite some _ _ _
  · have hi : i.pixels[k]? = none := List.getElem?_eq_none (by omega)
    have hj : j.pixels[k]? = none := List.getElem?_eq_none (by omega)
    have hpair : (i.pixels.zip j.pixels)[k]? = none := by
      apply List.getElem?_eq_none
      rw [List.length_zip]
      omega
    rw [hpair, hi, hj, ite_self]
    rfl

/-- The pixel of a split view at a coordinate. -/
theorem getElem?_splitAt_offset (hl : i.pixels.length = j.pixels.length) (split : Float32)
    {x : Nat} (hx : x < i.size.width.toNat) (y : Nat) :
    (splitAt split i j).pixels[i.size.offset x y]? =
      if x < splitColumn split i.size.width then i.pixels[i.size.offset x y]?
      else j.pixels[i.size.offset x y]? := by
  have hwidth : max i.size.width.toNat 1 = i.size.width.toNat := max_eq_left (by omega)
  rw [getElem?_splitAt hl, hwidth, Size.offset_mod_width hx]

end Image

/-! ## The split view as a kernel -/

namespace Builtin

/-- A split view fails for images of different sizes, and for no others. -/
theorem compute_splitView (split : Float32) (first second : Image) :
    (splitView split).compute [.image first, .image second] =
      if first.size = second.size then .ok [.image (Image.splitAt split first second)]
      else .error (.failed (.sizesDiffer first.size second.size)) := by
  have hchecked : (splitView split).compute [.image first, .image second] =
      first.requireSameSize second >>= fun _ =>
        .ok [Value.image (Image.splitAt split first second)] := rfl
  rw [hchecked, Image.requireSameSize]
  split <;> rfl

/-- A split view whose position was set cuts every row at one column, which is the position times
the width, rounded: left of it stand the pixels of the first image, from it on those of the second.
It takes any two images of one size, divides by zero for none, and fails for images of different
sizes. -/
theorem split_columns {old : Float32} {v : ParamValue} {k : Builtin}
    (hk : (splitView old).setParameter "split" v = .ok k) :
    ∃ split, v = .scalar split ∧ k = splitView split ∧ ∀ first second : Image,
      (first.size = second.size → ∃ image,
        k.compute [.image first, .image second] = .ok [.image image] ∧
        Image.splitExactly? split first second = some image ∧
        image.size = first.size ∧
        (first.Consistent → second.Consistent → image.Consistent ∧
          ∀ x < first.size.width.toNat, ∀ y < first.size.height.toNat, ∃ p q,
            first.pixels[first.size.offset x y]? = some p ∧
            second.pixels[first.size.offset x y]? = some q ∧
            image.pixels[first.size.offset x y]? =
              some (if x < Image.splitColumn split first.size.width then p else q))) ∧
      (first.size ≠ second.size → k.compute [.image first, .image second] =
        .error (.failed (.sizesDiffer first.size second.size))) := by
  cases setParameter_eq_ok_iff.mp hk with
  | @split _ split within =>
    refine ⟨split, rfl, rfl, fun first second => ⟨fun hs => ?_, fun hs =>
      (compute_splitView split first second).trans (if_neg hs)⟩⟩
    have hcompute := (compute_splitView split first second).trans (if_pos hs)
    have hexact := Image.splitExactly?_eq split first second
    refine ⟨_, hcompute, hexact, rfl, fun hfirst hsecond =>
      ⟨hfirst.splitAt hsecond hs split, fun x hx y hy => ?_⟩⟩
    have hl : first.pixels.length = second.pixels.length := by rw [hfirst, hsecond, hs]
    obtain ⟨p, hp⟩ := hfirst.exists_pixel hx hy
    obtain ⟨q, hq⟩ := hsecond.exists_pixel (hs ▸ hx) (hs ▸ hy)
    rw [← hs] at hq
    refine ⟨p, q, hp, hq, ?_⟩
    rw [Image.getElem?_splitAt_offset hl split hx, hp, hq]
    exact (apply_ite some _ _ _).symm

/-- Half of three columns is rounded to two, so the second row has its last pixel from the second
image. -/
theorem split_columns_halving :
    (splitView 0.25).setParameter "split" (.scalar 0.5) = .ok (splitView 0.5) ∧ ∃ image,
      (splitView 0.5).compute [.image (.filled ⟨3, 2⟩ .white), .image (.filled ⟨3, 2⟩ .black)] =
        .ok [.image image] ∧
      image.pixels[4]? = some .white ∧ image.pixels[5]? = some .black := by
  have hk : (splitView 0.25).setParameter "split" (.scalar 0.5) = .ok (splitView 0.5) := by
    decide +kernel
  obtain ⟨split, hv, -, hall⟩ := split_columns hk
  obtain rfl := ParamValue.scalar.inj hv
  obtain ⟨image, hcompute, -, -, hpixels⟩ :=
    (hall (.filled ⟨3, 2⟩ .white) (.filled ⟨3, 2⟩ .black)).1 rfl
  obtain ⟨-, hpixel⟩ := hpixels (Image.consistent_filled _ _) (Image.consistent_filled _ _)
  have hcolumn : Image.splitColumn 0.5 3 = 2 := by decide +kernel
  refine ⟨hk, image, hcompute, ?_, ?_⟩
  · obtain ⟨p, q, hp, -, himage⟩ := hpixel 1 (by decide) 1 (by decide)
    obtain rfl := Option.some.inj (hp : some Rgba.white = some p)
    exact himage.trans (congrArg some (if_pos (hcolumn ▸ by decide)))
  · obtain ⟨p, q, -, hq, himage⟩ := hpixel 2 (by decide) 1 (by decide)
    obtain rfl := Option.some.inj (hq : some Rgba.black = some q)
    exact himage.trans (congrArg some (if_neg (hcolumn ▸ by decide)))

end Builtin

end TextureFlow
