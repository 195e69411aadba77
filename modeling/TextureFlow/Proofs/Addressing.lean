import Mathlib
import TextureFlow.Proofs.RowMajor

/-!
# Looking up a pixel

Each coordinate of an image has a place of its own in the list of pixels, and every place belongs to
a coordinate. Lookup counts places in checked words. A side is a word, but the product of two sides
need not be: from place `2 ^ 32` on, lookup stops although it would only have to say whether the
list reaches that far. No size that the catalogue makes comes near; an image from outside may have
any size, with any list of pixels.

* `Size.offset_injective`, `Size.exists_offset_eq`: coordinates and places are one to one;
* `Image.exactAt_iff`: lookup is exact where the place can be counted, and only there;
* `Image.lookup_exact`: so it never answers wrongly, and answers everywhere for the sizes of at most
  `2 ^ 32` places, and for no others;
* `Image.lookup_stops`: an image of one pixel that is not looked up to its end.
-/

namespace TextureFlow

/-! ## Places -/

/-- A number below that of a word is the number of a word. -/
theorem toNat_toUInt32 {n : UInt32} {k : Nat} (h : k < n.toNat) : k.toUInt32.toNat = k :=
  UInt32.toNat_ofNat_of_lt' (h.trans n.toNat_lt)

theorem toUInt32_lt {n : UInt32} {k : Nat} (h : k < n.toNat) : k.toUInt32 < n := by
  rwa [UInt32.lt_iff_toNat_lt, toNat_toUInt32 h]

namespace Size

variable {s : Size}

/-- Two coordinates have two places. -/
theorem offset_injective {x x' y y' : Nat} (hx : x < s.width.toNat) (hx' : x' < s.width.toNat)
    (h : s.offset x y = s.offset x' y') : x = x' ∧ y = y' := by
  constructor
  · rw [← offset_mod_width hx (y := y), ← offset_mod_width hx' (y := y'), h]
  · rw [← offset_div_width hx (y := y), ← offset_div_width hx' (y := y'), h]

/-- Every place belongs to a coordinate. -/
theorem exists_offset_eq {k : Nat} (hk : k < s.area) :
    ∃ x < s.width.toNat, ∃ y < s.height.toNat, s.offset x y = k := by
  have hwidth : 0 < s.width.toNat := Nat.pos_of_mul_pos_right (Nat.zero_lt_of_lt hk)
  refine ⟨k % s.width.toNat, Nat.mod_lt k hwidth, k / s.width.toNat, ?_, ?_⟩
  · exact (Nat.div_lt_iff_lt_mul hwidth).mpr (by rwa [Nat.mul_comm])
  · exact Nat.div_add_mod' k s.width.toNat

end Size

namespace Image

variable {i : Image} {x y : UInt32} {e : Panic}

/-! ## Lookup -/

/-- Lookup answers, with the pixel at the place of a coordinate. It finds nothing if the coordinate
is outside the image or the list ends before its place. -/
def ExactAt (i : Image) (x y : UInt32) : Prop :=
  ∃ found, i.pixel? x y = .ok found ∧
    ∀ p, found = some p ↔ x < i.size.width ∧ y < i.size.height ∧
      ∃ h : i.size.offset x.toNat y.toNat < i.pixels.length,
        i.pixels[i.size.offset x.toNat y.toNat] = p

/-- Lookup is exact where the place can be counted. -/
theorem exactAt_of_lt
    (h : x < i.size.width → y < i.size.height → i.size.offset x.toNat y.toNat < 2 ^ 32) :
    i.ExactAt x y := by
  by_cases hin : x < i.size.width ∧ y < i.size.height
  · refine ⟨_, pixel?_of_lt hin.1 hin.2 (h hin.1 hin.2), fun p => ?_⟩
    simp only [List.getElem?_eq_some_iff, hin.1, hin.2, true_and]
  · exact ⟨none, if_neg hin, fun p => ⟨nofun, fun hp => (hin ⟨hp.1, hp.2.1⟩).elim⟩⟩

/-- Lookup stops inside an image where the place cannot be counted, and nowhere else. -/
theorem pixel?_eq_error_iff : i.pixel? x y = .error e ↔ x < i.size.width ∧ y < i.size.height ∧
    2 ^ 32 ≤ i.size.offset x.toNat y.toNat ∧
    e = if y.toNat * i.size.width.toNat < 2 ^ 32 then .sum else .product := by
  rw [← index_eq_error_iff, pixel?]
  by_cases hin : x < i.size.width ∧ y < i.size.height
  · rw [if_pos hin, and_iff_right hin.1, and_iff_right hin.2]
    cases i.index x y with
    | error e' =>
      exact ⟨fun h => congrArg _ (Except.error.inj h), fun h => congrArg _ (Except.error.inj h)⟩
    | ok k => exact iff_of_false (fun h => by cases h) (fun h => by cases h)
  · rw [if_neg hin]
    exact iff_of_false (fun h => by cases h) fun h => hin ⟨h.1, h.2.1⟩

/-- Where lookup answers inside an image, the place was counted. -/
theorem offset_lt_of_ok {found : Option Rgba} (hfound : i.pixel? x y = .ok found)
    (hx : x < i.size.width) (hy : y < i.size.height) :
    i.size.offset x.toNat y.toNat < 2 ^ 32 := by
  by_contra hplace
  have hstop := pixel?_eq_error_iff.mpr ⟨hx, hy, Nat.le_of_not_lt hplace, rfl⟩
  cases hfound.symm.trans hstop

theorem exactAt_iff : i.ExactAt x y ↔
    (x < i.size.width → y < i.size.height → i.size.offset x.toNat y.toNat < 2 ^ 32) :=
  ⟨fun ⟨_, hfound, _⟩ => offset_lt_of_ok hfound, exactAt_of_lt⟩

/-- Two coordinates inside an image are not counted to one place. -/
theorem index_injective {x' y' k : UInt32} (hx : x < i.size.width) (hx' : x' < i.size.width)
    (h : i.index x y = .ok k) (h' : i.index x' y' = .ok k) : x = x' ∧ y = y' := by
  have hplaces : i.size.offset x.toNat y.toNat = i.size.offset x'.toNat y'.toNat :=
    (index_eq_ok_iff.mp h).symm.trans (index_eq_ok_iff.mp h')
  obtain ⟨hxx, hyy⟩ := Size.offset_injective (UInt32.lt_iff_toNat_lt.mp hx)
    (UInt32.lt_iff_toNat_lt.mp hx') hplaces
  exact ⟨UInt32.toNat_inj.mp hxx, UInt32.toNat_inj.mp hyy⟩

/-- A size of too many places has a coordinate whose place is the first that is no word. -/
theorem exists_uncounted {s : Size} (harea : 2 ^ 32 < s.area) :
    ∃ x < s.width, ∃ y < s.height, s.offset x.toNat y.toNat = 2 ^ 32 := by
  obtain ⟨x, hx, y, hy, hk⟩ := Size.exists_offset_eq harea
  refine ⟨x.toUInt32, toUInt32_lt hx, y.toUInt32, toUInt32_lt hy, ?_⟩
  rw [toNat_toUInt32 hx, toNat_toUInt32 hy, hk]

/-- Where lookup answers, it is exact, and two coordinates inside an image are never read at one
place. It stops at the coordinates inside whose place is no word: on the product of the row and the
width if that is too large already, or else on the sum. So it is exact at all coordinates, for all
lists of pixels, exactly for the sizes of at most `2 ^ 32` places. -/
theorem lookup_exact (i : Image) :
    (∀ x y found, i.pixel? x y = .ok found → i.ExactAt x y) ∧
    (∀ x < i.size.width, ∀ y < i.size.height, ∀ x' < i.size.width, ∀ y' < i.size.height, ∀ k,
      i.index x y = .ok k → i.index x' y' = .ok k → x = x' ∧ y = y') ∧
    (∀ x y e, i.pixel? x y = .error e ↔ x < i.size.width ∧ y < i.size.height ∧
      2 ^ 32 ≤ i.size.offset x.toNat y.toNat ∧
      e = if y.toNat * i.size.width.toNat < 2 ^ 32 then .sum else .product) ∧
    (∀ x y, i.ExactAt x y ↔
      (x < i.size.width → y < i.size.height → i.size.offset x.toNat y.toNat < 2 ^ 32)) ∧
    (i.size.area ≤ 2 ^ 32 ↔ ∀ pixels x y, ExactAt ⟨i.size, pixels⟩ x y) := by
  refine ⟨fun x y found hfound => exactAt_of_lt (offset_lt_of_ok hfound),
    fun x hx y _ x' hx' y' _ k h h' => index_injective hx hx' h h',
    fun x y e => pixel?_eq_error_iff, fun x y => exactAt_iff, ⟨?small, ?large⟩⟩
  case small =>
    intro harea pixels x y
    exact exactAt_of_lt (Size.offset_lt_of_area_le harea)
  case large =>
    contrapose!
    intro harea
    obtain ⟨x, hx, y, hy, hplace⟩ := exists_uncounted harea
    exact ⟨[], x, y, fun hexact => (exactAt_iff.mp hexact hx hy).ne hplace⟩

/-- One pixel, in an image of more places than there are words. -/
def vast : Image :=
  ⟨⟨65536, 65537⟩, [.white]⟩

/-- The last row starts at place `2 ^ 32`. The list of pixels ends long before, but lookup does not
say so: it stops. -/
theorem lookup_stops :
    0 < vast.size.width ∧ 65536 < vast.size.height ∧
    vast.pixels.length ≤ vast.size.offset 0 65536 ∧ vast.pixel? 0 65536 = .error .product ∧
    ¬ vast.ExactAt 0 65536 := by
  have hx : 0 < vast.size.width := by decide
  have hy : 65536 < vast.size.height := by decide
  have hplace : 2 ^ 32 ≤ vast.size.offset (0 : UInt32).toNat (65536 : UInt32).toNat := by decide
  exact ⟨hx, hy, by decide, pixel?_eq_error_iff.mpr ⟨hx, hy, hplace, by decide⟩,
    fun hexact => hplace.not_gt (exactAt_iff.mp hexact hx hy)⟩

end Image

end TextureFlow
