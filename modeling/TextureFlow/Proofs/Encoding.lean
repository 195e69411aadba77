import Mathlib
import TextureFlow.Proofs.RowMajor

/-!
# Images as bytes

A pixel is encoded as four bytes, one for each channel, and an image as its pixels one after the
other. Decoding cuts the bytes into fours again. Every byte is the rounding of the number that it
stands for, so bytes survive being decoded and encoded; numbers between two bytes do not survive
being encoded, but their bytes do from then on.

* `Binary32.toByte_ofByte`: a byte stands for a number that is rounded to it;
* `Rgba.flatMap_toBytes_decode`: whole pixels survive being decoded and encoded;
* `Rgba.getElem?_decode`: the four bytes that a pixel is read from;
* `Builtin.bytes_exact`: the two kernels that decode and encode images.
-/

namespace TextureFlow

/-! ## One channel -/

/-- A byte stands for a number that is rounded to it. -/
theorem Binary32.toByte_ofByte (c : UInt8) : toByte (ofByte c) = c := by
  have hall : ∀ n : Fin (2 ^ 8), toByte (ofByte (.ofFin n)) = .ofFin n := by decide +kernel
  exact hall c.toFin

/-! ## Four bytes a pixel -/

namespace Rgba

/-- The pixels of a byte list, from the first on. -/
def decode : List UInt8 → List Rgba
  | r :: g :: b :: a :: rest =>
    ⟨Binary32.ofByte r, Binary32.ofByte g, Binary32.ofByte b, Binary32.ofByte a⟩ :: decode rest
  | _ => []

theorem pixelsOnto_eq (found : List Rgba) (bytes : List UInt8) :
    pixelsOnto found bytes = found.reverse ++ decode bytes := by
  fun_induction pixelsOnto found bytes with
  | case1 found r g b a rest pixel ih =>
    rw [ih, decode, List.reverse_cons, List.append_assoc]
    rfl
  | case2 bytes found hshort =>
    unfold decode
    split
    · exact (hshort _ _ _ _ _ rfl).elim
    · rw [List.append_nil]

/-- Whole pixels survive being decoded and encoded. -/
theorem flatMap_toBytes_decode {bytes : List UInt8} (h : 4 ∣ bytes.length) :
    (decode bytes).flatMap toBytes = bytes := by
  fun_induction decode bytes with
  | case1 r g b a rest ih =>
    have hrest : 4 ∣ rest.length := by
      simp only [List.length_cons] at h
      omega
    rw [List.flatMap_cons, ih hrest]
    simp only [toBytes, toList, List.map_cons, List.map_nil, Binary32.toByte_ofByte]
    rfl
  | case2 bytes hshort =>
    have hlt := length_lt_four hshort
    have hnil : bytes = [] := List.length_eq_zero_iff.mp (by omega)
    rw [hnil, List.flatMap_nil]

/-- The four bytes that a pixel is read from. -/
theorem getElem?_decode {bytes : List UInt8} {k : Nat} (hk : 4 * k + 4 ≤ bytes.length) :
    (decode bytes)[k]?.map toList = some (((bytes.drop (4 * k)).take 4).map Binary32.ofByte) := by
  fun_induction decode bytes generalizing k with
  | case1 r g b a rest ih =>
    cases k with
    | zero => rfl
    | succ k =>
      have hrest : 4 * k + 4 ≤ rest.length := by
        simp only [List.length_cons] at hk
        omega
      exact ih hrest
  | case2 bytes hshort =>
    have hlt := length_lt_four hshort
    omega

/-- Every pixel is encoded as four bytes. -/
theorem length_flatMap_toBytes (pixels : List Rgba) :
    (pixels.flatMap toBytes).length = 4 * pixels.length := by
  induction pixels with
  | nil => rfl
  | cons c pixels ih =>
    rw [List.flatMap_cons, List.length_append, ih, List.length_cons]
    have hfour : c.toBytes.length = 4 := rfl
    omega

end Rgba

/-! ## Images -/

/-- Numbers in their range are not moved. -/
theorem Size.clamped_of_isSide {width height : UInt32} (hw : IsSide width) (hh : IsSide height) :
    clamped width height = ⟨width, height⟩ := by
  have hclamp {n : UInt32} (h : IsSide n) :
      (if n < 1 then 1 else if maxDimension < n then maxDimension else n) = n := by
    rw [if_neg (UInt32.not_lt.mpr h.1), if_neg (UInt32.not_lt.mpr h.2)]
  exact congrArg₂ Size.mk (hclamp hw) (hclamp hh)

theorem Size.Bounded.area_le {size : Size} (h : size.Bounded) : size.area ≤ 2 ^ 32 :=
  Size.area_le h.width.2 h.height.2

namespace Image

/-- As many bytes as the size asks for are an image, and no other number of bytes. -/
theorem ofBytes_eq_ok_iff {size : Size} {bytes : List UInt8} {i : Image} :
    ofBytes size bytes = .ok i ↔
      bytes.length = 4 * size.area ∧ i = ⟨size, Rgba.decode bytes⟩ := by
  have hdecode : Rgba.pixelsOnto [] bytes = Rgba.decode bytes := Rgba.pixelsOnto_eq [] bytes
  simp only [ofBytes, hdecode, Nat.mul_comm size.area 4]
  by_cases hl : bytes.length = 4 * size.area
  · simp [hl, eq_comm]
  · simp [hl]

theorem length_toBytes {i : Image} (h : i.Consistent) : i.toBytes.length = 4 * i.size.area := by
  rw [toBytes, Rgba.length_flatMap_toBytes, h]

/-- Bytes survive being decoded and encoded. -/
theorem toBytes_of_ofBytes {size : Size} {bytes : List UInt8} {i : Image}
    (h : ofBytes size bytes = .ok i) : i.toBytes = bytes := by
  obtain ⟨hl, rfl⟩ := ofBytes_eq_ok_iff.mp h
  exact Rgba.flatMap_toBytes_decode ⟨size.area, hl⟩

/-- A pixel of an image that was decoded is read from the four bytes at its place. -/
theorem pixel?_of_ofBytes {size : Size} (hsize : size.Bounded) {bytes : List UInt8} {i : Image}
    (h : ofBytes size bytes = .ok i) {x y : UInt32} (hx : x < size.width) (hy : y < size.height) :
    ∃ k p, i.index x y = .ok k ∧ k.toNat = size.offset x.toNat y.toNat ∧
      i.pixel? x y = .ok (some p) ∧
      p.toList = ((bytes.drop (4 * size.offset x.toNat y.toNat)).take 4).map Binary32.ofByte := by
  obtain ⟨hl, rfl⟩ := ofBytes_eq_ok_iff.mp h
  have hword : size.offset x.toNat y.toNat < 2 ^ 32 :=
    Size.offset_lt_of_area_le hsize.area_le hx hy
  have hlt : size.offset x.toNat y.toNat < size.area :=
    Size.offset_lt_area (UInt32.lt_iff_toNat_lt.mp hx) (UInt32.lt_iff_toNat_lt.mp hy)
  have hbytes : 4 * size.offset x.toNat y.toNat + 4 ≤ bytes.length := by omega
  obtain ⟨k, hindex, hk⟩ := exists_index (i := ⟨size, Rgba.decode bytes⟩) hword
  obtain ⟨p, hp, hchannels⟩ := Option.map_eq_some_iff.mp (Rgba.getElem?_decode hbytes)
  have hpixel : pixel? ⟨size, Rgba.decode bytes⟩ x y = .ok (some p) :=
    (pixel?_of_lt hx hy hword).trans (congrArg Except.ok hp)
  exact ⟨k, p, hindex, hk, hpixel, hchannels⟩

end Image

/-! ## The kernels -/

namespace Builtin

theorem compute_imageFromBytes (size : Size) (bytes : List UInt8) :
    (imageFromBytes size).compute [.bytes bytes] =
      (fun i => [.image i]) <$> Image.ofBytes size bytes :=
  rfl

theorem compute_imageToBytes (i : Image) :
    imageToBytes.compute [.image i] = .ok [.bytes i.toBytes] :=
  rfl

/-- Bytes are decoded to an image of a size exactly if there are four for each pixel. Each pixel is
read from the four bytes at its place, which can be counted in 32-bit words, and the image is
encoded as the same bytes. An image that holds as many pixels as its size says is encoded as bytes
that are decoded again, to an image with the same encoding. -/
theorem bytes_exact {w h : UInt32} (hw : IsSide w) (hh : IsSide h) :
    (∀ bytes : List UInt8,
      ((∃ outs, (imageFromBytesOf w h).compute [.bytes bytes] = .ok outs) ↔
        bytes.length = 4 * (w.toNat * h.toNat)) ∧
      ∀ outs, (imageFromBytesOf w h).compute [.bytes bytes] = .ok outs → ∃ image,
        outs = [.image image] ∧ image.size = ⟨w, h⟩ ∧ image.Consistent ∧
        (∀ x < w, ∀ y < h, ∃ k p, image.index x y = .ok k ∧
          k.toNat = y.toNat * w.toNat + x.toNat ∧ image.pixel? x y = .ok (some p) ∧
          p.toList =
            ((bytes.drop (4 * (y.toNat * w.toNat + x.toNat))).take 4).map Binary32.ofByte) ∧
        imageToBytes.compute [.image image] = .ok [.bytes bytes]) ∧
    ∀ image : Image, image.size = ⟨w, h⟩ → image.Consistent → ∃ bytes decoded,
      imageToBytes.compute [.image image] = .ok [.bytes bytes] ∧
      bytes.length = 4 * (w.toNat * h.toNat) ∧
      (imageFromBytesOf w h).compute [.bytes bytes] = .ok [.image decoded] ∧
      imageToBytes.compute [.image decoded] = .ok [.bytes bytes] := by
  have hsize : Size.Bounded ⟨w, h⟩ := ⟨hw, hh⟩
  simp only [imageFromBytesOf, Size.clamped_of_isSide hw hh, compute_imageFromBytes,
    compute_imageToBytes, map_eq_ok_iff]
  refine ⟨fun bytes => ⟨⟨?only, fun hl => ?enough⟩, ?decoded⟩, fun image hi hc => ?encoded⟩
  case only =>
    rintro ⟨_, image, himage, rfl⟩
    exact (Image.ofBytes_eq_ok_iff.mp himage).1
  case enough => exact ⟨_, _, Image.ofBytes_eq_ok_iff.mpr ⟨hl, rfl⟩, rfl⟩
  case decoded =>
    rintro _ ⟨image, himage, rfl⟩
    have hi : image.size = ⟨w, h⟩ := by rw [(Image.ofBytes_eq_ok_iff.mp himage).2]
    refine ⟨image, rfl, hi, Image.consistent_of_ofBytes himage, fun x hx y hy =>
      Image.pixel?_of_ofBytes hsize himage hx hy, ?_⟩
    rw [Image.toBytes_of_ofBytes himage]
  case encoded =>
    have hl : image.toBytes.length = 4 * (w.toNat * h.toNat) := by
      rw [Image.length_toBytes hc, hi]
      rfl
    have hdecoded : Image.ofBytes ⟨w, h⟩ image.toBytes = .ok ⟨⟨w, h⟩, Rgba.decode image.toBytes⟩ :=
      Image.ofBytes_eq_ok_iff.mpr ⟨hl, rfl⟩
    refine ⟨image.toBytes, _, rfl, hl, ⟨_, hdecoded, rfl⟩, ?_⟩
    rw [Image.toBytes_of_ofBytes hdecoded]

/-- Two pixels with a channel that is not a number and one that is too large: both have bytes, and
these are kept. -/
def straying : Image :=
  ⟨⟨2, 1⟩, [⟨0 / 0, 2, 0.5, 1⟩, .black]⟩

/-- Eight bytes are two pixels, the second of which is read from the last four, and numbers that are
no bytes are rounded once. -/
theorem bytes_exact_straying : IsSide 2 ∧ IsSide 1 ∧
    (∃ image, (imageFromBytesOf 2 1).compute [.bytes [255, 0, 0, 255, 0, 0, 255, 128]] =
        .ok [.image image] ∧ ∃ p, image.pixel? 1 0 = .ok (some p) ∧
      p.toList = [0, 0, 255, 128].map Binary32.ofByte) ∧
    straying.Consistent ∧ ∃ decoded,
      imageToBytes.compute [.image straying] = .ok [.bytes [0, 255, 128, 255, 0, 0, 0, 255]] ∧
      imageToBytes.compute [.image decoded] = .ok [.bytes [0, 255, 128, 255, 0, 0, 0, 255]] := by
  have hw : IsSide 2 := ⟨by decide, by decide⟩
  have hh : IsSide 1 := ⟨by decide, by decide⟩
  obtain ⟨hdecode, hencode⟩ := bytes_exact hw hh
  refine ⟨hw, hh, ?_, rfl, ?_⟩
  · obtain ⟨hiff, hall⟩ := hdecode [255, 0, 0, 255, 0, 0, 255, 128]
    obtain ⟨outs, houts⟩ := hiff.mpr rfl
    obtain ⟨image, rfl, -, -, hpixel, -⟩ := hall outs houts
    obtain ⟨_, p, -, -, hp, hchannels⟩ := hpixel 1 (by decide) 0 (by decide)
    exact ⟨image, houts, p, hp, hchannels⟩
  · have hbytes : straying.toBytes = [0, 255, 128, 255, 0, 0, 0, 255] := by decide +kernel
    obtain ⟨bytes, decoded, hfirst, -, -, hsecond⟩ := hencode straying rfl rfl
    rw [compute_imageToBytes, hbytes] at hfirst
    obtain rfl := Value.bytes.inj (List.head_eq_of_cons_eq (Except.ok.inj hfirst))
    exact ⟨decoded, hfirst, hsecond⟩

end Builtin

end TextureFlow
