import Mathlib
import TextureFlow.Proofs.Kinds

/-!
# How the kernels of the catalogue read their inputs

Layouts and computations are written apart from each other. Here each computation is followed
through: it reads its inputs in order, each of a kind that the layout accepts at this position, and
looks at nothing else before it has read them all. So the first value that is missing or of another
kind is what it fails for. What is left to go wrong are failures that the kernel declares itself,
and what comes out is of the declared kinds, in the declared number.

* `Inputs.Reads.blames_or_delivers`: what comes of reading in order;
* `Builtin.reads`: the computations of all kernels read in the order of their layouts;
* `Builtin.compute_exact`: when a computation fails for an input, and for which one.
-/

namespace TextureFlow

/-! ## Parts of values -/

namespace Value

/-- A part that all values of accepted kinds have, with what is promised of it. -/
def Finds {α : Type} (part? : Value → Option α) (a : Accepted) (promise : α → Prop) : Prop :=
  ∀ v : Value, a.contains v.kind = true → ∃ x, part? v = some x ∧ promise x

/-- A part that the values of accepted kinds have, and no others. -/
structure Matches {α : Type} (part? : Value → Option α) (a : Accepted) : Prop where
  finds : Finds part? a fun _ => True
  only : ∀ v x, part? v = some x → a.contains v.kind = true

theorem matches_scalar : Matches scalar? (.single .scalar) := by
  constructor <;> intro v <;>
    cases v <;> simp [Accepted.contains_iff, Accepted.toList, kind, scalar?]

theorem matches_color : Matches color? (.single .color) := by
  constructor <;> intro v <;>
    cases v <;> simp [Accepted.contains_iff, Accepted.toList, kind, color?]

theorem matches_image : Matches image? (.single .image) := by
  constructor <;> intro v <;>
    cases v <;> simp [Accepted.contains_iff, Accepted.toList, kind, image?]

theorem matches_mask : Matches mask? (.single .mask) := by
  constructor <;> intro v <;>
    cases v <;> simp [Accepted.contains_iff, Accepted.toList, kind, mask?]

theorem matches_bytes : Matches bytes? (.single .bytes) := by
  constructor <;> intro v <;>
    cases v <;> simp [Accepted.contains_iff, Accepted.toList, kind, bytes?]

theorem matches_anyVector : Matches vector? .anyVector := by
  constructor <;> intro v <;> cases v with
  | vector u =>
    cases u <;>
      simp [Accepted.contains_iff, Accepted.anyVector, Accepted.toList, kind, vector?, Vec.arity]
  | _ => simp [Accepted.contains_iff, Accepted.anyVector, Accepted.toList, kind, vector?]

end Value

/-! ## Reading in order -/

/-- A value is missing at a position, or of a kind that the input does not accept. -/
def Layout.Refuses (l : Layout) (values : Inputs) (j : Nat) : Prop :=
  ∃ a, l.accepted[j]? = some a ∧ values[j]?.any (fun v => a.contains v.kind) = false

namespace Inputs

variable {α β : Type} {values : Inputs} {promise : α → Prop} {next : β → Prop}

/-- A computation fails for the value at a position: because there is none, or for its kind. -/
def Blames (values : Inputs) (j : Nat) (m : Except ComputeError α) : Prop :=
  match values[j]? with
  | none => m = .error (.missingInput j s!"#{j}")
  | some v => ∃ wanted, m = .error (.inputKind j wanted v.kind)

/-- A computation reads the values from a position on in order, as long as they are of kinds that
are accepted, fails for the first that is not, and otherwise keeps its promise. -/
def Reads (values : Inputs) (promise : α → Prop) :
    Nat → List Accepted → Except ComputeError α → Prop
  | _, [], m => Delivers promise m
  | i, a :: rest, m =>
    if values[i]?.any (fun v => a.contains v.kind) then values.Reads promise (i + 1) rest m
    else values.Blames i m

namespace Reads

variable {i : Nat} {a : Accepted} {rest : List Accepted}

/-- A reader that finds what is accepted, and nothing else, reads the next value. -/
theorem of_reader {read : Except ComputeError α} {found : α → Prop} {f : α → Except ComputeError β}
    (hfound : ∀ v, values[i]? = some v → a.contains v.kind = true → ∃ x, read = .ok x ∧ found x)
    (hblames : values[i]?.any (fun v => a.contains v.kind) = false → values.Blames i read)
    (hf : ∀ x, found x → values.Reads next (i + 1) rest (f x)) :
    values.Reads next i (a :: rest) (read >>= f) := by
  unfold Reads
  split
  · next hany =>
    obtain ⟨v, hv, ha⟩ := (Option.any_eq_true _ _).mp hany
    obtain ⟨x, hread, hx⟩ := hfound v hv ha
    rw [hread]
    exact hf x hx
  · next hany =>
    have hread := hblames (Bool.eq_false_iff.mpr hany)
    unfold Blames at hread ⊢
    split
    · next hv =>
      rw [hv] at hread
      rw [hread]
      rfl
    · next v hv =>
      rw [hv] at hread
      obtain ⟨wanted, hread⟩ := hread
      exact ⟨wanted, by rw [hread]; rfl⟩

theorem payload {part? : Value → Option α} (hm : Value.Matches part? a) {wanted : Wanted}
    {f : α → Except ComputeError β} (hf : ∀ x, values.Reads next (i + 1) rest (f x)) :
    values.Reads next i (a :: rest) (payload part? wanted values i >>= f) := by
  refine of_reader (fun v hv ha => ?_) (fun hany => ?_) fun x (_ : True) => hf x
  · obtain ⟨x, hx, hpromise⟩ := hm.finds v ha
    refine ⟨x, ?_, hpromise⟩
    simp only [Inputs.payload, value, hv, bind, Except.bind, hx]
    rfl
  · unfold Blames
    split
    · next hv => simp only [Inputs.payload, value, hv, bind, Except.bind]
    · next v hv =>
      have hx : part? v = none := by
        cases hx : part? v with
        | none => rfl
        | some x => simp [hv, hm.only v x hx] at hany
      refine ⟨wanted, ?_⟩
      simp only [Inputs.payload, value, hv, bind, Except.bind, hx]
      rfl

/-- A vector of another arity than the accepted one is found and refused. -/
theorem vectorOf {arity : Arity} {f : Vec → Except ComputeError β}
    (hf : ∀ v, v.arity = arity → values.Reads next (i + 1) rest (f v)) :
    values.Reads next i (.single (.vector arity) :: rest)
      (values.vectorOf i arity.toNat >>= f) := by
  have haccepted (v : Value) : (Accepted.single (.vector arity)).contains v.kind = true ↔
      v.kind = .vector arity := by
    rw [Accepted.contains_iff, Accepted.toList, List.mem_singleton]
  refine of_reader (fun v hv ha => ?_) (fun hany => ?_) hf
  · rw [haccepted] at ha
    cases v with
    | vector u =>
      obtain rfl : u.arity = arity := by simpa [Value.kind] using ha
      refine ⟨u, ?_, rfl⟩
      simp only [Inputs.vectorOf, vector, Inputs.payload, value, hv, bind, Except.bind]
      exact if_pos rfl
    | _ => simp [Value.kind] at ha
  · unfold Blames
    split
    · next hv => simp only [Inputs.vectorOf, vector, Inputs.payload, value, hv, bind, Except.bind]
    · next v hv =>
      cases v with
      | vector u =>
        have hne : ¬ u.arity.toNat = arity.toNat := fun he => by
          have hsame : u.arity = arity := by
            rw [← Arity.clamp_toNat u.arity, he, Arity.clamp_toNat]
          simp [hv, (haccepted (.vector u)).mpr (congrArg ValueKind.vector hsame)] at hany
        simp only [Inputs.vectorOf, vector, Inputs.payload, value, hv, bind, Except.bind]
        exact ⟨_, if_neg hne⟩
      | _ =>
        simp only [Inputs.vectorOf, vector, Inputs.payload, value, hv, bind, Except.bind]
        exact ⟨_, rfl⟩

/-- What comes of reading all inputs of a layout, those before a position being read already. -/
theorem blames_or_delivers {l : Layout} {m : Except ComputeError α}
    (h : values.Reads promise i (l.accepted.drop i) m) (hbefore : ∀ j < i, ¬ l.Refuses values j) :
    (∃ j, IsLeast {j | l.Refuses values j} j ∧ values.Blames j m) ∨
      (∀ j, ¬ l.Refuses values j) ∧ Delivers promise m := by
  induction hrest : l.accepted.drop i generalizing i with
  | nil =>
    rw [hrest] at h
    refine .inr ⟨fun j => ?_, h⟩
    by_cases hj : j < i
    · exact hbefore j hj
    · rintro ⟨a, ha, -⟩
      have hlt := (List.getElem?_eq_some_iff.mp ha).1
      exact hj (hlt.trans_le (List.drop_eq_nil_iff.mp hrest))
  | cons a rest ih =>
    have ha : l.accepted[i]? = some a := by
      rw [← List.head?_drop, hrest, List.head?_cons]
    have htail : l.accepted.drop (i + 1) = rest := by
      rw [← List.tail_drop, hrest, List.tail_cons]
    rw [hrest, Reads] at h
    split at h
    · next hany =>
      refine ih (htail ▸ h) (fun j hj => ?_) htail
      rcases Nat.lt_succ_iff_lt_or_eq.mp hj with hj | rfl
      · exact hbefore j hj
      · rintro ⟨b, hb, hno⟩
        obtain rfl := Option.some.inj (ha.symm.trans hb)
        rw [hany] at hno
        cases hno
    · next hany =>
      have hlower : i ∈ lowerBounds {j | l.Refuses values j} := fun j hj =>
        not_lt.mp fun hlt => hbefore j hlt hj
      exact .inl ⟨i, ⟨⟨a, ha, Bool.eq_false_iff.mpr hany⟩, hlower⟩, h⟩

variable {l : Layout} {m : Except ComputeError α}

/-- A value is said to be missing exactly if it is the first that is refused, and is not there. -/
theorem eq_missingInput_iff (h : values.Reads promise 0 l.accepted m) {j : Nat} {name : String} :
    m = .error (.missingInput j name) ↔
      IsLeast {j | l.Refuses values j} j ∧ values[j]? = none ∧ name = s!"#{j}" := by
  rcases h.blames_or_delivers (fun j hj => absurd hj (Nat.not_lt_zero j)) with
    ⟨k, hleast, hblames⟩ | ⟨hnone, hdelivers⟩
  · unfold Blames at hblames
    constructor
    · rintro rfl
      split at hblames
      · next hk =>
        cases hblames
        exact ⟨hleast, hk, rfl⟩
      · obtain ⟨wanted, hm⟩ := hblames
        cases hm
    · rintro ⟨hj, hvalue, rfl⟩
      obtain rfl := hleast.unique hj
      rwa [hvalue] at hblames
  · constructor
    · rintro rfl
      obtain ⟨f, hf⟩ := hdelivers
      cases hf
    · exact fun hj => absurd hj.1.1 (hnone j)

/-- A value is blamed for its kind exactly if it is the first that is refused, and is there. -/
theorem eq_inputKind_iff (h : values.Reads promise 0 l.accepted m) {j : Nat} {found : ValueKind} :
    (∃ wanted, m = .error (.inputKind j wanted found)) ↔
      IsLeast {j | l.Refuses values j} j ∧ values[j]?.map Value.kind = some found := by
  rcases h.blames_or_delivers (fun j hj => absurd hj (Nat.not_lt_zero j)) with
    ⟨k, hleast, hblames⟩ | ⟨hnone, hdelivers⟩
  · unfold Blames at hblames
    constructor
    · rintro ⟨wanted, rfl⟩
      split at hblames
      · cases hblames
      · next v hv =>
        obtain ⟨wanted', hm⟩ := hblames
        cases hm
        exact ⟨hleast, by rw [hv, Option.map_some]⟩
    · rintro ⟨hj, hvalue⟩
      obtain rfl := hleast.unique hj
      obtain ⟨v, hv, rfl⟩ := Option.map_eq_some_iff.mp hvalue
      rwa [hv] at hblames
  · constructor
    · rintro ⟨wanted, rfl⟩
      obtain ⟨f, hf⟩ := hdelivers
      cases hf
    · exact fun hj => absurd hj.1.1 (hnone j)

/-- A computation fails for an input exactly if some value is refused. -/
theorem exists_refuses_iff (h : values.Reads promise 0 l.accepted m) :
    (∃ j, l.Refuses values j) ↔ (∃ j name, m = .error (.missingInput j name)) ∨
      ∃ j wanted found, m = .error (.inputKind j wanted found) := by
  constructor
  · intro hbad
    classical
    have hleast : IsLeast {j | l.Refuses values j} (Nat.find hbad) :=
      ⟨Nat.find_spec hbad, fun j hj => Nat.find_min' hbad hj⟩
    cases hv : values[Nat.find hbad]? with
    | none => exact .inl ⟨_, _, h.eq_missingInput_iff.mpr ⟨hleast, hv, rfl⟩⟩
    | some v =>
      obtain ⟨wanted, he⟩ := h.eq_inputKind_iff.mpr ⟨hleast, by rw [hv]; rfl⟩
      exact .inr ⟨_, wanted, _, he⟩
  · rintro (⟨j, name, he⟩ | ⟨j, wanted, found, he⟩)
    · exact ⟨j, (h.eq_missingInput_iff.mp he).1.1⟩
    · exact ⟨j, (h.eq_inputKind_iff.mp ⟨wanted, he⟩).1.1⟩

/-- If no value is refused, the computation keeps its promise. -/
theorem delivers (h : values.Reads promise 0 l.accepted m) (hno : ∀ j, ¬ l.Refuses values j) :
    Delivers promise m := by
  rcases h.blames_or_delivers (fun j hj => absurd hj (Nat.not_lt_zero j)) with
    ⟨k, hleast, -⟩ | ⟨-, hdelivers⟩
  · exact absurd hleast.1 (hno k)
  · exact hdelivers

end Reads

end Inputs

/-- Values that a layout admits it does not refuse. -/
theorem Layout.Admits.not_refuses {l : Layout} {values : Inputs} (h : l.Admits values) (j : Nat) :
    ¬ l.Refuses values j := by
  rintro ⟨a, ha, hno⟩
  obtain ⟨hlt, rfl⟩ := List.getElem?_eq_some_iff.mp ha
  have hlt' : j < values.length := h.length_eq ▸ hlt
  have hkind : l.accepted[j].contains values[j].kind = true := h.get hlt hlt'
  rw [List.getElem?_eq_getElem hlt', Option.any_some, hkind] at hno
  cases hno

/-! ## Failures of the kernels' own -/

theorem Operation.delivers_apply (op : Operation) (a b : Float32) :
    Delivers (fun _ => True) (op.apply a b) :=
  .ite (fun _ => ⟨_, rfl⟩) fun _ => .ite (fun _ => ⟨_, rfl⟩) fun _ => trivial

/-- Joining components keeps the arity of the first vector. -/
theorem Vec.delivers_combine {f : Float32 → Float32 → Except ComputeError Float32}
    (hf : ∀ a b, Delivers (fun _ => True) (f a b)) (v u : Vec) :
    Delivers (fun w => w.arity = v.arity) (combine f v u) := by
  cases v with
  | two x y => exact (hf _ _).bind fun _ _ => (hf _ _).bind fun _ _ => rfl
  | three x y z =>
    exact (hf _ _).bind fun _ _ => (hf _ _).bind fun _ _ => (hf _ _).bind fun _ _ => rfl
  | four x y z w =>
    exact (hf _ _).bind fun _ _ => (hf _ _).bind fun _ _ => (hf _ _).bind fun _ _ =>
      (hf _ _).bind fun _ _ => rfl

namespace Image

theorem delivers_requireConsistent (i : Image) : Delivers (fun _ => True) i.requireConsistent :=
  .ite (fun _ => trivial) fun _ => ⟨_, rfl⟩

theorem delivers_requireSameSize (i j : Image) :
    Delivers (fun _ => True) (i.requireSameSize j) :=
  .ite (fun _ => trivial) fun _ => ⟨_, rfl⟩

theorem delivers_applyMask (i : Image) (m : Mask) : Delivers (fun _ => True) (i.applyMask m) :=
  .ite (fun _ => ⟨_, rfl⟩) fun _ => .ite (fun _ => ⟨_, rfl⟩) fun _ => trivial

theorem delivers_ofBytes (size : Size) (bytes : List UInt8) :
    Delivers (fun _ => True) (ofBytes size bytes) :=
  .ite (fun _ => trivial) fun _ => ⟨_, rfl⟩

end Image

/-! ## Kernels -/

namespace Builtin

open Inputs Value

/-- A vector is of the kind that an output for its arity declares. -/
theorem declares_vector {l : Layout} {name : String} {arity : Arity} {v : Vec}
    (hl : l.outputs = [.output name (.vector arity)]) (hv : v.arity = arity) :
    l.Declares [.vector v] := by
  subst hv
  rw [Layout.Declares, hl]
  rfl

/-- Every kernel reads its inputs in the order of its layout, and then computes values that the
layout declares, or fails for a reason of its own. -/
theorem reads (k : Builtin) (values : Inputs) :
    values.Reads k.layout.Declares 0 k.layout.accepted (k.compute values) := by
  cases k with
  | scalarConstant x => exact rfl
  | vectorConstant v => exact rfl
  | colorConstant c => exact rfl
  | imageSource i => exact i.delivers_requireConsistent.bind fun _ _ => rfl
  | imageOutput => exact .payload matches_image fun _ => rfl
  | math op =>
    refine .payload matches_scalar fun a => ?_
    refine .payload matches_scalar fun b => ?_
    exact (op.delivers_apply a b).bind fun _ _ => rfl
  | vectorMath op arity =>
    refine .vectorOf fun a ha => ?_
    refine .vectorOf fun b _ => ?_
    refine (Vec.delivers_combine op.delivers_apply a b).bind fun c hc => ?_
    exact declares_vector rfl (hc.trans ha)
  | vectorScale arity =>
    refine .vectorOf fun v hv => ?_
    refine .payload matches_scalar fun factor => ?_
    exact declares_vector rfl ((Vec.arity_map _ v).trans hv)
  | vectorLength => exact .payload matches_anyVector fun _ => rfl
  | combineVector arity =>
    cases arity with
    | two =>
      simp only [compute, combine, bind_assoc, pure_bind]
      refine .payload matches_scalar fun x => ?_
      exact .payload matches_scalar fun y => rfl
    | three =>
      simp only [compute, combine, bind_assoc, pure_bind]
      refine .payload matches_scalar fun x => ?_
      refine .payload matches_scalar fun y => ?_
      exact .payload matches_scalar fun z => rfl
    | four =>
      simp only [compute, combine, bind_assoc, pure_bind]
      refine .payload matches_scalar fun x => ?_
      refine .payload matches_scalar fun y => ?_
      refine .payload matches_scalar fun z => ?_
      exact .payload matches_scalar fun w => rfl
  | splitVector => exact .payload matches_anyVector fun _ => rfl
  | colorAdjust =>
    refine .payload matches_image fun image => ?_
    refine .payload matches_scalar fun brightness => ?_
    refine .payload matches_scalar fun contrast => ?_
    exact .payload matches_scalar fun _ => rfl
  | invert => exact .payload matches_image fun _ => rfl
  | tint =>
    refine .payload matches_image fun image => ?_
    exact .payload matches_color fun _ => rfl
  | mix mode =>
    refine .payload matches_image fun first => ?_
    refine .payload matches_image fun second => ?_
    refine .payload matches_scalar fun factor => ?_
    exact (first.delivers_requireSameSize second).bind fun _ _ => rfl
  | splitView split =>
    refine .payload matches_image fun first => ?_
    refine .payload matches_image fun second => ?_
    exact (first.delivers_requireSameSize second).bind fun _ _ => rfl
  | solidColor size => exact .payload matches_color fun _ => rfl
  | extractAlpha => exact .payload matches_image fun _ => rfl
  | luminance => exact .payload matches_image fun _ => rfl
  | applyMask =>
    refine .payload matches_image fun image => ?_
    refine .payload matches_mask fun mask => ?_
    exact (image.delivers_applyMask mask).bind fun _ _ => rfl
  | imageFromBytes size =>
    refine .payload matches_bytes fun bytes => ?_
    exact (Image.delivers_ofBytes size bytes).bind fun _ _ => rfl
  | imageToBytes => exact .payload matches_image fun _ => rfl

/-- From values that its layout accepts every kernel computes values that its layout declares, or
fails for a reason of its own. -/
theorem delivers (k : Builtin) {values : Inputs} (h : k.layout.Admits values) :
    Delivers k.layout.Declares (k.compute values) :=
  (k.reads values).delivers h.not_refuses

/-- A kernel looks at no value beyond its inputs. -/
theorem compute_congr (k : Builtin) {values others : Inputs}
    (h : ∀ i < k.layout.inputs.length, values[i]? = others[i]?) :
    k.compute values = k.compute others := by
  have hread {α : Type} (part? : Value → Option α) (wanted : Wanted) {i : Nat}
      (hi : i < k.layout.inputs.length) :
      payload part? wanted values i = payload part? wanted others i := by
    simp only [payload, Inputs.value, h i hi]
  cases k with
  | combineVector arity =>
    cases arity <;>
      simp [compute, combine, Inputs.scalar, hread, layout, componentNames, Arity.toNat]
  | _ =>
    simp [compute, Inputs.scalar, Inputs.vector, Inputs.vectorOf, Inputs.color, Inputs.image,
      Inputs.mask, Inputs.bytes, hread, layout]

/-- A kernel computes from as many values as it has inputs. It fails for an input exactly if some
value is missing or of a kind that its input does not accept: for the first such one, which is said
to be missing if it is not there and else blamed for its kind. Otherwise it fails for a reason of
its own or computes values of the kinds that the outputs declare, one for each. -/
theorem compute_exact (k : Builtin) (values : Inputs) :
    ((∃ j, k.layout.Refuses values j) ↔
      (∃ j name, k.compute values = .error (.missingInput j name)) ∨
        ∃ j wanted found, k.compute values = .error (.inputKind j wanted found)) ∧
    (∀ j name, k.compute values = .error (.missingInput j name) ↔
      IsLeast {j | k.layout.Refuses values j} j ∧ values[j]? = none ∧ name = s!"#{j}") ∧
    (∀ j found, (∃ wanted, k.compute values = .error (.inputKind j wanted found)) ↔
      IsLeast {j | k.layout.Refuses values j} j ∧ values[j]?.map Value.kind = some found) ∧
    ((∃ j, k.layout.Refuses values j) ∨ (∃ f, k.compute values = .error (.failed f)) ∨
      ∃ outs, k.compute values = .ok outs ∧ k.layout.Declares outs) ∧
    k.compute (values.take k.layout.inputs.length) = k.compute values := by
  have hreads := k.reads values
  refine ⟨hreads.exists_refuses_iff, fun j name => hreads.eq_missingInput_iff,
    fun j found => hreads.eq_inputKind_iff, ?_,
    k.compute_congr fun i hi => List.getElem?_take_of_lt hi⟩
  by_cases hbad : ∃ j, k.layout.Refuses values j
  · exact .inl hbad
  · have hdelivers := hreads.delivers (not_exists.mp hbad)
    cases hm : k.compute values with
    | error e =>
      rw [hm] at hdelivers
      obtain ⟨f, rfl⟩ := hdelivers
      exact .inr (.inl ⟨f, rfl⟩)
    | ok outs =>
      rw [hm] at hdelivers
      exact .inr (.inr ⟨outs, rfl, hdelivers⟩)

/-- A mix with a number where its second image should be, and without a factor, fails for the
number. -/
theorem compute_exact_mix :
    IsLeast {j | (mix .add).layout.Refuses [.image .empty, .scalar 1] j} 1 ∧
      ∃ wanted, (mix .add).compute [.image .empty, .scalar 1] =
        .error (.inputKind 1 wanted .scalar) := by
  obtain ⟨-, -, hkind, -⟩ := compute_exact (mix .add) [.image .empty, .scalar 1]
  have hblamed : ∃ wanted, (mix .add).compute [.image .empty, .scalar 1] =
      .error (.inputKind 1 wanted .scalar) := ⟨_, rfl⟩
  exact ⟨((hkind 1 .scalar).mp hblamed).1, hblamed⟩

end Builtin

end TextureFlow
