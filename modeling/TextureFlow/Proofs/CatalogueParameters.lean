import Mathlib
import TextureFlow.Catalogue.Registry
import TextureFlow.Proofs.Fate

/-!
# The parameters of the kernels of the catalogue

A parameter is read with a check of its own: its type, a name among the known ones, a range, a
number of components. `Builtin.Sets` lists what is left when the check succeeds, one case for each
parameter of each kernel, and what follows about parameters follows by cases on it.

* `Builtin.setParameter_eq_ok_iff`: the parameters that can be set, and what becomes of the kernel;
* `Builtin.bounded_foldl`: sizes and positions stay in their range, whatever is attempted;
* `Builtin.exists_fresh`: the parameters of a kernel make a new kernel of its kind equal to it;
* `Session.parameters_lawful`: this for every kernel that edits lead to, with what they do to a
  node.
-/

namespace TextureFlow

/-! ## Results that may be errors -/

theorem bind_eq_ok_iff {ε α β : Type} {x : Except ε α} {f : α → Except ε β} {b : β} :
    x >>= f = .ok b ↔ ∃ a, x = .ok a ∧ f a = .ok b := by
  cases x with
  | error e => exact ⟨nofun, fun ⟨_, h, _⟩ => by cases h⟩
  | ok a => exact ⟨fun h => ⟨a, rfl, h⟩, fun ⟨_, ha, h⟩ => Except.ok.inj ha ▸ h⟩

theorem pure_eq_ok_iff {ε α : Type} {a b : α} : (pure a : Except ε α) = .ok b ↔ b = a :=
  ⟨fun h => (Except.ok.inj h).symm, fun h => h ▸ rfl⟩

theorem map_eq_ok_iff {ε α β : Type} {f : α → β} {x : Except ε α} {b : β} :
    f <$> x = .ok b ↔ ∃ a, x = .ok a ∧ f a = b := by
  cases x with
  | error e => exact ⟨nofun, fun ⟨_, h, _⟩ => by cases h⟩
  | ok a => exact ⟨fun h => ⟨a, rfl, Except.ok.inj h⟩, fun ⟨_, ha, h⟩ => Except.ok.inj ha ▸ h ▸ rfl⟩

theorem mapError_eq_ok_iff {ε ε' α : Type} {x : Except ε α} {f : ε → ε'} {a : α} :
    x.mapError f = .ok a ↔ x = .ok a := by
  cases x <;> simp [Except.mapError]

/-! ## Reading parameters -/

namespace ParamValue

variable {v : ParamValue} {name : String}

theorem toScalar_eq_ok {x : Float32} (h : v.toScalar name = .ok x) : v = .scalar x := by
  cases v <;> cases h
  rfl

theorem toInteger_eq_ok {n : UInt32} (h : v.toInteger name = .ok n) : v = .integer n := by
  cases v <;> cases h
  rfl

theorem toChoice_eq_ok {text : String} (h : v.toChoice name = .ok text) : v = .choice text := by
  cases v <;> cases h
  rfl

theorem toColor_eq_ok {c : Rgba} (h : v.toColor name = .ok c) : v = .color c := by
  cases v <;> cases h
  rfl

theorem toImage_eq_ok {i : Image} (h : v.toImage name = .ok i) : v = .image i := by
  cases v <;> cases h
  rfl

/-- A vector is read if it has the required number of components. -/
theorem toVec_eq_ok {arity : Arity} {u : Vec} (h : v.toVec name arity = .ok u) :
    v = .vector u.toList ∧ u.arity = arity := by
  unfold toVec at h
  split at h
  · next components =>
    split at h
    · next w hw =>
      split at h
      · next ha =>
        cases h
        refine ⟨congrArg vector ?_, ha⟩
        unfold Vec.ofList? at hw
        split at hw <;> cases hw <;> rfl
      · cases h
    · cases h
  · cases h

theorem toVec_toList (name : String) (u : Vec) :
    (vector u.toList).toVec name u.arity = .ok u := by
  simp [toVec, Vec.ofList?_toList]

end ParamValue

/-- An operation is chosen by its name. -/
theorem Operation.ofParameter_eq_ok {name : String} {v : ParamValue} {op : Operation}
    (h : ofParameter name v = .ok op) : v = .choice op.name := by
  obtain ⟨text, htext, hparse⟩ := bind_eq_ok_iff.mp h
  rw [mapError_eq_ok_iff, parse] at hparse
  split at hparse
  · next found hfound =>
    cases hparse
    have hname : op.name = text := by simpa using List.find?_some hfound
    rw [ParamValue.toChoice_eq_ok htext, hname]
  · cases hparse

theorem Operation.ofParameter_choice (name : String) (op : Operation) :
    ofParameter name (.choice op.name) = .ok op :=
  bind_eq_ok_iff.mpr ⟨op.name, rfl, mapError_eq_ok_iff.mpr op.parse_name⟩

/-- A mode is chosen by its name. -/
theorem BlendMode.ofParameter_eq_ok {name : String} {v : ParamValue} {mode : BlendMode}
    (h : ofParameter name v = .ok mode) : v = .choice mode.name := by
  obtain ⟨text, htext, hparse⟩ := bind_eq_ok_iff.mp h
  rw [mapError_eq_ok_iff, parse] at hparse
  split at hparse
  · next found hfound =>
    cases hparse
    have hname : mode.name = text := by simpa using List.find?_some hfound
    rw [ParamValue.toChoice_eq_ok htext, hname]
  · cases hparse

theorem BlendMode.ofParameter_choice (name : String) (mode : BlendMode) :
    ofParameter name (.choice mode.name) = .ok mode :=
  bind_eq_ok_iff.mpr ⟨mode.name, rfl, mapError_eq_ok_iff.mpr mode.parse_name⟩

/-! ## Ranges -/

/-- Whether a number may be a side of a generated image. -/
def IsSide (n : UInt32) : Prop :=
  1 ≤ n ∧ n ≤ maxDimension

/-- Both sides of a size are in their range. -/
structure Size.Bounded (size : Size) : Prop where
  width : IsSide size.width
  height : IsSide size.height

theorem isSide_iff {n : UInt32} : IsSide n ↔ ¬ (n = 0 ∨ maxDimension < n) := by
  rw [IsSide, not_or, UInt32.not_lt, UInt32.le_iff_toNat_le, ← UInt32.toNat_inj]
  exact and_congr_left' Nat.one_le_iff_ne_zero

/-- Clamping moves both sides into their range. -/
theorem Size.bounded_clamped (width height : UInt32) : (clamped width height).Bounded := by
  have hclamp (n : UInt32) :
      IsSide (if n < 1 then 1 else if maxDimension < n then maxDimension else n) := by
    split
    · exact ⟨by decide, by decide⟩
    · next hlow =>
      split
      · exact ⟨by decide, by decide⟩
      · next hhigh => exact ⟨UInt32.not_lt.mp hlow, UInt32.not_lt.mp hhigh⟩
  exact ⟨hclamp width, hclamp height⟩

namespace Builtin

/-- Sizes and positions of a kernel are in their range. -/
def Bounded : Builtin → Prop
  | splitView split => 0 ≤ split ∧ split ≤ 1
  | solidColor size => size.Bounded
  | imageFromBytes size => size.Bounded
  | _ => True

theorem dimension_eq_ok_iff {name : String} {v : ParamValue} {n : UInt32} :
    dimension name v = .ok n ↔ v = .integer n ∧ IsSide n := by
  rw [isSide_iff, dimension, bind_eq_ok_iff]
  constructor
  · rintro ⟨m, hm, h⟩
    split at h
    · cases h
    · next hin =>
      cases h
      exact ⟨ParamValue.toInteger_eq_ok hm, hin⟩
  · rintro ⟨rfl, hin⟩
    exact ⟨n, rfl, if_neg hin⟩

theorem fraction_eq_ok_iff {name : String} {v : ParamValue} {x : Float32} :
    fraction name v = .ok x ↔ v = .scalar x ∧ 0 ≤ x ∧ x ≤ 1 := by
  rw [fraction, bind_eq_ok_iff]
  constructor
  · rintro ⟨y, hy, h⟩
    split at h
    · next hin =>
      cases h
      exact ⟨ParamValue.toScalar_eq_ok hy, hin⟩
    · cases h
  · rintro ⟨rfl, hin⟩
    exact ⟨x, rfl, if_pos hin⟩

/-! ## Setting parameters -/

/-- A kernel has a parameter that can be set to a value, and what becomes of the kernel. -/
inductive Sets : Builtin → String → ParamValue → Builtin → Prop where
  | scalar {x y : Float32} : Sets (scalarConstant x) "value" (.scalar y) (scalarConstant y)
  | vector {u v : Vec} (same : v.arity = u.arity) :
      Sets (vectorConstant u) "value" (.vector v.toList) (vectorConstant v)
  | color {c d : Rgba} : Sets (colorConstant c) "color" (.color d) (colorConstant d)
  | image {i j : Image} : Sets (imageSource i) "image" (.image j) (imageSource j)
  | operation {old new : Operation} : Sets (math old) "op" (.choice new.name) (math new)
  | vectorOperation {old new : Operation} {arity : Arity} :
      Sets (vectorMath old arity) "op" (.choice new.name) (vectorMath new arity)
  | mode {old new : BlendMode} : Sets (mix old) "mode" (.choice new.name) (mix new)
  | split {x y : Float32} (within : 0 ≤ y ∧ y ≤ 1) :
      Sets (splitView x) "split" (.scalar y) (splitView y)
  | colorWidth {size : Size} {n : UInt32} (within : IsSide n) :
      Sets (solidColor size) "width" (.integer n) (solidColor { size with width := n })
  | colorHeight {size : Size} {n : UInt32} (within : IsSide n) :
      Sets (solidColor size) "height" (.integer n) (solidColor { size with height := n })
  | bytesWidth {size : Size} {n : UInt32} (within : IsSide n) :
      Sets (imageFromBytes size) "width" (.integer n) (imageFromBytes { size with width := n })
  | bytesHeight {size : Size} {n : UInt32} (within : IsSide n) :
      Sets (imageFromBytes size) "height" (.integer n) (imageFromBytes { size with height := n })

theorem sets_of_setParameter {k k' : Builtin} {name : String} {v : ParamValue}
    (h : k.setParameter name v = .ok k') : Sets k name v k' := by
  unfold setParameter at h
  split at h
  case h_13 => cases h
  all_goals obtain ⟨x, hx, rfl⟩ := map_eq_ok_iff.mp h
  · obtain rfl := ParamValue.toScalar_eq_ok hx
    exact .scalar
  · obtain ⟨rfl, hsame⟩ := ParamValue.toVec_eq_ok hx
    exact .vector hsame
  · obtain rfl := ParamValue.toColor_eq_ok hx
    exact .color
  · obtain rfl := ParamValue.toImage_eq_ok hx
    exact .image
  · obtain rfl := Operation.ofParameter_eq_ok hx
    exact .operation
  · obtain rfl := Operation.ofParameter_eq_ok hx
    exact .vectorOperation
  · obtain rfl := BlendMode.ofParameter_eq_ok hx
    exact .mode
  · obtain ⟨rfl, hin⟩ := fraction_eq_ok_iff.mp hx
    exact .split hin
  · obtain ⟨rfl, hin⟩ := dimension_eq_ok_iff.mp hx
    exact .colorWidth hin
  · obtain ⟨rfl, hin⟩ := dimension_eq_ok_iff.mp hx
    exact .colorHeight hin
  · obtain ⟨rfl, hin⟩ := dimension_eq_ok_iff.mp hx
    exact .bytesWidth hin
  · obtain ⟨rfl, hin⟩ := dimension_eq_ok_iff.mp hx
    exact .bytesHeight hin

theorem Sets.setParameter {k k' : Builtin} {name : String} {v : ParamValue}
    (h : Sets k name v k') : k.setParameter name v = .ok k' := by
  cases h with
  | scalar => rfl
  | vector same => exact map_eq_ok_iff.mpr ⟨_, same ▸ ParamValue.toVec_toList _ _, rfl⟩
  | color => rfl
  | image => rfl
  | operation => exact map_eq_ok_iff.mpr ⟨_, Operation.ofParameter_choice _ _, rfl⟩
  | vectorOperation => exact map_eq_ok_iff.mpr ⟨_, Operation.ofParameter_choice _ _, rfl⟩
  | mode => exact map_eq_ok_iff.mpr ⟨_, BlendMode.ofParameter_choice _ _, rfl⟩
  | split within => exact map_eq_ok_iff.mpr ⟨_, fraction_eq_ok_iff.mpr ⟨rfl, within⟩, rfl⟩
  | colorWidth within => exact map_eq_ok_iff.mpr ⟨_, dimension_eq_ok_iff.mpr ⟨rfl, within⟩, rfl⟩
  | colorHeight within => exact map_eq_ok_iff.mpr ⟨_, dimension_eq_ok_iff.mpr ⟨rfl, within⟩, rfl⟩
  | bytesWidth within => exact map_eq_ok_iff.mpr ⟨_, dimension_eq_ok_iff.mpr ⟨rfl, within⟩, rfl⟩
  | bytesHeight within => exact map_eq_ok_iff.mpr ⟨_, dimension_eq_ok_iff.mpr ⟨rfl, within⟩, rfl⟩

/-- The parameters that can be set, and what becomes of the kernel. -/
theorem setParameter_eq_ok_iff {k k' : Builtin} {name : String} {v : ParamValue} :
    k.setParameter name v = .ok k' ↔ Sets k name v k' :=
  ⟨sets_of_setParameter, Sets.setParameter⟩

namespace Sets

variable {k k' : Builtin} {name : String} {v : ParamValue}

theorem kind (h : Sets k name v k') : k'.kind = k.kind := by
  cases h with
  | vector same => simp only [Builtin.kind, same]
  | _ => rfl

/-- The only parameter that a layout reads is the number of components. -/
theorem layout (h : Sets k name v k') : k'.layout = k.layout := by
  cases h with
  | vector same => simp only [Builtin.layout, same]
  | _ => rfl

/-- Just one value is replaced. -/
theorem parameters (h : Sets k name v k') : name ∈ k.parameters.map Prod.fst ∧
    k'.parameters = k.parameters.map fun e => if e.1 = name then (name, v) else e := by
  cases h <;> simp [Builtin.parameters, sizeParameters]

theorem bounded (h : Sets k name v k') (hb : k.Bounded) : k'.Bounded := by
  cases h with
  | split within => exact within
  | colorWidth within => exact ⟨within, hb.height⟩
  | colorHeight within => exact ⟨hb.width, within⟩
  | bytesWidth within => exact ⟨within, hb.height⟩
  | bytesHeight within => exact ⟨hb.width, within⟩
  | _ => trivial

end Sets

theorem nodup_parameters (k : Builtin) : (k.parameters.map Prod.fst).Nodup := by
  cases k <;> simp [parameters, sizeParameters]

/-- What a kernel lists as a parameter it takes back. -/
theorem Bounded.sets {k : Builtin} (hb : k.Bounded) : ∀ e ∈ k.parameters, Sets k e.1 e.2 k := by
  cases k with
  | scalarConstant x => exact List.forall_mem_singleton.mpr .scalar
  | vectorConstant v => exact List.forall_mem_singleton.mpr (.vector rfl)
  | colorConstant c => exact List.forall_mem_singleton.mpr .color
  | imageSource i => exact List.forall_mem_singleton.mpr .image
  | math op => exact List.forall_mem_singleton.mpr .operation
  | vectorMath op arity => exact List.forall_mem_singleton.mpr .vectorOperation
  | mix mode => exact List.forall_mem_singleton.mpr .mode
  | splitView split => exact List.forall_mem_singleton.mpr (.split hb)
  | solidColor size =>
    exact List.forall_mem_cons.mpr ⟨.colorWidth hb.width,
      List.forall_mem_singleton.mpr (.colorHeight hb.height)⟩
  | imageFromBytes size =>
    exact List.forall_mem_cons.mpr ⟨.bytesWidth hb.width,
      List.forall_mem_singleton.mpr (.bytesHeight hb.height)⟩
  | _ => exact List.forall_mem_nil _

/-! ## Restoring a kernel -/

/-- Every parameter of a list set in turn. -/
def setAll (k : Builtin) (es : List (String × ParamValue)) : Except ParameterError Builtin :=
  es.foldlM (fun k e => k.setParameter e.1 e.2) k

theorem setAll_cons {k k' : Builtin} {name : String} {v : ParamValue}
    {es : List (String × ParamValue)} (h : Sets k name v k') :
    k.setAll ((name, v) :: es) = k'.setAll es := by
  rw [setAll, List.foldlM_cons, h.setParameter]
  rfl

/-- The parameters of a kernel make a new kernel of its kind equal to it. -/
theorem exists_fresh {k : Builtin} (hb : k.Bounded) :
    ∃ e, registry.find? k.kind = some e ∧ e.kernel.setAll k.parameters = .ok k := by
  cases k with
  | vectorConstant v =>
    have hzero (a : Arity) : ∃ e, registry.find? (vectorConstant (.zero a)).kind = some e ∧
        e.kernel = vectorConstant (.zero a) := by
      cases a <;> exact ⟨_, rfl, rfl⟩
    have hsets : Sets (vectorConstant (.zero v.arity)) "value" (.vector v.toList)
        (vectorConstant v) := .vector (Vec.arity_zero _).symm
    obtain ⟨e, he, hk⟩ := hzero v.arity
    exact ⟨e, hsets.kind ▸ he, by rw [hk]; exact setAll_cons hsets⟩
  | math op => exact ⟨_, rfl, setAll_cons .operation⟩
  | vectorMath op arity => cases arity <;> exact ⟨_, rfl, setAll_cons .vectorOperation⟩
  | vectorScale arity => cases arity <;> exact ⟨_, rfl, rfl⟩
  | combineVector arity => cases arity <;> exact ⟨_, rfl, rfl⟩
  | mix mode => exact ⟨_, rfl, setAll_cons .mode⟩
  | splitView split => exact ⟨_, rfl, setAll_cons (.split hb)⟩
  | solidColor size =>
    exact ⟨_, rfl,
      (setAll_cons (.colorWidth hb.width)).trans (setAll_cons (.colorHeight hb.height))⟩
  | imageFromBytes size =>
    exact ⟨_, rfl,
      (setAll_cons (.bytesWidth hb.width)).trans (setAll_cons (.bytesHeight hb.height))⟩
  | _ => exact ⟨_, rfl, rfl⟩

/-! ## Kernels that edits lead to -/

/-- A kernel as one of its constructors makes it from plain values. -/
inductive Constructed : Builtin → Prop where
  | scalarConstant (x : Float32) : Constructed (.scalarConstant x)
  | zeroVector (components : Nat) : Constructed (.zeroVector components)
  | ofComponents {components : List Float32} {k : Builtin} (h : ofComponents? components = some k) :
      Constructed k
  | colorConstant (c : Rgba) : Constructed (.colorConstant c)
  | imageSource (i : Image) : Constructed (.imageSource i)
  | imageOutput : Constructed .imageOutput
  | math (op : Operation) : Constructed (.math op)
  | vectorMathOf (op : Operation) (components : Nat) : Constructed (.vectorMathOf op components)
  | vectorScaleOf (components : Nat) : Constructed (.vectorScaleOf components)
  | vectorLength : Constructed .vectorLength
  | combineVectorOf (components : Nat) : Constructed (.combineVectorOf components)
  | splitVector : Constructed .splitVector
  | colorAdjust : Constructed .colorAdjust
  | invert : Constructed .invert
  | tint : Constructed .tint
  | mix (mode : BlendMode) : Constructed (.mix mode)
  | splitView : Constructed (.splitView 0.5)
  | solidColorOf (width height : UInt32) : Constructed (.solidColorOf width height)
  | extractAlpha : Constructed .extractAlpha
  | luminance : Constructed .luminance
  | applyMask : Constructed .applyMask
  | imageFromBytesOf (width height : UInt32) : Constructed (.imageFromBytesOf width height)
  | imageToBytes : Constructed .imageToBytes

theorem Constructed.bounded {k : Builtin} (h : k.Constructed) : k.Bounded := by
  cases h with
  | ofComponents h =>
    obtain ⟨v, -, rfl⟩ := Option.map_eq_some_iff.mp h
    trivial
  | splitView => exact ⟨by decide +kernel, by decide +kernel⟩
  | solidColorOf width height => exact Size.bounded_clamped width height
  | imageFromBytesOf width height => exact Size.bounded_clamped width height
  | _ => trivial

/-- The kernel after an attempt to set a parameter. -/
def attempt (k : Builtin) (a : String × ParamValue) : Builtin :=
  match k.setParameter a.1 a.2 with
  | .ok k' => k'
  | .error _ => k

theorem attempt_cases (k : Builtin) (a : String × ParamValue) :
    k.attempt a = k ∨ Sets k a.1 a.2 (k.attempt a) := by
  unfold attempt
  split
  · next k' h => exact .inr (sets_of_setParameter h)
  · exact .inl rfl

/-- Whatever is attempted, the kind, the ports and the ranges stay. -/
theorem bounded_foldl {k : Builtin} (hb : k.Bounded) (attempts : List (String × ParamValue)) :
    (attempts.foldl attempt k).Bounded ∧ (attempts.foldl attempt k).kind = k.kind ∧
      (attempts.foldl attempt k).layout = k.layout := by
  induction attempts generalizing k with
  | nil => exact ⟨hb, rfl, rfl⟩
  | cons a attempts ih =>
    rw [List.foldl_cons]
    rcases k.attempt_cases a with hsame | hsets
    · rw [hsame]
      exact ih hb
    · obtain ⟨hbounded, hkind, hlayout⟩ := ih (hsets.bounded hb)
      exact ⟨hbounded, hkind.trans hsets.kind, hlayout.trans hsets.layout⟩

/-- What holds of the parameters of a kernel. -/
structure Lawful (k : Builtin) : Prop where
  bounded : k.Bounded
  distinct : (k.parameters.map Prod.fst).Nodup
  refused : ∀ name v e, k.setParameter name v = .error e → k.attempt (name, v) = k
  /-- Just one value is replaced, and no port is. -/
  taken : ∀ name v k', k.setParameter name v = .ok k' →
    k'.kind = k.kind ∧ k'.layout = k.layout ∧ name ∈ k.parameters.map Prod.fst ∧
      k'.parameters = k.parameters.map fun e => if e.1 = name then (name, v) else e
  listed : ∀ e ∈ k.parameters, k.setParameter e.1 e.2 = .ok k
  /-- A new kernel of the kind becomes equal to this one. -/
  restored : ∃ e, registry.find? k.kind = some e ∧ e.kernel.setAll k.parameters = .ok k

theorem Bounded.lawful {k : Builtin} (hb : k.Bounded) : k.Lawful where
  bounded := hb
  distinct := k.nodup_parameters
  refused name v e he := by rw [attempt, he]
  taken name v k' h :=
    have hsets := sets_of_setParameter h
    ⟨hsets.kind, hsets.layout, hsets.parameters⟩
  listed e he := (hb.sets e he).setParameter
  restored := exists_fresh hb

end Builtin

/-! ## Nodes with these kernels -/

namespace Session

section

variable {κ : Type} {s : Session κ} {p : NodePlace} {n m : Node κ}

variable [Kernel κ]

/-- A parameter that is refused changes nothing. -/
theorem step_parameter_of_error {name : String} {v : ParamValue} {e : ParameterError}
    (hn : s.node? p = some n) (he : Kernel.setParameter n.kernel name v = .error e) :
    s.step (.node p (.parameter name v)) = (.edited (.error e), s) := by
  have happly : (NodeEdit.parameter name v).apply n = .error e := by
    rw [NodeEdit.apply, Node.setParameter, he]
    rfl
  simp only [step, editNode, hn, happly]

/-- A parameter that is taken replaces the kernel of its node, which forgets what it computed. -/
theorem step_parameter_of_ok (h : s.WellFormed) {name : String} {v : ParamValue} {k : κ}
    (hn : s.node? p = some n) (hk : Kernel.setParameter n.kernel name v = .ok k) :
    (s.step (.node p (.parameter name v))).1 = .edited (.ok ()) ∧
      (s.step (.node p (.parameter name v))).2.node? p =
        some { n with kernel := k, memo := none } := by
  have happly : (NodeEdit.parameter name v).apply n = .ok { n with kernel := k, memo := none } := by
    rw [NodeEdit.apply, Node.setParameter, hk]
    rfl
  have hstep : s.step (.node p (.parameter name v)) =
      (.edited (.ok ()), s.setNode p { n with kernel := k, memo := none }) := by
    simp only [step, editNode, hn, happly]
  rw [hstep]
  exact ⟨rfl, node?_setNode h hn rfl⟩

end

/-- For every kernel that a constructor of the catalogue and any attempts to set parameters lead to,
sizes and positions are in their range, kind and ports are those of the beginning, a parameter that
is set is the only one that changes, every listed parameter is taken back, and all of them make a
new kernel of the kind equal to this one. At a node with this kernel in any session, a parameter
that is refused changes nothing, and one that is taken drops the memo. -/
theorem parameters_lawful {k₀ : Builtin} (h : k₀.Constructed)
    (attempts : List (String × ParamValue)) :
    let k := attempts.foldl Builtin.attempt k₀
    k.kind = k₀.kind ∧ k.layout = k₀.layout ∧ k.Lawful ∧
    ∀ title es p n, ((start title).run es).node? p = some n → n.kernel = k → ∀ name v,
      let s := (start title).run es
      let x := s.step (.node p (.parameter name v))
      (∀ e, k.setParameter name v = .error e → x = (.edited (.error e), s)) ∧
      ∀ k', k.setParameter name v = .ok k' → x.1 = .edited (.ok ()) ∧
        x.2.node? p = some { n with kernel := k', memo := none } := by
  intro k
  obtain ⟨hbounded, hkind, hlayout⟩ := Builtin.bounded_foldl h.bounded attempts
  refine ⟨hkind, hlayout, hbounded.lawful, fun title es p n hn hk name v => ⟨?_, ?_⟩⟩
  · intro e he
    exact step_parameter_of_error hn (hk ▸ he)
  · intro k' hk'
    exact step_parameter_of_ok (wellFormed_run (.start title) es) hn (hk ▸ hk')

/-- An image of one colour is made wider and computed. -/
def resizing : List (Edit Builtin) := [
  .add (.ofKernel (.solidColorOf 0 1)), .node (.node 2) (.parameter "width" (.integer 2)),
  .evaluate .standard]

/-- The clamped image is two pixels wide and keeps its memo when a width of `0` is refused, not when
a height is taken. Both parameters make the image that the registry starts with equal to it. -/
theorem parameters_lawful_resizing : ∃ n,
    ((start "resizing").run resizing).node? (.node 2) = some n ∧ n.memo = some [0] ∧
    n.kernel = .solidColor ⟨2, 1⟩ ∧ n.kernel.Lawful ∧
    ((start "resizing").run resizing).step (.node (.node 2) (.parameter "width" (.integer 0))) =
      (.edited (.error (.outOfRange "width" (.dimension 0))), (start "resizing").run resizing) ∧
    (((start "resizing").run resizing).step
      (.node (.node 2) (.parameter "height" (.integer 3)))).2.node? (.node 2) =
        some { n with kernel := .solidColor ⟨2, 3⟩, memo := none } := by
  have hread : (((start "resizing").run resizing).node? (.node 2)).map
      (fun n => (n.memo, n.kernel)) = some (some [0], .solidColor ⟨2, 1⟩) := by
    decide +kernel
  obtain ⟨n, hn, hx⟩ := Option.map_eq_some_iff.mp hread
  obtain ⟨hmemo, hk⟩ := Prod.mk.inj hx
  obtain ⟨-, -, hlawful, hnode⟩ := parameters_lawful (.solidColorOf 0 1) [("width", .integer 2)]
  have hreached : [("width", .integer 2)].foldl Builtin.attempt (.solidColorOf 0 1) =
      .solidColor ⟨2, 1⟩ := by
    decide +kernel
  rw [hreached] at hlawful hnode
  have hat := hnode "resizing" resizing (.node 2) n hn hk
  exact ⟨n, hn, hmemo, hk, hk ▸ hlawful, (hat "width" (.integer 0)).1 _ rfl,
    ((hat "height" (.integer 3)).2 _ rfl).2⟩

end Session

end TextureFlow
