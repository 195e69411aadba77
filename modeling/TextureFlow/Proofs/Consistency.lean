import Mathlib
import TextureFlow.Catalogue.Basic
import TextureFlow.Proofs.Kinds

/-!
# Images and masks stay consistent

A value comes into a session in four ways: a layout lists it, it is offered as a fallback, a kernel
computes it, or it is the zero that stands in for a failure. From there it is only copied. So a
property of values holds at every port if layouts, zeros and offered fallbacks have it and kernels
compute it from values that have it. The kernels of the catalogue do so with consistency: each
writes down a size, and builds as many pixels as that size says, however it builds them.

* `Hereditary`: what kernels have to grant;
* `Graph.holds_runNode`, `Graph.holds_runNodes`: a turn and a run of turns copy and compute nothing
  else;
* `Session.Everywhere.holds_run`: such a property holds at every port of every session;
* `Builtin.hereditary_consistent`, `Session.consistent_run`: images and masks of the catalogue.
-/

namespace TextureFlow

/-! ## Properties of values at ports -/

/-- A port that shows and falls back on nothing but values with a property. -/
structure Port.Holds (P : Value → Prop) (p : Port) : Prop where
  value : ∀ v, p.value = some v → P v
  fallback : ∀ v, p.fallback = some v → P v

/-- A property that the values of layouts and all zeros have, and that kernels hand on from what
they read to what they compute. -/
structure Hereditary (κ : Type) [Kernel κ] (P : Value → Prop) : Prop where
  layout : ∀ k : κ, ∀ p ∈ (Kernel.layout k).inputs ++ (Kernel.layout k).outputs, p.Holds P
  zero : ∀ k : ValueKind, P k.zero
  compute : ∀ (k : κ) (values outs : List Value), (∀ v ∈ values, P v) →
    Kernel.compute k values = .ok outs → ∀ v ∈ outs, P v

namespace Port

variable {P : Value → Prop} {p : Port}

theorem Holds.write (h : p.Holds P) {v : Value} (hv : P v) (generation : Nat) :
    (p.write v generation).Holds P :=
  ⟨fun _ hw => Option.some.inj hw ▸ hv, h.fallback⟩

theorem Holds.reset (h : p.Holds P) : p.reset.Holds P :=
  ⟨h.fallback, h.fallback⟩

theorem Holds.resolve (h : p.Holds P) {feed : Option Port} (hf : ∀ q, feed = some q → q.Holds P) :
    (p.resolve feed).Holds P := by
  cases feed with
  | none => exact h.reset
  | some q => exact ⟨(hf q rfl).value, h.fallback⟩

theorem holds_writeAll (revision : Nat) {ports : List Port} {values : List Value}
    (hp : ∀ p ∈ ports, p.Holds P) (hv : ∀ v ∈ values, P v) :
    ∀ q ∈ writeAll revision ports values, q.Holds P := by
  induction ports generalizing revision values with
  | nil => cases values <;> exact hp
  | cons p ports ih =>
    cases values with
    | nil => exact hp
    | cons v values =>
      obtain ⟨hp, hps⟩ := List.forall_mem_cons.mp hp
      obtain ⟨hv, hvs⟩ := List.forall_mem_cons.mp hv
      exact List.forall_mem_cons.mpr ⟨hp.write hv _, ih (revision + 1) hps hvs⟩

theorem holds_fillZeros (hzero : ∀ k : ValueKind, P k.zero) (revision : Nat) {ports : List Port}
    (h : ∀ p ∈ ports, p.Holds P) : ∀ q ∈ fillZeros revision ports, q.Holds P := by
  induction ports generalizing revision with
  | nil => exact h
  | cons p ports ih =>
    obtain ⟨hp, hps⟩ := List.forall_mem_cons.mp h
    cases hv : p.value with
    | some v =>
      rw [fillZeros, hv]
      exact List.forall_mem_cons.mpr ⟨hp, ih revision hps⟩
    | none =>
      rw [fillZeros, hv]
      refine List.forall_mem_cons.mpr ⟨?_, ih (revision + 1) hps⟩
      cases p.emits? with
      | none => exact hp
      | some k => exact hp.write (hzero k) _

theorem holds_of_map_value {ports : List Port} {values : List Value}
    (hm : ports.map value = values.map some) (h : ∀ p ∈ ports, p.Holds P) : ∀ v ∈ values, P v := by
  intro v hv
  have hmem : some v ∈ ports.map value := hm ▸ List.mem_map_of_mem hv
  obtain ⟨p, hp, hpv⟩ := List.mem_map.mp hmem
  exact (h p hp).value v hpv

end Port

/-! ## Nodes -/

/-- An edit that offers no fallback but one with a property. -/
def NodeEdit.Offers (P : Value → Prop) : NodeEdit → Prop
  | fallback _ v => P v
  | _ => True

namespace Node

variable {κ : Type} {P : Value → Prop} {n m : Node κ}

/-- A node all of whose ports hold nothing but values with a property. -/
structure Holds (P : Value → Prop) (n : Node κ) : Prop where
  inputs : ∀ p ∈ n.inputs, p.Holds P
  outputs : ∀ p ∈ n.outputs, p.Holds P

theorem Holds.congr (h : n.Holds P) (hi : m.inputs = n.inputs) (ho : m.outputs = n.outputs) :
    m.Holds P :=
  ⟨hi ▸ h.inputs, ho ▸ h.outputs⟩

theorem Holds.ports (h : n.Holds P) : ∀ p ∈ n.ports, p.Holds P :=
  List.forall_mem_append.mpr ⟨h.inputs, h.outputs⟩

theorem Holds.resolve (h : n.Holds P) {feed : Nat → Option Port}
    (hf : ∀ i q, feed i = some q → q.Holds P) : (n.resolve feed).Holds P where
  inputs q hq := by
    obtain ⟨i, hi, rfl⟩ := List.mem_mapIdx.mp hq
    exact (h.inputs _ (List.getElem_mem hi)).resolve (hf i)
  outputs := h.outputs

variable [Kernel κ]

theorem holds_draft (hP : Hereditary κ P) (d : Draft κ) (id : NodeId) : (d.node id).Holds P := by
  obtain ⟨hin, hout⟩ := List.forall_mem_append.mp (hP.layout d.kernel)
  have hnew : (Node.create id d.kernel).Holds P := by
    constructor
    case inputs =>
      intro p hp
      obtain ⟨q, hq, rfl⟩ := List.mem_map.mp hp
      exact ⟨(hin q hq).value, (hin q hq).fallback⟩
    case outputs =>
      intro p hp
      obtain ⟨q, hq, rfl⟩ := List.mem_map.mp hp
      exact ⟨(hout q hq).value, (hout q hq).fallback⟩
  obtain ⟨name, strategy, h⟩ := exists_node_eq d id
  exact h ▸ hnew.congr rfl rfl

/-- Edits bring in no value but an offered fallback. -/
theorem Holds.apply (h : n.Holds P) {e : NodeEdit} (hE : e.Offers P) (he : e.apply n = .ok m) :
    m.Holds P := by
  cases edited_of_apply he with
  | @fallback index v p q place fits edit =>
    have hold := h.inputs p (List.mem_of_getElem? place)
    have hedited : Port.Holds P { p with fallback := some v } :=
      ⟨hold.value, fun w hw => Option.some.inj hw ▸ hE⟩
    refine ⟨fun x hx => ?_, h.outputs⟩
    rcases List.mem_or_eq_of_mem_set hx with hx | rfl
    · exact h.inputs x hx
    · rcases edit with rfl | rfl
      · exact hedited
      · exact hedited.reset
  | _ => exact h.congr rfl rfl

theorem stable_holds (P : Value → Prop) :
    Node.StableUnder (κ := κ) (NodeEdit.Offers P) (Node.Holds P) where
  renumber _ _ h := h.congr rfl rfl
  apply _ hE _ _ h he := h.apply hE he

/-- A verdict writes what the kernel made of the inputs, or zeros, or nothing. -/
theorem Holds.conclude (hP : Hereditary κ P) (h : n.Holds P) (memoization zeroFill : Bool)
    (revision : Nat) (ran : Bool) :
    (n.conclude zeroFill revision ran (n.judge memoization)).Holds P := by
  refine ⟨by rw [inputs_conclude]; exact h.inputs, ?_⟩
  cases hj : n.judge memoization with
  | computed outs =>
    obtain ⟨ins, hins, hc, -⟩ := exists_of_result (result_of_computed hj)
    have houts := hP.compute n.kernel ins outs (Port.holds_of_map_value hins h.inputs) hc
    exact Port.holds_writeAll revision h.outputs houts
  | reused => exact h.outputs
  | failed e =>
    cases zeroFill with
    | false => exact h.outputs
    | true => exact Port.holds_fillZeros hP.zero revision h.outputs

end Node

/-! ## A pass -/

namespace Graph

variable {κ : Type} [Kernel κ] {P : Value → Prop} {g h : Graph κ}

/-- A turn copies values from outputs to inputs and computes new ones from them. -/
theorem holds_runNode (hP : Hereditary κ P) (settings : Settings) (hg : ∀ n ∈ g.nodes, n.Holds P)
    {n : Node κ} (hn : n ∈ g.nodes) : ∀ m ∈ (g.runNode settings n).1.nodes, m.Holds P := by
  have hfed : (g.fed n).Holds P := by
    refine (hg n hn).resolve fun i q hq => ?_
    obtain ⟨m, hm, hqm⟩ := mem_of_feed? hq
    exact (hg m hm).outputs q hqm
  intro m hm
  rcases mem_setNode hm with rfl | hm
  · exact hfed.conclude hP settings.memoization settings.zeroFill g.revision _
  · exact hg m hm

theorem holds_runNodes (hP : Hereditary κ P) (settings : Settings) (order : List NodeId)
    (hg : ∀ n ∈ g.nodes, n.Holds P) (r : Report) :
    ∀ m ∈ (runNodes settings order (g, r)).1.nodes, m.Holds P := by
  induction order generalizing g r with
  | nil => exact hg
  | cons id rest ih =>
    unfold runNodes
    cases hn : g.node? id with
    | none => exact ih hg r
    | some n => exact ih (holds_runNode hP settings hg (mem_of_node? hn).1) _

theorem holds_evaluate (hP : Hereditary κ P) {settings : Settings} {r : Report}
    (hg : ∀ n ∈ g.nodes, n.Holds P) (he : g.evaluate settings = .ok (h, r)) :
    ∀ m ∈ h.nodes, m.Holds P := by
  obtain ⟨-, order, -, hrun⟩ := evaluate_eq_ok he
  have hstart : ∀ n ∈ g.restarted.nodes, n.Holds P := by
    intro n hn
    obtain ⟨m, hm, rfl⟩ := List.mem_map.mp hn
    exact (hg m hm).congr rfl rfl
  have hend := holds_runNodes hP settings order hstart (.start order)
  rwa [hrun] at hend

end Graph

/-! ## Sessions -/

namespace Session

variable {κ : Type} [Kernel κ] {P : Value → Prop} {s : Session κ}

theorem Everywhere.holds_step (h : s.Everywhere (Node.Holds P)) (hP : Hereditary κ P) {e : Edit κ}
    (hE : ∀ place x, e = .node place x → x.Offers P) :
    (s.step e).2.Everywhere (Node.Holds P) := by
  by_cases he : e.IsPass
  · obtain ⟨settings, rfl⟩ := he
    simp only [Session.step, Session.evaluate]
    cases hr : s.graph.evaluate settings with
    | error err => exact h
    | ok gr => exact h.setGraph (Graph.holds_evaluate hP h.graph hr)
  · exact h.stepUnder (Node.stable_holds P) he hE fun d id _ => Node.holds_draft hP d id

/-- A property that kernels hand on holds at every port of a session in which no fallback without it
is offered. -/
theorem Everywhere.holds_run (h : s.Everywhere (Node.Holds P)) (hP : Hereditary κ P)
    {es : List (Edit κ)} (hE : ∀ place x, .node place x ∈ es → x.Offers P) :
    (s.run es).Everywhere (Node.Holds P) := by
  induction es generalizing s with
  | nil => exact h
  | cons e es ih =>
    refine ih (h.holds_step hP fun place x he => hE place x ?_) fun place x hx =>
      hE place x (List.mem_cons_of_mem e hx)
    exact he ▸ List.mem_cons_self

end Session

/-! ## Pixels -/

namespace Image

variable {i j : Image}

/-- The shorter of two pixel lists decides, but lists of one size are of one length. -/
theorem Consistent.zipWith (hi : i.Consistent) (hj : j.Consistent) (hs : i.size = j.size)
    (f : Rgba → Rgba → Rgba) : (Image.zipWith f i j).Consistent := by
  have hlength : j.pixels.length = i.pixels.length := by rw [hj, hi, hs]
  have hzip : (List.zipWith f i.pixels j.pixels).length = i.pixels.length := by
    rw [List.length_zipWith, hlength, Nat.min_self]
  exact hzip.trans hi

theorem Consistent.splitAt (hi : i.Consistent) (hj : j.Consistent) (hs : i.size = j.size)
    (split : Float32) : (Image.splitAt split i j).Consistent := by
  have hlength : j.pixels.length = i.pixels.length := by rw [hj, hi, hs]
  have hzip : (Image.splitAt split i j).pixels.length = i.pixels.length := by
    simp [Image.splitAt, hlength]
  exact hzip.trans hi

theorem size_of_requireSameSize (h : i.requireSameSize j = .ok ()) : i.size = j.size := by
  by_contra hne
  rw [requireSameSize, if_neg hne] at h
  cases h

theorem consistent_of_requireConsistent (h : i.requireConsistent = .ok j) : j.Consistent := by
  unfold requireConsistent at h
  split at h
  · next hi => exact Except.ok.inj h ▸ hi
  · cases h

/-- A mask as long as the pixel list fades every pixel. -/
theorem Consistent.of_applyMask {m : Mask} (hi : i.Consistent) (h : i.applyMask m = .ok j) :
    j.Consistent := by
  unfold applyMask at h
  split at h
  · cases h
  · split at h
    · cases h
    · next hl =>
      obtain rfl := Except.ok.inj h
      have hzip : (List.zipWith Rgba.fade i.pixels m.values).length = i.pixels.length := by
        rw [List.length_zipWith, not_not.mp hl, Nat.min_self]
      exact hzip.trans hi

end Image

/-- Bytes that do not begin with a whole pixel. -/
theorem length_lt_four {bytes : List UInt8}
    (h : ∀ r g b a rest, bytes = r :: g :: b :: a :: rest → False) : bytes.length < 4 := by
  rcases bytes with _ | ⟨r, _ | ⟨g, _ | ⟨b, _ | ⟨a, rest⟩⟩⟩⟩
  case cons.cons.cons.cons => exact (h r g b a rest rfl).elim
  all_goals simp

/-- Four bytes are one pixel. -/
theorem Rgba.length_pixelsOnto (found : List Rgba) (bytes : List UInt8) :
    (pixelsOnto found bytes).length = found.length + bytes.length / 4 := by
  fun_induction pixelsOnto found bytes with
  | case1 found r g b a rest pixel ih =>
    rw [ih]
    simp only [List.length_cons]
    omega
  | case2 bytes found hshort =>
    rw [List.length_reverse, Nat.div_eq_of_lt (length_lt_four hshort), Nat.add_zero]

theorem Image.consistent_of_ofBytes {size : Size} {bytes : List UInt8} {i : Image}
    (h : ofBytes size bytes = .ok i) : i.Consistent := by
  simp only [ofBytes] at h
  split at h
  · next hl =>
    obtain rfl := Except.ok.inj h
    rw [Consistent, Rgba.length_pixelsOnto, hl]
    simp
  · cases h

/-! ## Kernels of the catalogue -/

/-- What a computation gives, if it gives anything, is as promised. -/
def Yields {α ε : Type} (promise : α → Prop) (m : Except ε α) : Prop :=
  ∀ a, m = .ok a → promise a

namespace Yields

variable {α β ε : Type} {promise : α → Prop} {next : β → Prop}

theorem pure {a : α} (h : promise a) : Yields promise (Pure.pure a : Except ε α) := fun _ ha =>
  Except.ok.inj ha ▸ h

theorem bind {m : Except ε α} (h : Yields promise m) {f : α → Except ε β}
    (hf : ∀ a, promise a → Yields next (f a)) : Yields next (m >>= f) := by
  cases m with
  | ok a => exact hf a (h a rfl)
  | error e => nofun

/-- Where nothing is promised of the first part, it may give anything. -/
theorem bind_any {m : Except ε α} {f : α → Except ε β} (hf : ∀ a, Yields next (f a)) :
    Yields next (m >>= f) := by
  have hm : Yields (fun _ => True) m := fun _ _ => trivial
  exact hm.bind fun a _ => hf a

end Yields

namespace Inputs

variable {values : Inputs}

/-- What is read is part of a value that was handed over. -/
theorem yields_payload {α : Type} {part? : Value → Option α} {P : Value → Prop} {promise : α → Prop}
    (hpart : ∀ v x, P v → part? v = some x → promise x) (h : ∀ v ∈ values, P v) (wanted : Wanted)
    (i : Nat) : Yields promise (payload part? wanted values i) := by
  unfold payload value
  cases hv : values[i]? with
  | none => nofun
  | some v =>
    have hP := h v (List.mem_of_getElem? hv)
    cases hx : part? v with
    | none => simp [Yields, bind, Except.bind, hx, throw, throwThe, MonadExceptOf.throw]
    | some x =>
      intro y hy
      simp only [bind, Except.bind, hx] at hy
      exact Except.ok.inj hy ▸ hpart v x hP hx

theorem yields_image (h : ∀ v ∈ values, v.Consistent) (i : Nat) :
    Yields Image.Consistent (values.image i) := by
  refine yields_payload (fun v x hv hx => ?_) h _ i
  cases v <;> cases hx
  exact hv

end Inputs

namespace Builtin

open Inputs

/-- From consistent values every kernel computes consistent values. -/
theorem yields_consistent (k : Builtin) {values : Inputs} (h : ∀ v ∈ values, v.Consistent) :
    Yields (fun outs => ∀ v ∈ outs, v.Consistent) (k.compute values) := by
  -- a value that is no image and no mask has nothing to keep
  have hfree {v : Value} (hv : v.Consistent) :
      Yields (ε := ComputeError) (fun outs : List Value => ∀ v ∈ outs, v.Consistent)
        (return [v]) := .pure (List.forall_mem_singleton.mpr hv)
  cases k with
  | scalarConstant x => exact hfree trivial
  | vectorConstant v => exact hfree trivial
  | colorConstant c => exact hfree trivial
  | imageSource i =>
    refine Yields.bind (fun _ => Image.consistent_of_requireConsistent) fun image himage => ?_
    exact hfree himage
  | imageOutput => exact (yields_image h 0).bind fun image himage => hfree himage
  | math op => exact .bind_any fun a => .bind_any fun b => .bind_any fun _ => hfree trivial
  | vectorMath op arity =>
    exact .bind_any fun a => .bind_any fun b => .bind_any fun _ => hfree trivial
  | vectorScale arity => exact .bind_any fun v => .bind_any fun _ => hfree trivial
  | vectorLength => exact .bind_any fun _ => hfree trivial
  | combineVector arity => exact .bind_any fun _ => hfree trivial
  | splitVector =>
    refine .bind_any fun v => .pure fun w hw => ?_
    simp only [List.mem_cons, List.not_mem_nil, or_false] at hw
    rcases hw with rfl | rfl | rfl | rfl <;> trivial
  | colorAdjust =>
    refine (yields_image h 0).bind fun image himage => ?_
    exact .bind_any fun brightness => .bind_any fun contrast => .bind_any fun saturation =>
      hfree (himage.map _)
  | invert => exact (yields_image h 0).bind fun image himage => hfree (himage.map _)
  | tint =>
    refine (yields_image h 0).bind fun image himage => ?_
    exact .bind_any fun color => hfree (himage.map _)
  | mix mode =>
    refine (yields_image h 0).bind fun first hfirst => ?_
    refine (yields_image h 1).bind fun second hsecond => .bind_any fun factor => ?_
    refine Yields.bind (fun _ => Image.size_of_requireSameSize) fun _ hsize => ?_
    exact hfree (hfirst.zipWith hsecond hsize _)
  | splitView split =>
    refine (yields_image h 0).bind fun first hfirst => ?_
    refine (yields_image h 1).bind fun second hsecond => ?_
    refine Yields.bind (fun _ => Image.size_of_requireSameSize) fun _ hsize => ?_
    exact hfree (hfirst.splitAt hsecond hsize split)
  | solidColor size => exact .bind_any fun color => hfree (Image.consistent_filled size color)
  | extractAlpha =>
    refine (yields_image h 0).bind fun image himage => ?_
    exact hfree (Mask.Consistent.ofImage himage _)
  | luminance =>
    refine (yields_image h 0).bind fun image himage => ?_
    exact hfree (Mask.Consistent.ofImage himage _)
  | applyMask =>
    refine (yields_image h 0).bind fun image himage => .bind_any fun mask => ?_
    refine Yields.bind (fun _ => himage.of_applyMask) fun result hresult => ?_
    exact hfree hresult
  | imageFromBytes size =>
    refine .bind_any fun bytes => ?_
    refine Yields.bind (fun _ => Image.consistent_of_ofBytes) fun image himage => ?_
    exact hfree himage
  | imageToBytes => exact (yields_image h 0).bind fun image _ => hfree trivial

/-- Layouts list zeros, the numbers and colours that some inputs fall back on, and nothing else. -/
theorem holds_layout {P : Value → Prop} (hzero : ∀ k : ValueKind, P k.zero)
    (hscalar : ∀ x, P (.scalar x)) (hcolor : ∀ c, P (.color c)) (k : Builtin) :
    ∀ p ∈ k.layout.inputs ++ k.layout.outputs, p.Holds P := by
  have hrequired (p : Port) : p.required.Holds P := ⟨nofun, nofun⟩
  have houtput (name : String) (kind : ValueKind) : (Port.output name kind).Holds P :=
    ⟨nofun, nofun⟩
  have hinput (name : String) (a : Accepted) : (Port.input name a).Holds P := by
    have hfirst : ∀ v, a.primary?.map ValueKind.zero = some v → P v := by
      intro v hv
      obtain ⟨k, -, rfl⟩ := Option.map_eq_some_iff.mp hv
      exact hzero k
    exact ⟨hfirst, hfirst⟩
  have hfallback {p : Port} {v : Value} (hv : P v) : (p.withFallback v).Holds P :=
    ⟨fun _ hw => Option.some.inj hw ▸ hv, fun _ hw => Option.some.inj hw ▸ hv⟩
  cases k with
  | combineVector arity =>
    refine List.forall_mem_append.mpr ⟨fun p hp => ?_, by simpa [layout] using houtput _ _⟩
    obtain ⟨name, -, rfl⟩ := List.mem_map.mp hp
    exact hinput _ _
  | splitVector => simp [layout, componentNames, hinput, houtput]
  | _ =>
    simp [layout, scalarInput, vectorInput, imageInput, colorInput, imageResult, hrequired, houtput,
      hinput, hfallback, hscalar, hcolor]

theorem consistent_zero (k : ValueKind) : k.zero.Consistent := by
  cases k with
  | image => exact rfl
  | mask => exact rfl
  | _ => trivial

/-- Kernels of the catalogue hand consistency on. -/
theorem hereditary_consistent : Hereditary Builtin Value.Consistent where
  layout := holds_layout consistent_zero (fun _ => trivial) fun _ => trivial
  zero := consistent_zero
  compute k _ outs h hc := k.yields_consistent h outs hc

end Builtin

/-! ## Sessions of the catalogue -/

namespace Session

/-- If every image and mask that is offered as a fallback is consistent, then so is every image and
mask at every port of every node, in a graph or held, after every history, whatever images sources
are given. -/
theorem consistent_run (name : String) {es : List (Edit Builtin)}
    (hes : ∀ place i v, .node place (.fallback i v) ∈ es → v.Consistent) :
    ∀ n ∈ ((start name).run es).nodes, ∀ p ∈ n.ports, ∀ v,
      p.value = some v ∨ p.fallback = some v → v.Consistent := by
  intro n hn p hp v hv
  have hE : ∀ place x, .node place x ∈ es → x.Offers Value.Consistent := by
    intro place x hx
    cases x with
    | fallback i v => exact hes place i v hx
    | _ => trivial
  have hall := (Everywhere.start name).holds_run Builtin.hereditary_consistent hE
  have hport := (hall.nodes n hn).ports p hp
  exact hv.elim (hport.value v) (hport.fallback v)

/-- A source says that it has two pixels and has none. One inversion is fed by it, another falls
back on an image of two pixels. -/
def mending : List (Edit Builtin) := [
  .add (.ofKernel (.imageSource ⟨⟨2, 1⟩, []⟩)), .add (.ofKernel .invert), .add (.ofKernel .invert),
  .connect ⟨2, 0⟩ ⟨4, 0⟩, .node (.node 6) (.fallback 0 (.image (.filled ⟨2, 1⟩ .white))),
  .evaluate .standard]

/-- A source without its pixels fails, and the image without any pixel stands in for it. -/
theorem consistent_run_mending :
    (((start "mending").run mending).graph.nodes.map fun n =>
      ((n.outputValue? 0).bind Value.image?).map fun i => (i.size.area, i.pixels.length)) =
        [some (0, 0), some (0, 0), some (2, 2)] ∧
    ∀ n ∈ ((start "mending").run mending).nodes, ∀ p ∈ n.ports, ∀ v,
      p.value = some v ∨ p.fallback = some v → v.Consistent := by
  refine ⟨by decide +kernel, consistent_run "mending" fun place i v hv => ?_⟩
  have hoffered : v = .image (.filled ⟨2, 1⟩ .white) := by
    simp only [mending, List.mem_cons, List.not_mem_nil, reduceCtorEq, false_or, or_false,
      Edit.node.injEq, NodeEdit.fallback.injEq] at hv
    exact hv.2.2
  exact hoffered ▸ Image.consistent_filled _ _

end Session

end TextureFlow
