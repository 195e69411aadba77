import Mathlib
import TextureFlow.Proofs.CatalogueParameters
import TextureFlow.Proofs.CatalogueReading

/-!
# The kernels of the catalogue do what their layouts say

Inputs fall back on values of kinds that they accept, no parameter changes a layout, and what is
computed from accepted values is of the declared kinds. So the kernels of the catalogue are a typed
family.

* `Builtin.admits`: what inputs fall back on;
* `Session.kinds_run`: in sessions of the catalogue values are where they belong, and no pass ever
  blames a value for its kind.
-/

namespace TextureFlow

namespace Builtin

/-! ## Kernels -/

/-- An input falls back on the zero of a kind that it accepts. -/
theorem admits_input (name : String) (a : Accepted) : (Port.input name a).Admits := by
  have hzero : ∀ v, a.primary?.map ValueKind.zero = some v → a.contains v.kind = true := by
    intro v hv
    obtain ⟨k, hk, rfl⟩ := Option.map_eq_some_iff.mp hv
    rw [ValueKind.kind_zero, Accepted.contains_iff]
    exact List.mem_of_head? hk
  exact ⟨hzero, hzero⟩

theorem admits_required (p : Port) : p.required.Admits :=
  ⟨nofun, nofun⟩

theorem admits_withFallback {p : Port} {v : Value} (h : p.accepts v.kind = true) :
    (p.withFallback v).Admits :=
  ⟨fun _ hw => Option.some.inj hw ▸ h, fun _ hw => Option.some.inj hw ▸ h⟩

/-- Every input of a layout falls back on a value that it accepts, or on nothing. -/
theorem admits (k : Builtin) : ∀ p ∈ k.layout.inputs, p.Admits := by
  have hscalar (name : String) : (scalarInput name).Admits := admits_input ..
  have hfactor (name : String) (x : Float32) :
      ((scalarInput name).withFallback (.scalar x)).Admits := admits_withFallback rfl
  have hvector (name : String) (arity : Arity) : (vectorInput name arity).Admits :=
    admits_input ..
  have hcolor (name : String) : (colorInput name).Admits := admits_withFallback rfl
  have himage (name : String) : (imageInput name).Admits := admits_required _
  cases k with
  | combineVector arity =>
    intro p hp
    obtain ⟨name, -, rfl⟩ := List.mem_map.mp hp
    exact hscalar name
  | _ => simp [layout, hscalar, hfactor, hvector, hcolor, himage, admits_input, admits_required]

instance : TypedKernels Builtin where
  admits := admits
  blank k := Builtin.blank (.create (.ofKernel k)) (.ofKernel k) rfl
  delivers k _ h := k.delivers h
  setParameter _ _ _ _ h := (sets_of_setParameter h).layout

end Builtin

/-! ## Sessions of the catalogue -/

namespace Session

/-- In every session with kernels of the catalogue, outputs hold nothing but values of the kinds
they declare, inputs show and fall back on nothing but values they accept, wherever the node is, and
whatever graph a pass is run over, every failure is an input without a value or a failure of the
kernel's own. -/
theorem kinds_run (name : String) (es : List (Edit Builtin)) :
    let s := (start name).run es
    (∀ n ∈ s.nodes, n.Typed) ∧
    ∀ g ∈ s.graphs, ∀ settings h r, g.evaluate settings = .ok (h, r) →
      ∀ id e, (id, e) ∈ r.failures → e.Own := by
  intro s
  have hw : s.WellFormed := wellFormed_run (.start name) es
  have hall : s.Everywhere Node.Regular := (Everywhere.start name).regular_run (.start name) es
  refine ⟨fun n hn => (hall.nodes n hn).toTyped, fun g hg settings h r he id e hf => ?_⟩
  obtain ⟨verdict, base, top, hp⟩ := Graph.evaluate_spec (hw.graphs g hg) he
  exact hp.failures_own (hall.graphs g hg) hf

/-- A mask is offered to an image input, and bytes as a colour to fall back on. Both are refused. -/
def mismatching : List (Edit Builtin) := [
  .add (.ofKernel (.imageSource .empty)), .add (.ofKernel .luminance), .add (.ofKernel .tint),
  .connect ⟨2, 0⟩ ⟨4, 0⟩, .connect ⟨4, 0⟩ ⟨6, 0⟩, .node (.node 6) (.fallback 1 (.bytes []))]

/-- The tint fails since nothing feeds it, and not because of what it was offered. -/
theorem kinds_run_mismatching :
    (∀ n ∈ ((start "mismatching").run mismatching).nodes, n.Typed) ∧
    ∃ g r, ((start "mismatching").run mismatching).graph.evaluate .standard = .ok (g, r) ∧
      r.computed = [2, 4] ∧ r.failures = [(6, .missingInput 0 "Image")] ∧
      ∀ id e, (id, e) ∈ r.failures → e.Own := by
  have hkinds := kinds_run "mismatching" mismatching
  have hw : ((start "mismatching").run mismatching).WellFormed := wellFormed_run (.start _) _
  have hread : (((start "mismatching").run mismatching).graph.evaluate .standard).toOption.map
      (fun gr => (gr.2.computed, gr.2.failures)) =
        some ([2, 4], [(6, .missingInput 0 "Image")]) := by
    decide +kernel
  obtain ⟨g, r, he, hr⟩ := Graph.exists_of_evaluate hread
  obtain ⟨hcomputed, hfailures⟩ := Prod.mk.inj hr
  exact ⟨hkinds.1, g, r, he, hcomputed, hfailures, hkinds.2 _ hw.graph_mem _ g r he⟩

end Session

end TextureFlow
