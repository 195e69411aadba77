import Mathlib
import TextureFlow.Proofs.CatalogueKinds
import TextureFlow.Proofs.Invalidation

/-!
# What filling with zeros leaves open

A pass that fills with zeros leaves no output empty that declares a kind: a node that computes
writes all its outputs, a node that keeps them remembers having written them, and a node that fails
fills what is missing. A node has its turn after the nodes that feed it, so a connection always
brings a value, whatever was there before, and an input is without one only if nothing is connected
to it and it has nothing to fall back on.

* `Graph.Passed.emits?_of_empty`: the outputs that stay empty, for kernels of any family;
* `Node.Regular.judge_eq_missing_iff`: when a regular node fails for a missing input, and for which;
* `Graph.Passed.supplied`, `Session.evaluate_supplied`: what a pass leaves open.
-/

namespace TextureFlow

/-! ## Empty ports -/

namespace Port

/-- Filling leaves a port empty only if it declares no single kind. -/
theorem emits?_of_mem_fillZeros (revision : Nat) {ports : List Port} :
    ∀ q ∈ fillZeros revision ports, q.value = none → q.emits? = none := by
  induction ports generalizing revision with
  | nil => exact fun q hq => absurd hq List.not_mem_nil
  | cons p ports ih =>
    cases hv : p.value with
    | some v =>
      rw [fillZeros, hv]
      exact List.forall_mem_cons.mpr ⟨fun hnone => by simp [hv] at hnone, ih revision⟩
    | none =>
      rw [fillZeros, hv]
      refine List.forall_mem_cons.mpr ⟨fun hnone => ?_, ih (revision + 1)⟩
      cases hk : p.emits? with
      | none => exact hk
      | some k => simp [hk, write] at hnone

theorem value_ne_none_of_map_value {ports : List Port} {values : List Value}
    (h : ports.map value = values.map some) : ∀ p ∈ ports, p.value ≠ none := by
  intro p hp hnone
  have hmem : (none : Option Value) ∈ values.map some := by
    rw [← h, ← hnone]
    exact List.mem_map_of_mem hp
  simp at hmem

theorem mem_take_iff {ports : List Port} {i : Nat} {p : Port} :
    p ∈ ports.take i ↔ ∃ j < i, ports[j]? = some p := by
  simp [List.mem_iff_getElem?, List.getElem?_take]

/-- An input that shows nothing but values it accepts is ready if it shows any. -/
theorem Admits.ready {p : Port} (h : p.Admits) (hv : p.value ≠ none) : p.Ready := by
  obtain ⟨v, hv⟩ := Option.ne_none_iff_exists'.mp hv
  exact ⟨v, hv, h.value v hv⟩

end Port

/-! ## Nodes -/

namespace Node

variable {κ : Type} [Kernel κ] {n : Node κ} {memoization : Bool}

/-- After a turn with filling only those outputs are empty that declare no single kind. -/
theorem emits?_of_empty_conclude {T : Stamps} (ht : n.Traced T) (revision : Nat) (ran : Bool) :
    ∀ q ∈ (n.conclude true revision ran (n.judge memoization)).outputs,
      q.value = none → q.emits? = none := by
  intro q hq hnone
  cases hj : n.judge memoization with
  | computed outs =>
    rw [hj] at hq
    have hfull := Port.map_value_writeAll revision (length_of_result (result_of_computed hj))
    exact absurd hnone (Port.value_ne_none_of_map_value hfull q hq)
  | reused =>
    rw [hj] at hq
    -- the memo stands for a computation that wrote every output
    obtain ⟨past, outs, -, -, hfull⟩ := ht.memo _ (memo_of_reused hj).2
    exact absurd hnone (Port.value_ne_none_of_map_value hfull q hq)
  | failed e =>
    rw [hj] at hq
    exact Port.emits?_of_mem_fillZeros revision q hq hnone

/-- The inputs without a value, by position. -/
def Empty (n : Node κ) (i : Nat) : Prop :=
  ∃ p, n.inputs[i]? = some p ∧ p.value = none

theorem judge_of_gather {e : ComputeError} (h : Port.gather 0 n.inputs = .error e) :
    n.judge memoization = .failed e := by
  simp only [judge, h]

/-- An output emits the one kind that the kernel's layout accepts for it. -/
theorem MadeFrom.exists_emits? (h : n.MadeFrom (.ofKernel n.kernel))
    (hone : ∀ p ∈ (Kernel.layout n.kernel).outputs, ∃ kind, p.accepted = .single kind) {p : Port}
    (hp : p ∈ n.outputs) : ∃ kind, p.emits? = some kind := by
  obtain ⟨hdirection, q, hq, haccepted⟩ := h.exists_output hp
  obtain ⟨kind, hkind⟩ := hone q hq
  exact ⟨kind, by rw [Port.emits?, hdirection, haccepted, hkind]⟩

/-- A regular node fails for a missing input exactly if one is, and names the first that is. -/
theorem Regular.judge_eq_missing_iff [TypedKernels κ] (h : n.Regular) {i : Nat} {name : String} :
    n.judge memoization = .failed (.missingInput i name) ↔
      IsLeast {j | n.Empty j} i ∧ ∃ p, n.inputs[i]? = some p ∧ p.name = name := by
  constructor
  · intro hj
    cases fault_of_result (result_of_failed hj) with
    | input place before refuses =>
      cases refuses with
      | missing empty =>
        refine ⟨⟨⟨_, place, empty⟩, fun j hj => ?_⟩, _, place, rfl⟩
        obtain ⟨q, hq, hnone⟩ := hj
        -- the inputs before the one that is named are ready
        by_contra hlt
        obtain ⟨v, hv, -⟩ := before q (Port.mem_take_iff.mpr ⟨j, not_le.mp hlt, hq⟩)
        rw [hnone] at hv
        cases hv
    | compute feeds fails =>
      have hd := TypedKernels.delivers n.kernel _ (h.made.admits feeds)
      rw [fails] at hd
      obtain ⟨f, hf⟩ := hd
      cases hf
  · rintro ⟨⟨⟨p, hp, hnone⟩, hleast⟩, p', hp', rfl⟩
    obtain rfl := Option.some.inj (hp.symm.trans hp')
    refine judge_of_gather (Port.gather_eq_error_iff.mpr ⟨i, p, hp, fun q hq => ?_, ?_⟩)
    · obtain ⟨j, hlt, hj⟩ := Port.mem_take_iff.mp hq
      refine (h.inputs q (List.mem_of_getElem? hj)).ready fun hnone => ?_
      exact absurd (hleast ⟨q, hj, hnone⟩) (not_le.mpr hlt)
    · rw [Nat.zero_add]
      exact .missing hnone

end Node

/-! ## A pass -/

namespace Graph

variable {κ : Type}

/-- The inputs, by position, to which nothing is connected and that have nothing to fall back on. -/
def Open (g : Graph κ) (n : Node κ) (i : Nat) : Prop :=
  ∃ p, n.inputs[i]? = some p ∧ g.connectionTo? ⟨n.id, i⟩ = none ∧ p.fallback = none

/-- A graph in which every output holds a value, and a report that blames missing inputs on open
ones only. -/
structure Supplied (g : Graph κ) (r : Report) : Prop where
  full : ∀ n ∈ g.nodes, ∀ p ∈ n.outputs, p.value ≠ none
  /-- A node fails for a missing input exactly if one is open. -/
  missing : ∀ n ∈ g.nodes,
    (∃ i name, (n.id, .missingInput i name) ∈ r.failures) ↔ ∃ i, g.Open n i
  /-- What it names is the first open input. -/
  first : ∀ n ∈ g.nodes, ∀ i name, (n.id, .missingInput i name) ∈ r.failures ↔
    IsLeast {j | g.Open n j} i ∧ ∃ p, n.inputs[i]? = some p ∧ p.name = name

theorem feed?_eq_none_iff {g : Graph κ} (hw : g.WellFormed) {target : InputPlace} :
    g.feed? target = none ↔ g.connectionTo? target = none := by
  constructor
  · intro hf
    by_contra hne
    obtain ⟨c, hc⟩ := Option.ne_none_iff_exists'.mp hne
    obtain ⟨hmem, rfl⟩ := mem_of_connectionTo? hc
    obtain ⟨-, -, -, p, -, hp⟩ := exists_feed? hw hmem
    rw [hf] at hp
    cases hp
  · intro hnone
    rw [feed?, hnone, Option.bind_none]

variable [Kernel κ]

namespace Passed

variable {settings : Settings} {g h : Graph κ} {r : Report} {verdict : NodeId → Verdict}
  {base top : NodeId → Nat} {n : Node κ} {T : Stamps}

/-- After a pass that fills with zeros only those outputs are empty that declare no single kind. -/
theorem emits?_of_empty (hp : Passed settings g h r verdict base top)
    (hfill : settings.zeroFill = true) (ht : ∀ m ∈ g.nodes, m.Traced T) (hn : n ∈ h.nodes) :
    ∀ q ∈ n.outputs, q.value = none → q.emits? = none := by
  obtain ⟨m, hm, -, rfl⟩ := hp.exists_turned hn
  rw [turned, hfill]
  exact Node.emits?_of_empty_conclude (traced_fed (h := h) (r := r) ht hm) _ _

/-- Where all outputs hold values, an input that is without one is open. -/
theorem empty_iff_open (hp : Passed settings g h r verdict base top)
    (hfull : ∀ m ∈ h.nodes, ∀ p ∈ m.outputs, p.value ≠ none) (hn : n ∈ h.nodes) {i : Nat} :
    n.Empty i ↔ h.Open n i := by
  refine exists_congr fun q => and_congr_right fun hq => ?_
  obtain ⟨p, rfl⟩ := hp.exists_resolve hn hq
  rw [← feed?_eq_none_iff hp.after]
  cases hf : h.feed? ⟨n.id, i⟩ with
  | none => simp [Port.resolve, Port.reset]
  | some p' =>
    obtain ⟨m, hm, hp'⟩ := mem_of_feed? hf
    simpa [Port.resolve] using hfull m hm p' hp'

/-- A pass over regular nodes that fills with zeros leaves nothing open that could be supplied. -/
theorem supplied [TypedKernels κ] (hp : Passed settings g h r verdict base top)
    (hfill : settings.zeroFill = true) (ht : ∀ m ∈ g.nodes, m.Traced T)
    (hg : ∀ m ∈ g.nodes, m.Regular)
    (hone : ∀ k : κ, ∀ p ∈ (Kernel.layout k).outputs, ∃ kind, p.accepted = .single kind) :
    h.Supplied r := by
  have hfull : ∀ m ∈ h.nodes, ∀ p ∈ m.outputs, p.value ≠ none := by
    intro m hm p hpm hnone
    obtain ⟨kind, hkind⟩ := (hp.regular hg m hm).made.exists_emits? (hone m.kernel) hpm
    rw [hp.emits?_of_empty hfill ht hm p hpm hnone] at hkind
    cases hkind
  have hfirst : ∀ n ∈ h.nodes, ∀ i name, (n.id, .missingInput i name) ∈ r.failures ↔
      IsLeast {j | h.Open n j} i ∧ ∃ p, n.inputs[i]? = some p ∧ p.name = name := by
    intro n hn i name
    have hopen : {j | h.Open n j} = {j | n.Empty j} :=
      Set.ext fun j => (hp.empty_iff_open hfull hn).symm
    rw [hopen]
    obtain ⟨m, hm, hid, rfl⟩ := hp.exists_turned hn
    rw [hid, hp.mem_failures hm, Verdict.error?_eq_some_iff, hp.verdict_eq hm,
      (hp.regular_fed hg hm).judge_eq_missing_iff]
    simp only [Node.Empty, inputs_turned]
  refine ⟨hfull, fun n hn => ⟨?_, fun hopen => ?_⟩, hfirst⟩
  · rintro ⟨i, name, hf⟩
    exact ⟨i, ((hfirst n hn i name).mp hf).1.1⟩
  · -- of the open inputs there is a first
    classical
    have hleast : IsLeast {j | h.Open n j} (Nat.find hopen) :=
      ⟨Nat.find_spec hopen, fun j hj => Nat.find_min' hopen hj⟩
    obtain ⟨p, hp, -⟩ := hleast.1
    exact ⟨_, p.name, (hfirst n hn _ _).mpr ⟨hleast, p, hp, rfl⟩⟩

end Passed

end Graph

/-! ## Sessions of the catalogue -/

/-- Every output of the catalogue declares one kind. -/
theorem Builtin.exists_single (k : Builtin) :
    ∀ p ∈ (Kernel.layout k).outputs, ∃ kind, p.accepted = .single kind := by
  cases k <;> simp [Kernel.layout, layout, imageResult, componentNames, Port.output]

namespace Session

/-- After every pass that fills with zeros over a graph of a session of the catalogue, whatever the
edits and the settings of earlier passes, every output holds a value, and a node fails for a missing
input exactly if it has an input to which nothing is connected and that has nothing to fall back on.
The input that is named is the first such. -/
theorem evaluate_supplied (name : String) (es : List (Edit Builtin)) {settings : Settings}
    (hfill : settings.zeroFill = true) {g h : Graph Builtin} {r : Report}
    (hg : g ∈ ((start name).run es).graphs) (he : g.evaluate settings = .ok (h, r)) :
    h.Supplied r := by
  have hk := (Kept.start name).run fun e (_ : e ∈ es) => Builtin.blank e
  have hregular := (Everywhere.start name).regular_run (.start name) es
  obtain ⟨verdict, base, top, hp⟩ := Graph.evaluate_spec (hk.wellFormed.graphs g hg) he
  exact hp.supplied hfill (hk.traced.graphs g hg) (hregular.graphs g hg) Builtin.exists_single

/-- Nothing feeds an output, which feeds one of two images that are mixed and inverted. A pass is
run that does not fill. -/
def lacking : List (Edit Builtin) := [
  .add (.ofKernel .imageOutput), .add (.ofKernel (.mix .mix)), .add (.ofKernel .invert),
  .connect ⟨2, 0⟩ ⟨4, 0⟩, .connect ⟨4, 0⟩ ⟨6, 0⟩,
  .evaluate { Settings.standard with zeroFill := false }]

/-- The first pass leaves the mixture without its first image. The second one fills the output, so
what is missing is the second image, and the inversion computes. -/
theorem evaluate_supplied_lacking : ∃ g ∈ ((start "lacking").run lacking).graphs, ∃ h r,
    g.nodes.map (fun n => n.error) = [some (.missingInput 0 "Image"), some (.missingInput 0 "A"),
      some (.missingInput 0 "Image")] ∧
    Settings.standard.zeroFill = true ∧ g.evaluate .standard = .ok (h, r) ∧
    r.failures = [(2, .missingInput 0 "Image"), (4, .missingInput 1 "B")] ∧ r.computed = [6] ∧
    h.Supplied r := by
  have hw : ((start "lacking").run lacking).WellFormed := wellFormed_run (.start _) _
  have hread : (((start "lacking").run lacking).graph.evaluate .standard).toOption.map
      (fun gr => (gr.2.failures, gr.2.computed)) =
        some ([(2, .missingInput 0 "Image"), (4, .missingInput 1 "B")], [6]) := by
    decide +kernel
  obtain ⟨h, r, he, hr⟩ := Graph.exists_of_evaluate hread
  obtain ⟨hfailures, hcomputed⟩ := Prod.mk.inj hr
  exact ⟨_, hw.graph_mem, h, r, by decide +kernel, rfl, he, hfailures, hcomputed,
    evaluate_supplied "lacking" lacking rfl hw.graph_mem he⟩

end Session

end TextureFlow
