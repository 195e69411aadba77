import Mathlib
import TextureFlow.Proofs.Building
import TextureFlow.Proofs.Connecting
import TextureFlow.Proofs.Writing

/-!
# What a new node is given

A node of a script is a new one of its kind that is given its parameters and then its fallbacks, one
after the other. Whether it takes one of them does not depend on what it was given before, so all of
them are taken exactly if each would be taken by a new node. What is listed for a parameter or an
input is then what the node has, and everything else is as on a new node.

* `NodeSpec.exists_create_iff`: which nodes of scripts can be created;
* `NodeSpec.restored_create`: what a node that was created looks like.
-/

namespace TextureFlow

/-! ## Listed values -/

/-- The value that entries list for a key. -/
def listed? {κ α : Type} [DecidableEq κ] (es : List (κ × α)) (key : κ) : Option α :=
  (es.find? fun e => e.1 = key).map Prod.snd

section

variable {κ α : Type} [DecidableEq κ] {key other : κ} {x : α} {es : List (κ × α)}

theorem listed?_cons : listed? ((key, x) :: es) other =
    if key = other then some x else listed? es other := by
  by_cases h : key = other <;> simp [listed?, h]

theorem listed?_eq_none (h : key ∉ es.map Prod.fst) : listed? es key = none := by
  rw [listed?, Option.map_eq_none_iff, List.find?_eq_none]
  intro e he
  simpa using fun hkey : e.1 = key => h (hkey ▸ List.mem_map_of_mem he)

end

/-! ## Parameters -/

namespace Builtin

/-- Which values a kernel takes does not depend on those it was given before. -/
theorem Sets.accepts {k k' : Builtin} {name : String} {v : ParamValue} (h : Sets k name v k')
    (other : String) (w : ParamValue) : (∃ m, Sets k' other w m) ↔ ∃ m, Sets k other w m := by
  cases h with
  | vector same =>
    constructor
    · rintro ⟨m, hm⟩
      cases hm with
      | vector hsame => exact ⟨_, .vector (hsame.trans same)⟩
    · rintro ⟨m, hm⟩
      cases hm with
      | vector hsame => exact ⟨_, .vector (hsame.trans same.symm)⟩
  | _ =>
    -- the same rule applies, for no check reads a value that can be set
    constructor <;>
    · rintro ⟨m, hm⟩
      cases hm <;> exact ⟨_, by constructor; try assumption⟩

end Builtin

namespace Node

section

variable {n m : Node Builtin} {es : List (String × ParamValue)}

theorem exists_setParameter_iff {name : String} {v : ParamValue} :
    (∃ m, n.setParameter name v = .ok m) ↔ ∃ k, Builtin.Sets n.kernel name v k := by
  constructor
  · rintro ⟨m, hm⟩
    obtain ⟨k, hk, -⟩ := setParameter_eq_ok_iff.mp hm
    exact ⟨k, Builtin.sets_of_setParameter hk⟩
  · rintro ⟨k, hk⟩
    exact ⟨_, setParameter_eq_ok_iff.mpr ⟨k, hk.setParameter, rfl⟩⟩

/-- Listed parameters are taken exactly if each of them is. -/
theorem exists_parameters_iff : (∃ m, es.foldlM (fun n e => n.setParameter e.1 e.2) n = .ok m) ↔
    ∀ e ∈ es, ∃ m, n.setParameter e.1 e.2 = .ok m := by
  refine exists_foldlM_iff (I := fun m : Node Builtin => ∀ name v,
    (∃ m₁, m.setParameter name v = .ok m₁) ↔ ∃ m₁, n.setParameter name v = .ok m₁)
    (fun m e hm => hm e.1 e.2) ?keep (fun _ _ => Iff.rfl) es
  intro s t e hs hstep name v
  obtain ⟨k, hk, rfl⟩ := setParameter_eq_ok_iff.mp hstep
  rw [← hs, exists_setParameter_iff, exists_setParameter_iff]
  exact (Builtin.sets_of_setParameter hk).accepts name v

/-- Listed parameters replace the values of the kernel, which stays what it is otherwise. -/
theorem parameters_eq_ok (hes : (es.map Prod.fst).Nodup) (hmemo : n.memo = none)
    (h : es.foldlM (fun n e => n.setParameter e.1 e.2) n = .ok m) :
    m.kernel.kind = n.kernel.kind ∧
    (m.kernel.parameters = n.kernel.parameters.map fun e => (e.1, (listed? es e.1).getD e.2)) ∧
    m = { n with kernel := m.kernel } := by
  induction es generalizing n with
  | nil =>
    obtain rfl := Except.ok.inj h
    exact ⟨rfl, (List.map_id _).symm, rfl⟩
  | cons e es ih =>
    obtain ⟨name, v⟩ := e
    obtain ⟨hname, hes⟩ := List.nodup_cons.mp hes
    rw [List.foldlM_cons] at h
    obtain ⟨t, ht, hrest⟩ := bind_eq_ok_iff.mp h
    obtain ⟨k, hk, rfl⟩ := setParameter_eq_ok_iff.mp ht
    have hsets := Builtin.sets_of_setParameter hk
    obtain ⟨hkind, hparameters, hm⟩ := ih hes rfl hrest
    refine ⟨hkind.trans hsets.kind, ?_, ?_⟩
    · -- what is set first is not set again
      rw [hparameters, hsets.parameters.2, List.map_map]
      refine List.map_congr_left fun e _ => ?_
      by_cases he : e.1 = name
      · simp [he, listed?_cons, listed?_eq_none hname]
      · simp [he, listed?_cons, Ne.symm he]
    · rw [hm, hmemo]

end

/-! ## Fallbacks -/

section

variable {κ : Type} {n m : Node κ} {es : List (Nat × Value)}

/-- An input takes a fallback of a kind that it accepts. -/
theorem exists_setFallback_iff {index : Nat} {v : Value} :
    (∃ m, n.setFallback index v = .ok m) ↔ n.Accepts index v.kind := by
  unfold setFallback Accepts
  cases n.inputs[index]? with
  | none => simp
  | some p => by_cases ha : p.accepts v.kind = true <;> simp [ha]

/-- Listed fallbacks are taken exactly if each of them is. -/
theorem exists_fallbacks_iff [Kernel κ] :
    (∃ m, es.foldlM (fun n e => n.setFallback e.1 e.2) n = .ok m) ↔
      ∀ e ∈ es, n.Accepts e.1 e.2.kind := by
  -- what inputs accept stands in the frame, and no fallback changes that
  refine exists_foldlM_iff (I := fun m : Node κ => m.frame = n.frame) (fun m e hm => ?_)
    (fun m m₁ e hm h => (frame_apply (e := .fallback e.1 e.2) h).trans hm) rfl es
  have hinputs : m.inputs.map Port.face = n.inputs.map Port.face := congrArg Frame.inputs hm
  rw [exists_setFallback_iff, accepts_iff, accepts_iff, hinputs]

/-- An input that was never written shows its new fallback. -/
theorem setFallback_eq_ok (hmemo : n.memo = none) (hn : ∀ p ∈ n.inputs, p.generation = 0)
    {index : Nat} {v : Value} (h : n.setFallback index v = .ok m) :
    ∃ p, n.inputs[index]? = some p ∧
      m = { n with inputs := n.inputs.set index (p.withFallback v) } := by
  unfold setFallback at h
  split at h
  · cases h
  · next p hp =>
    have hzero : p.generation = 0 := hn p (List.mem_of_getElem? hp)
    split at h
    · cases h
      refine ⟨p, hp, ?_⟩
      simp [hzero, Port.reset, Port.withFallback, invalidate, hmemo]
    · cases h

/-- Without listed fallbacks inputs stay as they are. -/
theorem mapIdx_fallback_nil (ps : List Port) :
    ps.mapIdx (fun i p => (listed? ([] : List (Nat × Value)) i).elim p p.withFallback) = ps := by
  refine List.ext_getElem? fun i => ?_
  rw [List.getElem?_mapIdx]
  exact Option.map_id'

/-- An input that is set first is not set again. -/
theorem mapIdx_set_fallback {ps : List Port} {index : Nat} {p : Port} (hp : ps[index]? = some p)
    (hindex : index ∉ es.map Prod.fst) (v : Value) :
    (ps.set index (p.withFallback v)).mapIdx
        (fun i p => (listed? es i).elim p p.withFallback) =
      ps.mapIdx fun i p => (listed? ((index, v) :: es) i).elim p p.withFallback := by
  refine List.ext_getElem? fun i => ?_
  rw [List.getElem?_mapIdx, List.getElem?_mapIdx, List.getElem?_set, listed?_cons]
  by_cases hi : index = i
  · subst hi
    have hlt : index < ps.length := (List.getElem?_eq_some_iff.mp hp).1
    rw [if_pos rfl, if_pos rfl, if_pos hlt, hp, Option.map_some, Option.map_some,
      listed?_eq_none hindex]
    rfl
  · rw [if_neg hi, if_neg hi]

/-- Listed fallbacks replace those of the inputs, and no input is written by that. -/
theorem fallbacks_eq_ok (hes : (es.map Prod.fst).Nodup) (hmemo : n.memo = none)
    (hn : ∀ p ∈ n.inputs, p.generation = 0)
    (h : es.foldlM (fun n e => n.setFallback e.1 e.2) n = .ok m) :
    m = { n with inputs := n.inputs.mapIdx fun i p => (listed? es i).elim p p.withFallback } := by
  induction es generalizing n with
  | nil =>
    obtain rfl := Except.ok.inj h
    exact congrArg (fun inputs => { n with inputs }) (mapIdx_fallback_nil n.inputs).symm
  | cons e es ih =>
    obtain ⟨index, v⟩ := e
    obtain ⟨hindex, hes⟩ := List.nodup_cons.mp hes
    rw [List.foldlM_cons] at h
    obtain ⟨t, ht, hrest⟩ := bind_eq_ok_iff.mp h
    obtain ⟨p, hp, rfl⟩ := setFallback_eq_ok hmemo hn ht
    have hzero : ∀ q ∈ n.inputs.set index (p.withFallback v), q.generation = 0 := by
      intro q hq
      rcases List.mem_or_eq_of_mem_set hq with hq | rfl
      · exact hn q hq
      · exact hn p (List.mem_of_getElem? hp)
    have hm := ih (n := { n with inputs := n.inputs.set index (p.withFallback v) }) hes hmemo hzero
      hrest
    rw [hm, mapIdx_set_fallback hp hindex]

end

end Node

/-! ## New nodes -/

/-- The inputs of a new node of the catalogue were never written. -/
theorem Builtin.generation_node (d : Draft Builtin) (id : NodeId) :
    ∀ p ∈ (d.node id).inputs, p.generation = 0 :=
  fun p hp => Nat.le_zero.mp ((Node.upTo_draft (unstamped_draft d) id 0).inputs p hp)

/-- A new kernel is of the kind that it stands for in the registry. -/
theorem Builtin.kind_of_draft? {kind : String} {d : Draft Builtin}
    (h : registry.draft? kind = some d) : d.kernel.kind = kind := by
  obtain ⟨e, he, rfl⟩ := Option.map_eq_some_iff.mp h
  have hall : ∀ e ∈ registry.entries, e.kernel.kind = e.id := by
    decide
  have hid : e.id = kind := by simpa using List.find?_some he
  exact (hall e (List.mem_of_find?_eq_some he)).trans hid

namespace NodeSpec

/-- The node that is given the parameters and fallbacks of a script: a new one with another name
and perhaps another strategy. -/
theorem node_draft {κ : Type} [Kernel κ] (spec : NodeSpec) (d : Draft κ) (id : NodeId) :
    (spec.draft d).node id = { d.node 0 with
      id
      name := spec.key
      strategy := spec.strategy.getD (d.node 0).strategy } := by
  obtain ⟨kernel, name, strategy⟩ := d
  obtain ⟨key, kind, own, parameters, fallbacks⟩ := spec
  cases name <;> cases strategy <;> cases own <;> rfl

/-- A part of a script describes a node: its kind is registered, and a new node of the kind takes
each of the parameters and fallbacks. -/
def Acceptable (spec : NodeSpec) : Prop :=
  ∃ d, Builtin.registry.draft? spec.kind = some d ∧
    (∀ e ∈ spec.parameters.entries, ∃ n, (d.node 0).setParameter e.1 e.2 = .ok n) ∧
    ∀ e ∈ spec.fallbacks.entries, ∃ n, (d.node 0).setFallback e.1 e.2 = .ok n

/-- A node is what a part of a script describes: a new one of its kind with the name and, where
they are given, the strategy, the parameters and the fallbacks of the script. -/
structure Restored (spec : NodeSpec) (n : Node Builtin) (d : Draft Builtin) : Prop where
  fresh : Builtin.registry.draft? spec.kind = some d
  kind : n.kernel.kind = spec.kind
  parameters : n.kernel.parameters =
    d.kernel.parameters.map fun e => (e.1, (spec.parameters.find? e.1).getD e.2)
  node : n = { d.node 0 with
    id := n.id
    name := spec.key
    strategy := spec.strategy.getD (d.node 0).strategy
    kernel := n.kernel
    inputs := (d.node 0).inputs.mapIdx fun i p => (spec.fallbacks.find? i).elim p p.withFallback }

variable {spec : NodeSpec} {id : NodeId} {n m : Node Builtin}

/-- Parameters and fallbacks are taken exactly if each of them is. -/
theorem exists_edits_iff :
    (∃ m, spec.edits.foldlM (fun n (e : NodeEdit) => e.apply n) n = .ok m) ↔
      (∀ e ∈ spec.parameters.entries, ∃ m, n.setParameter e.1 e.2 = .ok m) ∧
      ∀ e ∈ spec.fallbacks.entries, ∃ m, n.setFallback e.1 e.2 = .ok m := by
  have hinputs {m : Node Builtin}
      (h : spec.parameters.entries.foldlM (fun n e => n.setParameter e.1 e.2) n = .ok m) :
      m.inputs = n.inputs :=
    foldlM_keep (I := fun m : Node Builtin => m.inputs = n.inputs)
      (fun _ _ _ _ hs ht => (Node.ports_setParameter ht).2.1.trans hs) rfl h
  simp only [foldlM_edits_eq_ok_iff, Node.exists_setFallback_iff]
  constructor
  · rintro ⟨k, m, hm, hk⟩
    refine ⟨Node.exists_parameters_iff.mp ⟨m, hm⟩, fun e he => ?_⟩
    have haccepts := Node.exists_fallbacks_iff.mp ⟨k, hk⟩ e he
    rwa [Node.Accepts, hinputs hm] at haccepts
  · rintro ⟨hparameters, hfallbacks⟩
    obtain ⟨m, hm⟩ := Node.exists_parameters_iff.mpr hparameters
    have haccepts : ∀ e ∈ spec.fallbacks.entries, m.Accepts e.1 e.2.kind := by
      intro e he
      rw [Node.Accepts, hinputs hm]
      exact hfallbacks e he
    obtain ⟨k, hk⟩ := Node.exists_fallbacks_iff.mpr haccepts
    exact ⟨k, m, hm, hk⟩

/-- Which nodes of scripts can be created. -/
theorem exists_create_iff :
    (∃ n, spec.create Builtin.registry id = .ok n) ↔ spec.Acceptable := by
  -- neither name nor strategy matters for what is taken
  have hsame (d : Draft Builtin) : (∃ n, spec.edits.foldlM (fun n (e : NodeEdit) => e.apply n)
      ((spec.draft d).node id) = .ok n) ↔
      (∀ e ∈ spec.parameters.entries, ∃ n, (d.node 0).setParameter e.1 e.2 = .ok n) ∧
      ∀ e ∈ spec.fallbacks.entries, ∃ n, (d.node 0).setFallback e.1 e.2 = .ok n := by
    rw [exists_edits_iff, node_draft]
    simp only [Node.exists_setParameter_iff, Node.exists_setFallback_iff, Node.Accepts]
  simp only [create_eq_ok_iff, Acceptable, ← hsame]
  constructor
  · rintro ⟨n, d, hd, h⟩
    exact ⟨d, hd, n, h⟩
  · rintro ⟨d, hd, n, h⟩
    exact ⟨n, d, hd, h⟩

/-- What parameters and fallbacks leave of a node that was never edited. -/
theorem edits_eq_ok (hmemo : n.memo = none) (hn : ∀ p ∈ n.inputs, p.generation = 0)
    (h : spec.edits.foldlM (fun n (e : NodeEdit) => e.apply n) n = .ok m) :
    m.kernel.kind = n.kernel.kind ∧
    (m.kernel.parameters =
      n.kernel.parameters.map fun e => (e.1, (spec.parameters.find? e.1).getD e.2)) ∧
    m = { n with
      kernel := m.kernel
      inputs := n.inputs.mapIdx fun i p => (spec.fallbacks.find? i).elim p p.withFallback } := by
  obtain ⟨t, hparameters, hfallbacks⟩ := foldlM_edits_eq_ok_iff.mp h
  obtain ⟨hkind, hlisted, ht⟩ := Node.parameters_eq_ok spec.parameters.nodup hmemo hparameters
  have hm := Node.fallbacks_eq_ok spec.fallbacks.nodup (ht ▸ hmemo) (ht ▸ hn) hfallbacks
  have hkernel : m.kernel = t.kernel := by rw [hm]
  refine ⟨hkernel ▸ hkind, hkernel ▸ hlisted, ?_⟩
  rw [hkernel, hm, ht]
  rfl

/-- What a node that was created looks like, under whichever number it is added. -/
theorem restored_create (h : spec.create Builtin.registry id = .ok n) (new : NodeId) :
    ∃ d, spec.Restored { n with id := new } d := by
  obtain ⟨d, hd, hedits⟩ := create_eq_ok_iff.mp h
  rw [node_draft] at hedits
  obtain ⟨name, strategy, hnode⟩ := Node.exists_node_eq d 0
  have hmemo : (d.node 0).memo = none := by rw [hnode]; rfl
  have hkernel : (d.node 0).kernel = d.kernel := by rw [hnode]; rfl
  obtain ⟨hkind, hparameters, hn⟩ :=
    edits_eq_ok (by exact hmemo) (by exact Builtin.generation_node d 0) hedits
  refine ⟨d, hd, ?kind, ?parameters, ?node⟩
  case kind => rw [← Builtin.kind_of_draft? hd, ← hkernel]; exact hkind
  case parameters => rw [← hkernel]; exact hparameters
  case node => exact congrArg (fun n : Node Builtin => { n with id := new }) hn

end NodeSpec

end TextureFlow
