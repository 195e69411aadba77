import Mathlib
import TextureFlow.Proofs.Refusal

/-!
# What a pass leaves

Inputs are copied one node at a time while outputs are still being written. Since no connection
leads backwards in the order and every node has one turn, the output that feeds an input was written
before the input is resolved and is not written again. So a pass may be described by its end alone:
every node is what it makes of the outputs that feed it *after* the pass.

* `Graph.runNodes_spec`: this description, `Ran`, of a run of nodes, by induction on the order;
* `Graph.evaluate_spec`: the same, `Passed`, of a pass and its report.
-/

namespace TextureFlow

/-! ## Reports -/

namespace Verdict

/-- Whether the node computed. -/
def isComputed : Verdict → Bool
  | .computed _ => true
  | _ => false

/-- Whether the node kept its outputs without an error. -/
def isReused : Verdict → Bool
  | .reused => true
  | _ => false

/-- Why the node failed. -/
def error? : Verdict → Option ComputeError
  | .failed e => some e
  | _ => none

theorem isComputed_iff {v : Verdict} : v.isComputed = true ↔ ∃ outs, v = .computed outs := by
  cases v <;> simp [isComputed]

theorem isReused_iff {v : Verdict} : v.isReused = true ↔ v = .reused := by
  cases v <;> simp [isReused]

theorem error?_eq_some_iff {v : Verdict} {e : ComputeError} :
    v.error? = some e ↔ v = .failed e := by
  cases v <;> simp [error?]

end Verdict

namespace Report

/-- The report after the verdicts on listed nodes. -/
def recordAll (verdict : NodeId → Verdict) (order : List NodeId) (r : Report) : Report :=
  order.foldl (fun r id => r.record id (verdict id)) r

theorem recordAll_eq (verdict : NodeId → Verdict) (order : List NodeId) (r : Report) :
    r.recordAll verdict order =
      ⟨r.order, r.computed ++ order.filter fun id => (verdict id).isComputed,
        r.reused ++ order.filter fun id => (verdict id).isReused,
        r.failures ++ order.filterMap fun id => (verdict id).error?.map fun e => (id, e)⟩ := by
  induction order generalizing r with
  | nil => simp [recordAll]
  | cons id rest ih =>
    rw [recordAll, List.foldl_cons, ← recordAll, ih]
    cases hv : verdict id <;>
      simp [record, hv, Verdict.isComputed, Verdict.isReused, Verdict.error?]

theorem recordAll_congr {verdict verdict' : NodeId → Verdict} {order : List NodeId}
    (h : ∀ id ∈ order, verdict id = verdict' id) (r : Report) :
    r.recordAll verdict order = r.recordAll verdict' order := by
  induction order generalizing r with
  | nil => rfl
  | cons id rest ih =>
    rw [recordAll, recordAll, List.foldl_cons, List.foldl_cons, h id List.mem_cons_self]
    exact ih (fun v hv => h v (List.mem_cons_of_mem _ hv)) _

end Report

namespace Graph

variable {κ : Type}

/-! ## One turn -/

/-- A node with the values of the outputs that feed it in a graph. -/
def fed (g : Graph κ) (n : Node κ) : Node κ :=
  n.resolve fun input => g.feed? ⟨n.id, input⟩

theorem connectionTo?_congr {g h : Graph κ} (hc : h.connections = g.connections)
    (target : InputPlace) : h.connectionTo? target = g.connectionTo? target := by
  rw [connectionTo?, hc, connectionTo?]

theorem leads_of_connectionTo? {g : Graph κ} {target : InputPlace} {c : Connection}
    (hf : g.connectionTo? target = some c) : g.Leads c.source.node target.node := by
  obtain ⟨hc, rfl⟩ := mem_of_connectionTo? hf
  exact ⟨c, hc, rfl, rfl⟩

/-- What feeds an input is an output of a node. -/
theorem mem_of_feed? {g : Graph κ} {target : InputPlace} {q : Port}
    (hq : g.feed? target = some q) : ∃ n ∈ g.nodes, q ∈ n.outputs := by
  obtain ⟨c, -, hc⟩ := Option.bind_eq_some_iff.mp hq
  obtain ⟨n, hn, hq⟩ := Option.bind_eq_some_iff.mp hc
  exact ⟨n, (mem_of_node? hn).1, List.mem_of_getElem? hq⟩

/-- Where the feeding nodes are the same, the same output feeds an input. -/
theorem feed?_congr {g h : Graph κ} (hc : h.connections = g.connections) {target : InputPlace}
    (hn : ∀ u, g.Leads u target.node → h.node? u = g.node? u) :
    h.feed? target = g.feed? target := by
  rw [feed?, connectionTo?_congr hc, feed?]
  cases hf : g.connectionTo? target with
  | none => rfl
  | some c => rw [Option.bind_some, Option.bind_some, hn _ (leads_of_connectionTo? hf)]

/-- Where the outputs of the feeding nodes are related, what feeds an input is related. -/
theorem feed?_rel {R : Port → Port → Prop} {g h : Graph κ} {target : InputPlace}
    (hto : h.connectionTo? target = g.connectionTo? target)
    (hn : ∀ u, g.Leads u target.node → ∃ n m, g.node? u = some n ∧ h.node? u = some m ∧
      List.Forall₂ R n.outputs m.outputs) :
    Option.Rel R (g.feed? target) (h.feed? target) := by
  rw [feed?, feed?, hto]
  cases hf : g.connectionTo? target with
  | none => exact .none
  | some c =>
    obtain ⟨n, m, hgn, hhm, houtputs⟩ := hn c.source.node (leads_of_connectionTo? hf)
    rw [Option.bind_some, Option.bind_some, hgn, hhm, Option.bind_some, Option.bind_some]
    obtain ⟨hl, hports⟩ := List.forall₂_iff_get.mp houtputs
    by_cases hi : c.source.output < n.outputs.length
    · rw [List.getElem?_eq_getElem hi, List.getElem?_eq_getElem (hl ▸ hi)]
      exact .some (hports _ hi (hl ▸ hi))
    · rw [List.getElem?_eq_none (not_lt.mp hi), List.getElem?_eq_none (hl ▸ not_lt.mp hi)]
      exact .none

/-- A node is fed alike where the nodes that feed it are the same. -/
theorem fed_congr {g h : Graph κ} (hc : h.connections = g.connections) {n : Node κ}
    (hn : ∀ u, g.Leads u n.id → h.node? u = g.node? u) : h.fed n = g.fed n := by
  rw [fed, fed]
  congr 1
  funext input
  exact feed?_congr hc hn

variable [Kernel κ]

/-- A turn changes the node that has it and no other. -/
theorem node?_runNode_of_ne (settings : Settings) (g : Graph κ) {n : Node κ} {id : NodeId}
    (h : id ≠ n.id) : (g.runNode settings n).1.node? id = g.node? id := by
  refine (node?_setNode_of_ne g ?_ :)
  rwa [Node.id_conclude]

theorem node?_runNode_self (settings : Settings) {g : Graph κ} {n : Node κ} (h : n.id ∈ g.ids) :
    (g.runNode settings n).1.node? n.id =
      some ((g.fed n).conclude settings.zeroFill g.revision
        ((g.fed n).runs settings.memoization) ((g.fed n).judge settings.memoization)) := by
  have := node?_setNode_self (g := g) (n := (g.fed n).conclude settings.zeroFill g.revision
    ((g.fed n).runs settings.memoization) ((g.fed n).judge settings.memoization))
    (by rwa [Node.id_conclude])
  rwa [Node.id_conclude] at this

theorem revision_runNode (settings : Settings) (g : Graph κ) (n : Node κ) :
    (g.runNode settings n).1.revision =
      g.revision + (g.fed n).stamps settings.zeroFill ((g.fed n).judge settings.memoization) := rfl

/-! ## A run of nodes -/

/-- What a graph holds of a node after a turn that began at a revision, said by what the node is fed
in that graph. -/
def turned (settings : Settings) (h : Graph κ) (revision : Nat) (n : Node κ) : Node κ :=
  (h.fed n).conclude settings.zeroFill revision ((h.fed n).runs settings.memoization)
    ((h.fed n).judge settings.memoization)

theorem frame_turned (settings : Settings) (h : Graph κ) (revision : Nat) (n : Node κ) :
    (h.turned settings revision n).frame = n.frame :=
  (Node.frame_conclude ..).trans (Node.frame_resolve ..)

theorem inputs_turned (settings : Settings) (h : Graph κ) (revision : Nat) (n : Node κ) :
    (h.turned settings revision n).inputs = (h.fed n).inputs :=
  Node.inputs_conclude ..

/-- A run of the nodes of an order from `g` to `h`, described by its end. The turn of a node takes
the generations from `base` to `top`. -/
structure Ran (settings : Settings) (order : List NodeId) (g h : Graph κ)
    (verdict : NodeId → Verdict) (base top : NodeId → Nat) : Prop where
  connections : h.connections = g.connections
  others : ∀ id, id ∉ order → h.node? id = g.node? id
  verdict_eq : ∀ n, n.id ∈ order → g.node? n.id = some n →
    verdict n.id = (h.fed n).judge settings.memoization
  node_eq : ∀ n, n.id ∈ order → g.node? n.id = some n →
    h.node? n.id = some (h.turned settings (base n.id) n)
  top_eq : ∀ n, n.id ∈ order → g.node? n.id = some n →
    top n.id = base n.id + (h.fed n).stamps settings.zeroFill (verdict n.id)
  forward : g.revision ≤ h.revision
  within : ∀ id ∈ order, g.revision ≤ base id ∧ top id ≤ h.revision
  apart : order.Pairwise fun u v => top u ≤ base v

/-- A turn and the run of the rest are a run. Where the rest leaves the feeding nodes alone, what
the node was fed at its turn is what it is fed at the end. -/
theorem Ran.cons {settings : Settings} {n : Node κ} {rest : List NodeId} {g h : Graph κ}
    {verdict : NodeId → Verdict} {base top : NodeId → Nat} (hn : g.node? n.id = some n)
    (hid : n.id ∉ rest) (hfed : h.fed n = g.fed n)
    (hr : Ran settings rest (g.runNode settings n).1 h verdict base top) :
    Ran settings (n.id :: rest) g h
      (Function.update verdict n.id ((g.fed n).judge settings.memoization))
      (Function.update base n.id g.revision)
      (Function.update top n.id (g.runNode settings n).1.revision) := by
  have hle : g.revision ≤ (g.runNode settings n).1.revision := Nat.le_add_right _ _
  -- a node of the order is the one at hand or has its turn later
  have hcases : ∀ m : Node κ, m.id ∈ n.id :: rest → g.node? m.id = some m →
      m = n ∨ m.id ≠ n.id ∧ m.id ∈ rest ∧ (g.runNode settings n).1.node? m.id = some m := by
    intro m hm hgm
    by_cases he : m.id = n.id
    · exact .inl (Option.some.inj (hgm.symm.trans (he ▸ hn)))
    · exact .inr ⟨he, (List.mem_cons.mp hm).resolve_left he,
        (node?_runNode_of_ne settings g he).trans hgm⟩
  constructor
  case connections => exact hr.connections.trans (connections_runNode settings g n)
  case others =>
    intro v hv
    have hv : v ≠ n.id ∧ v ∉ rest := by simpa using hv
    rw [hr.others v hv.2, node?_runNode_of_ne settings g hv.1]
  case verdict_eq =>
    intro m hm hgm
    obtain rfl | ⟨he, hmr, hm⟩ := hcases m hm hgm
    · rw [Function.update_self, hfed]
    · rw [Function.update_of_ne he, hr.verdict_eq m hmr hm]
  case node_eq =>
    intro m hm hgm
    obtain rfl | ⟨he, hmr, hm⟩ := hcases m hm hgm
    · rw [Function.update_self, turned, hfed, hr.others _ hid,
        node?_runNode_self settings (node?_isSome_iff.mp ⟨m, hn⟩)]
    · rw [Function.update_of_ne he, hr.node_eq m hmr hm]
  case top_eq =>
    intro m hm hgm
    obtain rfl | ⟨he, hmr, hm⟩ := hcases m hm hgm
    · rw [Function.update_self, Function.update_self, Function.update_self, hfed,
        revision_runNode]
    · rw [Function.update_of_ne he, Function.update_of_ne he, Function.update_of_ne he,
        hr.top_eq m hmr hm]
  case forward => exact hle.trans hr.forward
  case within =>
    intro v hv
    by_cases he : v = n.id
    · subst he
      rw [Function.update_self, Function.update_self]
      exact ⟨le_rfl, hr.forward⟩
    · rw [Function.update_of_ne he, Function.update_of_ne he]
      obtain ⟨h1, h2⟩ := hr.within v ((List.mem_cons.mp hv).resolve_left he)
      exact ⟨hle.trans h1, h2⟩
  case apart =>
    -- every later turn starts from a revision that this one has reached
    have hne : ∀ v ∈ rest, v ≠ n.id := by
      rintro v hv rfl
      exact hid hv
    refine List.pairwise_cons.mpr ⟨fun v hv => ?_, hr.apart.imp_of_mem fun hu hv huv => ?_⟩
    · rw [Function.update_self, Function.update_of_ne (hne v hv)]
      exact (hr.within v hv).1
    · rwa [Function.update_of_ne (hne _ hu), Function.update_of_ne (hne _ hv)]

/-- Runs of nodes in an order in which no connection leads backwards are described by their end. -/
theorem runNodes_spec (settings : Settings) {order : List NodeId} {g : Graph κ} (r : Report)
    (hd : g.ids.Nodup) (hn : order.Nodup) (hk : ∀ id ∈ order, id ∈ g.ids)
    (hf : order.Pairwise fun u v => ¬ g.Leads v u) (hs : ∀ v ∈ order, ¬ g.Leads v v) :
    ∃ verdict base top h, runNodes settings order (g, r) = (h, r.recordAll verdict order) ∧
      Ran settings order g h verdict base top := by
  induction order generalizing g r with
  | nil =>
    refine ⟨fun _ => .reused, fun _ => 0, fun _ => 0, g, rfl, rfl, fun _ _ => rfl, ?_, ?_, ?_,
      le_rfl, ?_, .nil⟩
    all_goals exact fun _ hm => absurd hm List.not_mem_nil
  | cons id rest ih =>
    obtain ⟨hid, hrest⟩ := List.nodup_cons.mp hn
    obtain ⟨hfid, hfrest⟩ := List.pairwise_cons.mp hf
    obtain ⟨n, hgn⟩ := node?_isSome_iff.mpr (hk id List.mem_cons_self)
    obtain ⟨hnm, rfl⟩ := mem_of_node? hgn
    have hids : (g.runNode settings n).1.ids = g.ids := by
      rw [ids_eq_map_frames, frames_runNode settings hd hnm, ← ids_eq_map_frames]
    obtain ⟨verdict, base, top, h, hrun, hr⟩ := ih
      (g := (g.runNode settings n).1) (r.record n.id (g.runNode settings n).2) (hids ▸ hd) hrest
      (fun v hv => hids ▸ hk v (List.mem_cons_of_mem _ hv)) hfrest
      fun v hv => hs v (List.mem_cons_of_mem _ hv)
    -- the nodes that feed this one have had their turn or are not in the order
    have hfed : h.fed n = g.fed n := by
      refine fed_congr (hr.connections.trans (connections_runNode settings g n)) fun u hu => ?_
      have hne : u ≠ n.id := by
        rintro rfl
        exact hs _ List.mem_cons_self hu
      rw [hr.others u fun hm => hfid u hm hu, node?_runNode_of_ne settings g hne]
    refine ⟨_, _, _, h, ?_, hr.cons hgn hid hfed⟩
    rw [runNodes, hgn]
    refine hrun.trans (congrArg (Prod.mk h) ?_)
    rw [Report.recordAll, Report.recordAll, List.foldl_cons, Function.update_self,
      ← Report.recordAll, ← Report.recordAll]
    -- the verdict on this node was set apart, which no later node sees
    refine Report.recordAll_congr (fun v hv => (Function.update_of_ne ?_ ..).symm) _
    rintro rfl
    exact hid hv

/-! ## A pass -/

/-- What a pass leaves: it runs every node once, in an order in which no connection leads
backwards. -/
structure Passed (settings : Settings) (g h : Graph κ) (r : Report) (verdict : NodeId → Verdict)
    (base top : NodeId → Nat) : Prop where
  before : g.WellFormed
  after : h.WellFormed
  frames : h.frames = g.frames
  ordered : g.topologicalOrder? = some r.order
  perm : r.order.Perm g.ids
  report : r = (Report.start r.order).recordAll verdict r.order
  ran : Ran settings r.order g.restarted h verdict base top

/-- A pass that succeeds is described by its end. -/
theorem evaluate_spec {settings : Settings} {g h : Graph κ} {r : Report} (hw : g.WellFormed)
    (he : g.evaluate settings = .ok (h, r)) :
    ∃ verdict base top, Passed settings g h r verdict base top := by
  obtain ⟨-, order, ho, hrun⟩ := evaluate_eq_ok he
  obtain ⟨hp, hperm⟩ := placed_of_topologicalOrder? hw ho
  have hw' := hw.of_frames (frames_restarted g) rfl
  have hids : g.restarted.ids = g.ids := by
    rw [ids_eq_map_frames, frames_restarted, ← ids_eq_map_frames]
  obtain ⟨verdict, base, top, h', hrun', hr⟩ := runNodes_spec settings (.start order)
    hw'.nodup hp.nodup (fun id hid => hids ▸ hp.known id hid) hp.forward
    fun v hv => hp.not_leads_self hv
  obtain ⟨rfl, rfl⟩ := Prod.mk.inj (hrun.symm.trans hrun')
  have hro : ((Report.start order).recordAll verdict order).order = order := by
    rw [Report.recordAll_eq]
    rfl
  refine ⟨verdict, base, top, ?_⟩
  constructor
  case before => exact hw
  case after => exact hw.evaluate he
  case frames => exact (frames_evaluate hw he).1
  case ordered =>
    rw [hro]
    exact ho
  case perm =>
    rw [hro]
    exact hperm
  case report => rw [hro]
  case ran =>
    rw [hro]
    exact hr

namespace Passed

variable {settings : Settings} {g h : Graph κ} {r : Report} {verdict : NodeId → Verdict}
  {base top : NodeId → Nat} {n : Node κ}

theorem connections (hp : Passed settings g h r verdict base top) :
    h.connections = g.connections :=
  hp.ran.connections

theorem ids (hp : Passed settings g h r verdict base top) : h.ids = g.ids := by
  rw [ids_eq_map_frames, hp.frames, ← ids_eq_map_frames]

theorem mem_order (hp : Passed settings g h r verdict base top) (hn : n ∈ g.nodes) :
    n.id ∈ r.order :=
  hp.perm.mem_iff.mpr (List.mem_map_of_mem hn)

/-- Every turn starts from a node without its old error. -/
theorem node?_restarted (hp : Passed settings g h r verdict base top) (hn : n ∈ g.nodes) :
    g.restarted.node? n.restart.id = some n.restart :=
  node?_of_mem (hp.before.of_frames (frames_restarted g) rfl).nodup (List.mem_map_of_mem hn)

theorem verdict_eq (hp : Passed settings g h r verdict base top) (hn : n ∈ g.nodes) :
    verdict n.id = (h.fed n.restart).judge settings.memoization :=
  hp.ran.verdict_eq n.restart (hp.mem_order (n := n) hn) (hp.node?_restarted hn)

theorem node_eq (hp : Passed settings g h r verdict base top) (hn : n ∈ g.nodes) :
    h.node? n.id = some (h.turned settings (base n.id) n.restart) :=
  hp.ran.node_eq n.restart (hp.mem_order (n := n) hn) (hp.node?_restarted hn)

theorem top_eq (hp : Passed settings g h r verdict base top) (hn : n ∈ g.nodes) :
    top n.id = base n.id + (h.fed n.restart).stamps settings.zeroFill (verdict n.id) :=
  hp.ran.top_eq n.restart (hp.mem_order (n := n) hn) (hp.node?_restarted hn)

/-- Every node after a pass is what became of one from before. -/
theorem exists_turned (hp : Passed settings g h r verdict base top) {m : Node κ}
    (hm : m ∈ h.nodes) :
    ∃ n ∈ g.nodes, m.id = n.id ∧ m = h.turned settings (base n.id) n.restart := by
  have hid : m.id ∈ g.ids := hp.ids ▸ List.mem_map_of_mem hm
  obtain ⟨n, hn, hnm⟩ := List.mem_map.mp hid
  have hnode := hp.node_eq hn
  rw [hnm, node?_of_mem hp.after.nodup hm] at hnode
  exact ⟨n, hn, hnm.symm, hnm ▸ Option.some.inj hnode⟩

/-- A node bears the error of its verdict. -/
theorem error_turned (hp : Passed settings g h r verdict base top) (hn : n ∈ g.nodes) :
    (h.turned settings (base n.id) n.restart).error = (verdict n.id).error? := by
  rw [hp.verdict_eq hn, turned]
  cases (h.fed n.restart).judge settings.memoization <;> rfl

theorem computed_eq (hp : Passed settings g h r verdict base top) :
    r.computed = r.order.filter fun id => (verdict id).isComputed := by
  conv_lhs => rw [hp.report, Report.recordAll_eq]
  exact List.nil_append _

theorem reused_eq (hp : Passed settings g h r verdict base top) :
    r.reused = r.order.filter fun id => (verdict id).isReused := by
  conv_lhs => rw [hp.report, Report.recordAll_eq]
  exact List.nil_append _

theorem failures_eq (hp : Passed settings g h r verdict base top) :
    r.failures = r.order.filterMap fun id => (verdict id).error?.map fun e => (id, e) := by
  conv_lhs => rw [hp.report, Report.recordAll_eq]
  exact List.nil_append _

theorem mem_computed (hp : Passed settings g h r verdict base top) (hn : n ∈ g.nodes) :
    n.id ∈ r.computed ↔ (verdict n.id).isComputed = true := by
  rw [hp.computed_eq, List.mem_filter, and_iff_right (hp.mem_order hn)]

theorem mem_reused (hp : Passed settings g h r verdict base top) (hn : n ∈ g.nodes) :
    n.id ∈ r.reused ↔ (verdict n.id).isReused = true := by
  rw [hp.reused_eq, List.mem_filter, and_iff_right (hp.mem_order hn)]

theorem mem_failures (hp : Passed settings g h r verdict base top) (hn : n ∈ g.nodes)
    {e : ComputeError} : (n.id, e) ∈ r.failures ↔ (verdict n.id).error? = some e := by
  rw [hp.failures_eq]
  simp [hp.mem_order hn]

/-- A node got through a pass if its verdict is no failure. -/
theorem done_iff (hp : Passed settings g h r verdict base top) (hn : n ∈ g.nodes) :
    n.id ∈ r.computed ∨ n.id ∈ r.reused ↔ (verdict n.id).error? = none := by
  rw [hp.mem_computed hn, hp.mem_reused hn]
  cases verdict n.id <;> simp [Verdict.isComputed, Verdict.isReused, Verdict.error?]

/-- A node that is reported as reused or failed is not reported as computed. -/
theorem not_mem_computed (hp : Passed settings g h r verdict base top) {id : NodeId}
    (hid : id ∈ r.reused ∨ ∃ e, (id, e) ∈ r.failures) : id ∉ r.computed := by
  rw [hp.reused_eq, hp.failures_eq] at hid
  rw [hp.computed_eq]
  cases hv : verdict id <;>
    simp [hv, Verdict.isComputed, Verdict.isReused, Verdict.error?] at hid ⊢

/-- A report tells of every node of the graph and of no other. -/
theorem mem_ids (hp : Passed settings g h r verdict base top) {id : NodeId} :
    id ∈ g.ids ↔ id ∈ r.computed ∨ id ∈ r.reused ∨ ∃ e, (id, e) ∈ r.failures := by
  rw [← hp.perm.mem_iff, hp.computed_eq, hp.reused_eq, hp.failures_eq]
  cases hv : verdict id <;>
    simp [hv, Verdict.isComputed, Verdict.isReused, Verdict.error?]

end Passed

end Graph

end TextureFlow
