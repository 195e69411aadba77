import Mathlib
import TextureFlow.Catalogue.Basic
import TextureFlow.Proofs.Fault

/-!
# The accounts of a pass

A pass puts every node of its order into one of three lists, and writes a state, an error, a count
and a memo down on the node. Both follow from the same verdict, so each can be read off the other.
The *bare* form of a node is what a pass has no business with: it forgets what ports hold, the
state, the error, the count and the memo, and nothing else.

* `Report.perm_recordAll`: every node stands in exactly one of the lists;
* `Node.runs_iff`: the kernel runs if every input is ready and the memo does not apply;
* `Graph.Passed.map_bare`: a pass leaves the bare form of every node alone;
* `Session.evaluate_accounted`: all of this for every graph of every session.
-/

namespace TextureFlow

/-! ## What a pass leaves alone -/

/-- A port without what it holds. -/
def Port.bare (p : Port) : Port :=
  { p with value := none, generation := 0 }

/-- A node without what a pass writes down on it. -/
def Node.bare {κ : Type} (n : Node κ) : Node κ :=
  { n with
    inputs := n.inputs.map Port.bare
    outputs := n.outputs.map Port.bare
    state := .pending
    error := none
    memo := none
    computeCount := 0 }

namespace Port

@[simp] theorem bare_write (p : Port) (v : Value) (generation : Nat) :
    (p.write v generation).bare = p.bare := rfl

@[simp] theorem bare_resolve (p : Port) (feed : Option Port) : (p.resolve feed).bare = p.bare := by
  cases feed <;> rfl

/-- All that is wanted of inputs is that each holds a value that it accepts. -/
theorem exists_gather_iff (index : Nat) (ports : List Port) :
    (∃ values, gather index ports = .ok values) ↔ ∀ p ∈ ports, p.Ready := by
  constructor
  · rintro ⟨values, hg⟩
    exact (gather_eq_ok_iff.mp hg).1
  · intro hready
    cases hg : gather index ports with
    | ok values => exact ⟨values, rfl⟩
    | error e =>
      obtain ⟨i, p, hp, -, hr⟩ := gather_eq_error_iff.mp hg
      -- the input that is refused is not ready
      obtain ⟨v, hv, ha⟩ := hready p (List.mem_of_getElem? hp)
      cases hr with
      | missing empty => rw [empty] at hv; cases hv
      | kind held strange =>
        rw [held] at hv
        obtain rfl := Option.some.inj hv
        rw [strange] at ha
        cases ha

end Port

namespace Node

variable {κ : Type} {n m : Node κ}

@[simp] theorem bare_restart (n : Node κ) : n.restart.bare = n.bare := rfl

@[simp] theorem bare_resolve (n : Node κ) (feed : Nat → Option Port) :
    (n.resolve feed).bare = n.bare := by
  have hinputs : (n.inputs.mapIdx fun index p => p.resolve (feed index)).map Port.bare =
      n.inputs.map Port.bare := by
    refine List.ext_getElem (by simp) fun i hi hi' => ?_
    rw [List.getElem_map, List.getElem_mapIdx, List.getElem_map, Port.bare_resolve]
  rw [bare, resolve, bare, hinputs]

@[simp] theorem bare_conclude (zeroFill : Bool) (revision : Nat) (ran : Bool) (n : Node κ)
    (v : Verdict) : (n.conclude zeroFill revision ran v).bare = n.bare := by
  cases v with
  | computed outputs =>
    have houtputs := Port.map_writeAll Port.bare_write revision n.outputs outputs
    rw [bare, conclude, bare, houtputs]
  | reused => rfl
  | failed e =>
    cases zeroFill with
    | false => rfl
    | true =>
      have houtputs := Port.map_fillZeros Port.bare_write revision n.outputs
      simp only [bare, conclude, if_true, houtputs]

theorem computeCount_conclude (zeroFill : Bool) (revision : Nat) (ran : Bool) (n : Node κ)
    (v : Verdict) : (n.conclude zeroFill revision ran v).computeCount =
      if ran then n.computeCount + 1 else n.computeCount := by
  cases v <;> rfl

theorem memo_conclude (zeroFill : Bool) (revision : Nat) (ran : Bool) (n : Node κ) (v : Verdict) :
    (n.conclude zeroFill revision ran v).memo =
      if v.isComputed then some n.inputGenerations else n.memo := by
  cases v <;> rfl

/-! ## When the kernel runs -/

variable [Kernel κ]

/-- The kernel runs if every input is ready and the outputs are not kept. -/
theorem runs_iff {memoization : Bool} :
    n.runs memoization = true ↔ (∀ p ∈ n.inputs, p.Ready) ∧ n.judge memoization ≠ .reused := by
  rw [← Port.exists_gather_iff 0]
  unfold runs judge
  cases hg : Port.gather 0 n.inputs with
  | error e => simp [Except.isOk, Except.toBool]
  | ok values =>
    cases hr : n.reusable memoization with
    | true => simp
    | false =>
      -- the kernel runs, and it gives outputs or an error
      cases hc : Kernel.compute n.kernel values >>= n.checkOutputs <;>
        simp [Except.isOk, Except.toBool, hc]

/-- A node computes only if every input is ready. -/
theorem ready_of_computed {memoization : Bool} {outs : List Value}
    (h : n.judge memoization = .computed outs) : ∀ p ∈ n.inputs, p.Ready := by
  have hres := result_of_computed h
  unfold result at hres
  cases hg : Port.gather 0 n.inputs with
  | error e => rw [hg] at hres; cases hres
  | ok values => exact (Port.exists_gather_iff 0 n.inputs).mp ⟨values, hg⟩

/-- What is written down on a node in a pass agrees with the report. -/
structure Booked (r : Report) (before after : Node κ) : Prop where
  computed : after.state = .computed ↔ before.id ∈ r.computed
  reused : after.state = .reused ↔ before.id ∈ r.reused
  failed : after.state = .failed ↔ ∃ e, (before.id, e) ∈ r.failures
  error : ∀ e, after.error = some e ↔ (before.id, e) ∈ r.failures
  /-- Computing counts. -/
  count_computed : before.id ∈ r.computed → after.computeCount = before.computeCount + 1
  /-- Keeping the outputs does not count. -/
  count_reused : before.id ∈ r.reused → after.computeCount = before.computeCount
  /-- A failure counts unless some input had no value or one that it does not accept. -/
  count_failed : ∀ e, (before.id, e) ∈ r.failures →
    (after.computeCount = before.computeCount + 1 ∧ ∀ p ∈ after.inputs, p.Ready) ∨
      (after.computeCount = before.computeCount ∧ ∃ p ∈ after.inputs, ¬ p.Ready)
  memo_computed : before.id ∈ r.computed → after.memo = some after.inputGenerations
  memo_kept : before.id ∉ r.computed → after.memo = before.memo

end Node

/-! ## The lists of a report -/

namespace Report

/-- Every node of an order stands in exactly one of the lists. -/
theorem perm_recordAll (verdict : NodeId → Verdict) (order : List NodeId) :
    ((order.filter fun id => (verdict id).isComputed) ++
      (order.filter fun id => (verdict id).isReused) ++
        (order.filterMap fun id => (verdict id).error?.map fun e => (id, e)).map Prod.fst).Perm
      order := by
  induction order with
  | nil => exact .nil
  | cons id rest ih =>
    cases hv : verdict id with
    | computed outs =>
      simpa [hv, Verdict.isComputed, Verdict.isReused, Verdict.error?] using ih.cons id
    | reused =>
      simp only [List.filter_cons, List.filterMap_cons, hv, Verdict.isComputed, Verdict.isReused,
        Verdict.error?, Option.map_none, if_true, if_false, Bool.false_eq_true, List.append_assoc,
        List.cons_append] at ih ⊢
      exact List.perm_middle.trans (ih.cons id)
    | failed e =>
      simp only [List.filter_cons, List.filterMap_cons, hv, Verdict.isComputed, Verdict.isReused,
        Verdict.error?, Option.map_some, if_false, Bool.false_eq_true, List.map_cons]
      exact List.perm_middle.trans (ih.cons id)

/-- The failed nodes come in the order in which they ran. -/
theorem sublist_failures (verdict : NodeId → Verdict) (order : List NodeId) :
    ((order.filterMap fun id => (verdict id).error?.map fun e => (id, e)).map Prod.fst).Sublist
      order := by
  induction order with
  | nil => exact .slnil
  | cons id rest ih =>
    rw [List.filterMap_cons]
    cases (verdict id).error? with
    | none => exact ih.cons id
    | some e => exact ih.cons_cons id

end Report

/-! ## A pass -/

namespace Graph

variable {κ : Type} [Kernel κ]

/-- What a report, and the nodes after a pass, say of a pass. -/
structure Accounted (g h : Graph κ) (r : Report) : Prop where
  /-- Every node runs once. -/
  once : r.order.Nodup ∧ r.order.Perm g.ids
  computed : r.computed.Sublist r.order
  reused : r.reused.Sublist r.order
  failed : (r.failures.map Prod.fst).Sublist r.order
  together : (r.computed ++ r.reused ++ r.failures.map Prod.fst).Perm r.order
  apart : r.computed.Disjoint r.reused ∧ r.computed.Disjoint (r.failures.map Prod.fst) ∧
    r.reused.Disjoint (r.failures.map Prod.fst)
  booked : ∀ n ∈ g.nodes, ∃ m, h.node? n.id = some m ∧ n.Booked r m
  /-- Nothing else changes of a node, nor do the nodes change places. -/
  bare : h.nodes.map Node.bare = g.nodes.map Node.bare
  connections : h.connections = g.connections
  name : h.name = g.name

omit [Kernel κ] in
@[simp] theorem bare_fed (g : Graph κ) (n : Node κ) : (g.fed n).bare = n.bare :=
  Node.bare_resolve ..

namespace Passed

variable {settings : Settings} {g h : Graph κ} {r : Report} {verdict : NodeId → Verdict}
  {base top : NodeId → Nat} {n : Node κ}

/-- After a pass the nodes stand where they stood, each as what became of it. -/
theorem nodes_eq (hp : Passed settings g h r verdict base top) :
    h.nodes = g.nodes.map fun n => h.turned settings (base n.id) n.restart := by
  refine List.map_injective_iff.mpr (Option.some_injective _) ?_
  calc h.nodes.map some = h.ids.map h.node? := (map_node?_ids hp.after.nodup).symm
    _ = (g.nodes.map Node.id).map h.node? := by rw [hp.ids, Graph.ids]
    _ = g.nodes.map fun n => some (h.turned settings (base n.id) n.restart) := by
      rw [List.map_map]
      exact List.map_congr_left fun n hn => hp.node_eq hn
    _ = _ := List.map_map.symm

/-- A pass leaves the bare form of every node alone. -/
theorem map_bare (hp : Passed settings g h r verdict base top) :
    h.nodes.map Node.bare = g.nodes.map Node.bare := by
  rw [hp.nodes_eq, List.map_map]
  refine List.map_congr_left fun n _ => ?_
  show (h.turned settings (base n.id) n.restart).bare = n.bare
  rw [turned, Node.bare_conclude, bare_fed, Node.bare_restart]

/-- What is written down on a node agrees with the report. -/
theorem booked (hp : Passed settings g h r verdict base top) (hn : n ∈ g.nodes) :
    n.Booked r (h.turned settings (base n.id) n.restart) := by
  have hruns : (h.fed n.restart).runs settings.memoization = true ↔
      (∀ p ∈ (h.turned settings (base n.id) n.restart).inputs, p.Ready) ∧
        verdict n.id ≠ .reused := by
    rw [inputs_turned, hp.verdict_eq hn]
    exact Node.runs_iff
  have hcount : (h.turned settings (base n.id) n.restart).computeCount =
      if (h.fed n.restart).runs settings.memoization then n.computeCount + 1
      else n.computeCount := Node.computeCount_conclude ..
  have hmemo : (h.turned settings (base n.id) n.restart).memo =
      if (verdict n.id).isComputed then
        some (h.turned settings (base n.id) n.restart).inputGenerations
      else n.memo := by
    rw [hp.verdict_eq hn, Node.inputGenerations, inputs_turned]
    exact Node.memo_conclude ..
  constructor
  case computed =>
    rw [hp.mem_computed hn, hp.verdict_eq hn, turned]
    cases (h.fed n.restart).judge settings.memoization <;> simp [Node.conclude, Verdict.isComputed]
  case reused =>
    rw [hp.mem_reused hn, hp.verdict_eq hn, turned]
    cases (h.fed n.restart).judge settings.memoization <;> simp [Node.conclude, Verdict.isReused]
  case failed =>
    simp only [hp.mem_failures hn, hp.verdict_eq hn, turned]
    cases (h.fed n.restart).judge settings.memoization <;> simp [Node.conclude, Verdict.error?]
  case error =>
    intro e
    rw [hp.mem_failures hn, hp.error_turned hn]
  case count_computed =>
    intro hmem
    obtain ⟨outs, hv⟩ := Verdict.isComputed_iff.mp ((hp.mem_computed hn).mp hmem)
    have hready := Node.ready_of_computed ((hp.verdict_eq hn).symm.trans hv)
    rw [hcount, if_pos (hruns.mpr ⟨by rwa [inputs_turned], by simp [hv]⟩)]
  case count_reused =>
    intro hmem
    have hv := Verdict.isReused_iff.mp ((hp.mem_reused hn).mp hmem)
    rw [hcount, if_neg fun hran => (hruns.mp hran).2 hv]
  case count_failed =>
    intro e hmem
    have hv := Verdict.error?_eq_some_iff.mp ((hp.mem_failures hn).mp hmem)
    rw [hcount]
    -- the kernel ran exactly if every input was ready
    by_cases hall : ∀ p ∈ (h.turned settings (base n.id) n.restart).inputs, p.Ready
    · exact .inl ⟨if_pos (hruns.mpr ⟨hall, by simp [hv]⟩), hall⟩
    · exact .inr ⟨if_neg fun hran => hall (hruns.mp hran).1, by simpa using hall⟩
  case memo_computed =>
    intro hmem
    rw [hmemo, if_pos ((hp.mem_computed hn).mp hmem)]
  case memo_kept =>
    intro hmem
    rw [hmemo, if_neg (mt (hp.mem_computed hn).mpr hmem)]

theorem accounted (hp : Passed settings g h r verdict base top) (hname : h.name = g.name) :
    g.Accounted h r := by
  have hnodup : r.order.Nodup := hp.perm.nodup_iff.mpr hp.before.nodup
  have htogether : (r.computed ++ r.reused ++ r.failures.map Prod.fst).Perm r.order := by
    conv_lhs => rw [hp.computed_eq, hp.reused_eq, hp.failures_eq]
    exact Report.perm_recordAll verdict r.order
  -- a node that stood in two lists would stand twice in the order
  have hapart := htogether.nodup_iff.mpr hnodup
  rw [List.nodup_append', List.nodup_append', List.disjoint_append_left] at hapart
  constructor
  case once => exact ⟨hnodup, hp.perm⟩
  case computed =>
    rw [hp.computed_eq]
    exact List.filter_sublist
  case reused =>
    rw [hp.reused_eq]
    exact List.filter_sublist
  case failed =>
    rw [hp.failures_eq]
    exact Report.sublist_failures verdict r.order
  case together => exact htogether
  case apart => exact ⟨hapart.1.2.2, hapart.2.2⟩
  case booked => exact fun n hn => ⟨_, hp.node_eq hn, hp.booked hn⟩
  case bare => exact hp.map_bare
  case connections => exact hp.connections
  case name => exact hname

end Passed

end Graph

/-! ## In a session -/

namespace Session

variable {κ : Type} [Kernel κ]

/-- In every graph of every session a pass runs every node once, puts it into one list of its
report, and writes down on it what the report says: its state, its error, whether it counts, and
whether it has a new memo, which lists the generations of its inputs. Nothing else changes. -/
theorem evaluate_accounted (name : String) (es : List (Edit κ)) {settings : Settings}
    {g h : Graph κ} {r : Report} (hg : g ∈ ((start name).run es).graphs)
    (he : g.evaluate settings = .ok (h, r)) : g.Accounted h r := by
  have hw := (wellFormed_run (.start name) es).graphs g hg
  obtain ⟨verdict, base, top, hp⟩ := Graph.evaluate_spec hw he
  exact hp.accounted (Graph.name_evaluate he)

/-- A colour feeds an image, a sum has no connection, nothing feeds the output, and a source has
lost its pixels. A pass was run. -/
def ailing : List (Edit Builtin) := [
  .add (.ofKernel (.colorConstant .white)), .add (.ofKernel (.solidColorOf 1 1)),
  .add (.ofKernel (.math .add)), .add (.ofKernel .imageOutput),
  .add (.ofKernel (.imageSource ⟨⟨1, 1⟩, []⟩)), .connect ⟨2, 0⟩ ⟨4, 0⟩, .evaluate .standard]

/-- The second pass keeps the colour and the image and computes the sum. Of the two failures only
the one of the source counts, for the kernel of the output does not run. -/
theorem evaluate_accounted_ailing : ∃ g ∈ ((start "ailing").run ailing).graphs, ∃ h r,
    g.evaluate .standard = .ok (h, r) ∧ r.reused = [2, 4] ∧ r.computed = [6] ∧
    r.failures.map Prod.fst = [8, 10] ∧
    h.nodes.map Node.computeCount = [1, 1, 2, 0, 2] ∧ g.Accounted h r := by
  have hread : (((start "ailing").run ailing).graph.evaluate .standard).toOption.map
      (fun hr => (hr.2.reused, hr.2.computed, hr.2.failures.map Prod.fst,
        hr.1.nodes.map Node.computeCount)) = some ([2, 4], [6], [8, 10], [1, 1, 2, 0, 2]) := by
    decide +kernel
  obtain ⟨h, r, he, hr⟩ := Graph.exists_of_evaluate hread
  simp only [Prod.mk.injEq] at hr
  have hg := (wellFormed_run (.start "ailing") ailing).graph_mem
  exact ⟨_, hg, h, r, he, hr.1, hr.2.1, hr.2.2.1, hr.2.2.2,
    evaluate_accounted "ailing" ailing hg he⟩

end Session

end TextureFlow
