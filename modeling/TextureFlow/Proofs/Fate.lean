import Mathlib
import TextureFlow.Proofs.Origin
import TextureFlow.Proofs.Strategies

/-!
# What becomes of a node between two passes

In a session on one graph an edit that is not a successful pass leaves the node of a number as it
is, takes it out, or is an edit of just this node. Numbers are not given again, so a node that is
still there was there all the time, and its outputs are what they were.

* `Session.fate_step`: the three cases;
* `Session.node?_run`: a node that is neither taken out nor edited stays as it is;
* `Session.lasting_run`: what edits of a node keep, and its turns if there are passes between;
* `Session.exists_before_run`: the outputs of a node that is still there were never touched.
-/

namespace TextureFlow

/-- The report of a pass that succeeded. -/
def Outcome.report? : Outcome → Option Report
  | .evaluated (.ok r) => some r
  | _ => none

variable {κ : Type}

namespace Graph

theorem node?_remove? {g h : Graph κ} {id : NodeId} {n : Node κ}
    (hr : g.remove? id = some (n, h)) (v : NodeId) :
    h.node? v = if v = id then none else g.node? v := by
  obtain ⟨-, rfl⟩ := remove?_eq_some hr
  rw [node?, List.find?_filter]
  split
  · next he =>
    refine List.find?_eq_none.mpr fun m _ => ?_
    simp [he]
  · next hne =>
    rw [node?]
    congr 1
    funext m
    by_cases hm : m.id = v
    · simp [hm, hne]
    · simp [hm]

end Graph

namespace Session

theorem graph_setGraph {s : Session κ} (h : s.current < s.graphs.length) (g : Graph κ) :
    (s.setGraph g).graph = g := by
  have hlt : (s.setGraph g).current < (s.setGraph g).graphs.length := by
    simpa [setGraph] using h
  rw [graph_eq_getElem hlt]
  exact List.getElem_set_self _

/-- What is put in the place of a node is found there. -/
theorem node?_setNode {s : Session κ} (h : s.WellFormed) {p : NodePlace} {n m : Node κ}
    (hn : s.node? p = some n) (hid : m.id = n.id) :
    (s.setNode p m).node? p = some m := by
  cases p with
  | node id =>
    obtain ⟨hmem, rfl⟩ := Graph.mem_of_node? hn
    have hgraph : (s.setNode (.node n.id) m).graph = s.graph.setNode m :=
      graph_setGraph h.current _
    rw [node?, hgraph, ← hid]
    exact Graph.node?_setNode_self (hid ▸ List.mem_map_of_mem hmem)
  | slot index =>
    have hlt := (List.getElem?_eq_some_iff.mp (Option.join_eq_some_iff.mp hn)).1
    rw [node?, slot?, setNode, List.getElem?_set_self hlt]
    rfl

theorem nodes_settleConnect {s : Session κ} (h : s.current < s.graphs.length)
    {r : Except ConnectError (Connection × Graph κ)}
    (hr : ∀ c g, r = .ok (c, g) → g.nodes = s.graph.nodes) :
    (s.settleConnect r).2.graph.nodes = s.graph.nodes := by
  cases r with
  | error e => rfl
  | ok cg => exact (congrArg Graph.nodes (graph_setGraph h cg.2)).trans (hr cg.1 cg.2 rfl)

theorem nodes_settleDisconnect {s : Session κ} (h : s.current < s.graphs.length)
    {r : Option (Connection × Graph κ)}
    (hr : ∀ c g, r = some (c, g) → g.nodes = s.graph.nodes) :
    (s.settleDisconnect r).2.graph.nodes = s.graph.nodes := by
  cases r with
  | none => rfl
  | some cg => exact (congrArg Graph.nodes (graph_setGraph h cg.2)).trans (hr cg.1 cg.2 rfl)

/-- Turning to the only graph changes nothing but its name. -/
theorem nodes_focus {s : Session κ} (h : s.WellFormed) (hl : s.graphs.length = 1)
    (name : Option String) : (s.focus 0 name).graph.nodes = s.graph.nodes := by
  have hzero : s.current = 0 := by
    have := h.current
    omega
  have hsame : s.focus 0 none = s := by
    have hnone : 0 + 1 - s.graphs.length = 0 := by omega
    have hopen : s.focus 0 none = { s with current := 0 } := by
      simp only [focus, hnone, List.replicate_zero, List.append_nil]
    rw [hopen, ← hzero]
  cases name with
  | none => rw [hsame]
  | some name =>
    have hset : s.focus 0 (some name) = (s.focus 0 none).setGraph
        { graph (s.focus 0 none) with name } := rfl
    rw [hset, graph_setGraph (h.focus 0 none).current, hsame]

variable [Kernel κ]

/-- A pass that succeeds leaves its graph to the rest of a history. -/
theorem run_evaluate {s : Session κ} {before : List (Edit κ)} {settings : Settings} {g : Graph κ}
    {r : Report} (he : (s.run before).graph.evaluate settings = .ok (g, r)) (es : List (Edit κ)) :
    s.run (before ++ .evaluate settings :: es) = ((s.run before).setGraph g).run es := by
  have hpass : ((s.run before).step (.evaluate settings)).2 = (s.run before).setGraph g := by
    rw [step, evaluate, he]
  rw [← hpass, run, List.foldl_append]
  rfl

/-- What an edit does to the node of a number in a graph. -/
inductive Fate (s t : Session κ) (id : NodeId) : Edit κ → Prop where
  | kept {e : Edit κ} (same : t.graph.node? id = s.graph.node? id) : Fate s t id e
  | removed (gone : t.graph.node? id = none) : Fate s t id (.remove id)
  | edited {e : NodeEdit} {m n : Node κ} (before : s.graph.node? id = some m)
      (applied : e.apply m = .ok n) (after : t.graph.node? id = some n) :
      Fate s t id (.node (.node id) e)

theorem fate_editNode {s : Session κ} (h : s.WellFormed) (p : NodePlace) (e : NodeEdit)
    (id : NodeId) : Fate s (s.editNode p e).2 id (.node p e) := by
  unfold editNode
  cases hn : s.node? p with
  | none => exact .kept rfl
  | some m =>
    cases he : e.apply m with
    | error err => simpa only [he] using Fate.kept rfl
    | ok n =>
      simp only [he]
      have hid : n.id = m.id := congrArg Frame.id (Node.frame_apply he)
      cases p with
      | slot index => exact .kept rfl
      | node place =>
        by_cases hsame : id = place
        · subst hsame
          exact .edited hn he (node?_setNode h hn hid)
        · have hne : id ≠ n.id := by rwa [hid, (Graph.mem_of_node? hn).2]
          exact .kept ((congrArg (Graph.node? · id) (graph_setGraph h.current _)).trans
            (Graph.node?_setNode_of_ne _ hne))

/-- An edit that is not a successful pass leaves a node as it is, takes it out, or is an edit of
this node. -/
theorem fate_step {s : Session κ} (h : s.WellFormed) (hl : s.graphs.length = 1) {e : Edit κ}
    (hone : e.OnOneGraph) (hquiet : (s.step e).1.report? = none) {id : NodeId}
    (hid : id ≤ s.issued) : Fate s (s.step e).2 id e := by
  -- an edit that leaves the nodes of the graph alone
  have hsame : ∀ {t : Session κ}, t.graph.nodes = s.graph.nodes → Fate s t id e := fun hn =>
    .kept (by rw [Graph.node?, hn, Graph.node?])
  cases e with
  | focus index name =>
    obtain rfl : index = 0 := hone
    exact hsame (nodes_focus h hl name)
  | create draft => exact .kept rfl
  | insert slot =>
    simp only [step]
    cases hn : s.slot? slot with
    | none => exact .kept rfl
    | some n =>
      refine .kept ((congrArg (Graph.node? · id) (graph_setGraph h.current _)).trans ?_)
      exact Graph.node?_insert (Nat.lt_succ_of_le hid).ne n
  | add draft =>
    refine .kept ((congrArg (Graph.node? · id) (graph_setGraph h.current _)).trans ?_)
    exact Graph.node?_insert (Nat.lt_succ_of_lt (Nat.lt_succ_of_le hid)).ne _
  | remove place =>
    simp only [step, remove]
    cases hr : s.graph.remove? place with
    | none => exact .kept rfl
    | some ng =>
      have hnode := (congrArg (Graph.node? · id) (graph_setGraph h.current ng.2)).trans
        (Graph.node?_remove? hr id)
      by_cases he : id = place
      · subst he
        exact .removed (hnode.trans (if_pos rfl))
      · exact .kept (hnode.trans (if_neg he))
  | connect source target =>
    refine hsame (nodes_settleConnect h.current fun c g hc => ?_)
    rw [(Graph.connect_eq_ok hc).2.1]
  | connectPorts source target =>
    refine hsame (nodes_settleConnect h.current fun c g hc => ?_)
    obtain ⟨output, input, hc⟩ := Graph.connectPorts_eq_ok hc
    rw [(Graph.connect_eq_ok hc).2.1]
  | disconnect target =>
    refine hsame (nodes_settleDisconnect h.current fun c g hc => ?_)
    rw [Graph.disconnect?_eq_some hc]
    rfl
  | disconnectId cid =>
    refine hsame (nodes_settleDisconnect h.current fun c g hc => ?_)
    rw [Graph.disconnectId?_eq_some hc]
    rfl
  | node p e => exact fate_editNode h p e id
  | evaluate settings =>
    simp only [step, evaluate] at hquiet ⊢
    cases he : s.graph.evaluate settings with
    | error err => exact .kept rfl
    | ok gr =>
      rw [he] at hquiet
      cases hquiet

/-! ## Histories without a successful pass -/

/-- Whether no pass of a history succeeds. Refused ones may be among its edits. -/
def Quiet (s : Session κ) (es : List (Edit κ)) : Prop :=
  ∀ x ∈ s.trace es, x.1.report? = none

instance (s : Session κ) (es : List (Edit κ)) : Decidable (s.Quiet es) :=
  inferInstanceAs (Decidable (∀ x ∈ s.trace es, _))

theorem quiet_cons {s : Session κ} {e : Edit κ} {es : List (Edit κ)} :
    s.Quiet (e :: es) ↔ (s.step e).1.report? = none ∧ (s.step e).2.Quiet es :=
  List.forall_mem_cons

/-- A node that is neither taken out nor edited stays as it is until the next successful pass. -/
theorem node?_run {s : Session κ} (h : s.WellFormed) (hl : s.graphs.length = 1)
    {es : List (Edit κ)} (hone : ∀ e ∈ es, e.OnOneGraph) (hquiet : s.Quiet es) {id : NodeId}
    (hid : id ≤ s.issued) (hin : .remove id ∉ es) (hed : ∀ e, .node (.node id) e ∉ es) :
    (s.run es).graph.node? id = s.graph.node? id := by
  induction es generalizing s with
  | nil => rfl
  | cons e es ih =>
    obtain ⟨hone, hones⟩ := List.forall_mem_cons.mp hone
    obtain ⟨hq, hqs⟩ := quiet_cons.mp hquiet
    have hrest := ih (wellFormed_step h e) (length_graphs_step hl hone) hones hqs
      (hid.trans (turnover_step h e).issued_le) (mt (List.mem_cons_of_mem e) hin)
      fun x => mt (List.mem_cons_of_mem e) (hed x)
    refine hrest.trans ?_
    cases fate_step h hl hone hq hid with
    | kept same => exact same
    | removed gone => exact absurd List.mem_cons_self hin
    | edited before applied after => exact absurd List.mem_cons_self (hed _)

/-! ## What lasts -/

/-- Only a pass that succeeds has a report. -/
theorem exists_of_report? {s : Session κ} {e : Edit κ} {r : Report}
    (h : (s.step e).1.report? = some r) :
    ∃ settings g, e = .evaluate settings ∧ s.graph.evaluate settings = .ok (g, r) := by
  cases e with
  | focus index name => cases h
  | create draft => cases h
  | add draft => cases h
  | insert slot =>
    simp only [step] at h
    split at h <;> cases h
  | remove id =>
    simp only [step, remove] at h
    split at h <;> cases h
  | connect source target =>
    simp only [step, settleConnect] at h
    split at h <;> cases h
  | connectPorts source target =>
    simp only [step, settleConnect] at h
    split at h <;> cases h
  | disconnect target =>
    simp only [step, settleDisconnect] at h
    split at h <;> cases h
  | disconnectId id =>
    simp only [step, settleDisconnect] at h
    split at h <;> cases h
  | node place e =>
    simp only [step, editNode] at h
    split at h
    · cases h
    · split at h <;> cases h
  | evaluate settings =>
    simp only [step, evaluate] at h
    split at h
    · next g r' he =>
      cases h
      exact ⟨settings, g, rfl, he⟩
    · cases h

end Session

/-- What is kept between a node and what it becomes by certain edits. -/
structure Node.Lasting [Kernel κ] (E : NodeEdit → Prop) (R : Node κ → Node κ → Prop) : Prop where
  refl : ∀ n, R n n
  trans : ∀ {n m k : Node κ}, R n m → R m k → R n k
  apply : ∀ {e : NodeEdit} {n m : Node κ}, E e → e.apply n = .ok m → R n m

/-- What is kept between a node and what it becomes in a pass. -/
def Node.LastsTurns [Kernel κ] (R : Node κ → Node κ → Prop) : Prop :=
  ∀ ⦃settings : Settings⦄ ⦃g h : Graph κ⦄ ⦃r : Report⦄ ⦃verdict : NodeId → Verdict⦄
    ⦃base top : NodeId → Nat⦄ ⦃n : Node κ⦄, Graph.Passed settings g h r verdict base top →
    n ∈ g.nodes → R n (h.turned settings (base n.id) n.restart)

namespace Session

variable [Kernel κ] {E : NodeEdit → Prop} {R : Node κ → Node κ → Prop}

/-- A node that is still there after an edit has kept what lasts. -/
theorem lasting_step (hR : Node.Lasting E R) {s : Session κ} (h : s.WellFormed)
    (hl : s.graphs.length = 1) {e : Edit κ} (hone : e.OnOneGraph)
    (hpass : (s.step e).1.report? = none ∨ Node.LastsTurns R) {id : NodeId}
    (hE : ∀ x, e = .node (.node id) x → E x) (hid : id ≤ s.issued) {n : Node κ}
    (hn : (s.step e).2.graph.node? id = some n) : ∃ m, s.graph.node? id = some m ∧ R m n := by
  cases hr : (s.step e).1.report? with
  | none =>
    cases fate_step h hl hone hr hid with
    | kept same => exact ⟨n, same ▸ hn, hR.refl n⟩
    | removed gone => exact absurd (gone.symm.trans hn) (by simp)
    | edited before applied after =>
      obtain rfl := Option.some.inj (after.symm.trans hn)
      exact ⟨_, before, hR.apply (hE _ rfl) applied⟩
  | some r =>
    have hturns := hpass.resolve_left (by simp [hr])
    obtain ⟨settings, g, rfl, he⟩ := exists_of_report? hr
    obtain ⟨verdict, base, top, hp⟩ := Graph.evaluate_spec h.graph he
    simp only [step, evaluate, he, graph_setGraph h.current] at hn
    obtain ⟨hng, rfl⟩ := Graph.mem_of_node? hn
    obtain ⟨m, hm, hid, rfl⟩ := hp.exists_turned hng
    refine ⟨m, ?_, hturns hp hm⟩
    rw [hid]
    exact Graph.node?_of_mem h.graph.nodup hm

/-- A node that is still there after a history was there all the time, and has kept what lasts. -/
theorem lasting_run (hR : Node.Lasting E R) {s : Session κ} (h : s.WellFormed)
    (hl : s.graphs.length = 1) {es : List (Edit κ)} (hone : ∀ e ∈ es, e.OnOneGraph)
    (hpass : s.Quiet es ∨ Node.LastsTurns R) {id : NodeId}
    (hE : ∀ x, .node (.node id) x ∈ es → E x) (hid : id ≤ s.issued) {n : Node κ}
    (hn : (s.run es).graph.node? id = some n) : ∃ m, s.graph.node? id = some m ∧ R m n := by
  induction es generalizing s with
  | nil => exact ⟨n, hn, hR.refl n⟩
  | cons e es ih =>
    obtain ⟨hone, hones⟩ := List.forall_mem_cons.mp hone
    obtain ⟨k, hk, hkn⟩ := ih (wellFormed_step h e) (length_graphs_step hl hone) hones
      (hpass.imp_left fun hq => (quiet_cons.mp hq).2)
      (fun x hx => hE x (List.mem_cons_of_mem e hx)) (hid.trans (turnover_step h e).issued_le) hn
    obtain ⟨m, hm, hmk⟩ := lasting_step hR h hl hone
      (hpass.imp_left fun hq => (quiet_cons.mp hq).1)
      (fun x hx => hE x (hx ▸ List.mem_cons_self)) hid hk
    exact ⟨m, hm, hR.trans hmk hkn⟩

/-- Until the next successful pass, a node that is still there has the outputs it had. -/
theorem exists_before_run {s : Session κ} (h : s.WellFormed) (hl : s.graphs.length = 1)
    {es : List (Edit κ)} (hone : ∀ e ∈ es, e.OnOneGraph) (hquiet : s.Quiet es) {id : NodeId}
    (hid : id ≤ s.issued) {n : Node κ} (hn : (s.run es).graph.node? id = some n) :
    ∃ m, s.graph.node? id = some m ∧ m.outputs = n.outputs := by
  have hlasting : Node.Lasting (fun _ => True) fun n m : Node κ => n.outputs = m.outputs :=
    ⟨fun _ => rfl, Eq.trans, fun _ happlied => (Node.apply_eq_ok happlied).2.symm⟩
  exact lasting_run hlasting h hl hone (.inl hquiet) (fun _ _ => trivial) hid hn

end Session

end TextureFlow
