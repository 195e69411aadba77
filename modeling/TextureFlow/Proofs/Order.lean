import Mathlib
import TextureFlow.Graph.Order
import TextureFlow.Proofs.Cycle
import TextureFlow.Proofs.Structure

/-!
# The order of execution

While nodes are placed, the count of a node is the number of its connections from nodes that are not
placed yet, with multiplicity. `Tracks` says so also in the middle of a round, when the connections
of the node placed last have been released in part: those that are left are listed apart. The placed
nodes are closed under predecessors and settled, so a node that is left over has a predecessor that
is left over, and in an acyclic graph there is none.

* `Graph.placed_settled`: the order lists nodes once, and no connection leads backwards in it;
* `Graph.length_settled_iff`: it lists all nodes exactly when the graph is acyclic.
-/

namespace TextureFlow

namespace Frontier

/-! ## Ready nodes -/

theorem mem_insertSorted {id v : NodeId} {l : List NodeId} :
    v ∈ insertSorted id l ↔ v = id ∨ v ∈ l := by
  induction l with
  | nil => simp [insertSorted]
  | cons first rest ih =>
    unfold insertSorted
    split
    · exact List.mem_cons
    · rw [List.mem_cons, ih, List.mem_cons]
      exact or_left_comm

theorem pairwise_insertSorted {id : NodeId} {l : List NodeId} (h : l.Pairwise (· < ·))
    (hid : id ∉ l) : (insertSorted id l).Pairwise (· < ·) := by
  induction l with
  | nil => exact List.pairwise_singleton _ _
  | cons first rest ih =>
    obtain ⟨hfirst, hrest⟩ := List.pairwise_cons.mp h
    obtain ⟨hne, hid⟩ := not_or.mp (mt List.mem_cons.mpr hid)
    unfold insertSorted
    split
    · next hle =>
      refine List.pairwise_cons.mpr ⟨fun v hv => ?_, h⟩
      rcases List.mem_cons.mp hv with rfl | hv
      · exact lt_of_le_of_ne hle hne
      · exact lt_of_le_of_lt hle (hfirst v hv)
    · next hlt =>
      refine List.pairwise_cons.mpr ⟨fun v hv => ?_, ih hrest hid⟩
      rcases mem_insertSorted.mp hv with rfl | hv
      · exact lt_of_not_ge hlt
      · exact hfirst v hv

theorem mem_foldr_insertSorted {v : NodeId} {l : List NodeId} :
    v ∈ l.foldr insertSorted [] ↔ v ∈ l := by
  induction l with
  | nil => exact Iff.rfl
  | cons id rest ih => rw [List.foldr_cons, mem_insertSorted, ih, List.mem_cons]

theorem pairwise_foldr_insertSorted {l : List NodeId} (h : l.Nodup) :
    (l.foldr insertSorted []).Pairwise (· < ·) := by
  induction l with
  | nil => exact .nil
  | cons id rest ih =>
    obtain ⟨hid, hrest⟩ := List.nodup_cons.mp h
    exact pairwise_insertSorted (ih hrest) (mt mem_foldr_insertSorted.mp hid)

/-! ## Counts -/

/-- Releasing a connection lowers one count, and the node is ready when it was the last one. -/
theorem release_eq {f : Frontier} {id : NodeId} {count : Nat} (h : f.count? id = some (count + 1)) :
    f.release id =
      ⟨f.counts.map fun p => if p.1 = id then (id, count) else p,
        if count = 0 then insertSorted id f.ready else f.ready⟩ := by
  simp only [release, h, Nat.add_sub_cancel]

theorem count?_release {f : Frontier} {id : NodeId} {count : Nat}
    (h : f.count? id = some (count + 1)) (v : NodeId) :
    (f.release id).count? v = if v = id then some count else f.count? v := by
  have hkey : ((fun p : NodeId × Nat => decide (p.1 = v)) ∘
      fun p => if p.1 = id then (id, count) else p) = fun p => decide (p.1 = v) := by
    funext p
    by_cases hp : p.1 = id <;> simp [hp]
  rw [release_eq h, count?, List.find?_map, hkey]
  by_cases hv : v = id
  · subst hv
    obtain ⟨p, hp, -⟩ := Option.map_eq_some_iff.mp h
    have : p.1 = v := by simpa using List.find?_some hp
    simp [hp, this]
  · rw [if_neg hv, count?]
    cases hf : f.counts.find? fun p => p.1 = v with
    | none => rfl
    | some p =>
      have : p.1 = v := by simpa using List.find?_some hf
      simp [hv, this]

end Frontier

namespace Graph

variable {κ : Type}

/-- How many connections lead to a node from nodes that are not placed. -/
def openCount (g : Graph κ) (placed : List NodeId) (v : NodeId) : Nat :=
  g.connections.countP fun c => c.target.node = v ∧ c.source.node ∉ placed

/-- Placing a node closes its connections. -/
theorem openCount_append (g : Graph κ) {placed : List NodeId} {u : NodeId} (hu : u ∉ placed)
    (v : NodeId) :
    g.openCount (placed ++ [u]) v + (g.successors u).count v = g.openCount placed v := by
  simp only [openCount, successors]
  induction g.connections with
  | nil => rfl
  | cons c rest ih =>
    -- a connection from the placed node is counted among its successors, no longer as open
    by_cases hs : c.source.node = u <;> by_cases ht : c.target.node = v <;>
      simp_all [List.countP_cons] <;> omega

theorem exists_leads_of_openCount {g : Graph κ} {placed : List NodeId} {v : NodeId}
    (h : g.openCount placed v ≠ 0) : ∃ u, g.Leads u v ∧ u ∉ placed := by
  obtain ⟨c, hc, hcv⟩ := List.countP_pos_iff.mp (Nat.pos_of_ne_zero h)
  obtain ⟨ht, hs⟩ := by simpa using hcv
  exact ⟨_, ⟨c, hc, rfl, ht⟩, hs⟩

theorem mem_placed_of_openCount {g : Graph κ} {placed : List NodeId} {u v : NodeId}
    (h : g.openCount placed v = 0) (hl : g.Leads u v) : u ∈ placed := by
  obtain ⟨c, hc, rfl, rfl⟩ := hl
  by_contra hu
  have := List.countP_eq_zero.mp h c hc
  simp [hu] at this

/-! ## Placed nodes -/

/-- What holds of the nodes that are placed, in their order. -/
structure Placed (g : Graph κ) (placed : List NodeId) : Prop where
  nodup : placed.Nodup
  known : ∀ v ∈ placed, v ∈ g.ids
  /-- No connection leads backwards. -/
  forward : placed.Pairwise fun u v => ¬ g.Leads v u
  /-- Predecessors of placed nodes are placed, and no placed node is on a cycle. -/
  settled : Settled (fun u v => g.Leads v u) (· ∈ placed)

namespace Placed

variable {g : Graph κ} {placed : List NodeId}

theorem nil (g : Graph κ) : g.Placed [] :=
  ⟨.nil, nofun, .nil, nofun, nofun⟩

/-- A node all of whose predecessors are placed may be placed next. -/
theorem append (h : g.Placed placed) {u : NodeId} (hu : u ∉ placed) (hk : u ∈ g.ids)
    (ho : g.openCount placed u = 0) : g.Placed (placed ++ [u]) where
  nodup := List.nodup_append.mpr ⟨h.nodup, List.nodup_singleton u, fun a ha b hb hab =>
    hu (List.mem_singleton.mp hb ▸ hab ▸ ha)⟩
  known v hv := by
    rcases List.mem_append.mp hv with hv | hv
    · exact h.known v hv
    · exact List.mem_singleton.mp hv ▸ hk
  forward := by
    refine List.pairwise_append.mpr ⟨h.forward, List.pairwise_singleton _ _, fun v hv w hw hl => ?_⟩
    rw [List.mem_singleton.mp hw] at hl
    exact hu (h.settled.closed v hv u hl)
  settled := by
    have hset := h.settled.insert hu fun v hl => mem_placed_of_openCount ho hl
    have hmem : (fun v => v ∈ placed ++ [u]) = fun v => v = u ∨ v ∈ placed := by
      funext v
      simp [or_comm]
    rw [hmem]
    exact hset

/-- No connection leads from a placed node to itself. -/
theorem not_leads_self (h : g.Placed placed) {v : NodeId} (hv : v ∈ placed) : ¬ g.Leads v v :=
  fun hl => h.settled.acyclic v hv (.single hl)

/-- Induction along an order: what holds of a node if it holds of all that lead to it, holds of all
nodes that were placed. -/
theorem induction (h : g.Placed placed) {P : NodeId → Prop}
    (turn : ∀ v ∈ placed, (∀ u, g.Leads u v → P u) → P v) : ∀ v ∈ placed, P v := by
  -- on positions: what leads to a node is placed, and stands neither at its position nor later
  have hindex : ∀ i (hi : i < placed.length), P placed[i] := by
    intro i
    induction i using Nat.strong_induction_on with
    | _ i ih =>
      intro hi
      refine turn _ (List.getElem_mem hi) fun u hu => ?_
      obtain ⟨j, hj, rfl⟩ := List.getElem_of_mem (h.settled.closed _ (List.getElem_mem hi) _ hu)
      rcases lt_trichotomy j i with hlt | rfl | hlt
      · exact ih j hlt hj
      · exact absurd hu (h.not_leads_self (List.getElem_mem hi))
      · exact absurd hu (List.pairwise_iff_getElem.mp h.forward i j hi hj hlt)
  intro v hv
  obtain ⟨i, hi, rfl⟩ := List.getElem_of_mem hv
  exact hindex i hi

theorem acyclic (h : g.Placed placed) (hall : ∀ u v, g.Leads u v → v ∈ placed) :
    Acyclic g.Leads := by
  intro v hv
  obtain ⟨w, -, hwv⟩ := Relation.TransGen.tail'_iff.mp hv
  exact h.settled.acyclic v (hall w v hwv) (Relation.transGen_swap.mpr hv)

end Placed

/-! ## Counting while nodes are placed -/

/-- What the counts and the ready nodes say when `pending` lists the targets of connections that
still have to be released. -/
structure Tracks (g : Graph κ) (placed pending : List NodeId) (f : Frontier) : Prop where
  count : ∀ v ∈ g.ids, f.count? v = some (g.openCount placed v + pending.count v)
  ready : ∀ v, v ∈ f.ready ↔ v ∈ g.ids ∧ v ∉ placed ∧ g.openCount placed v + pending.count v = 0
  sorted : f.ready.Pairwise (· < ·)

namespace Tracks

variable {g : Graph κ} {placed : List NodeId} {f : Frontier}

/-- Releasing the first of the pending connections. -/
theorem release {t : NodeId} {ts : List NodeId} (h : g.Tracks placed (t :: ts) f)
    (ht : t ∈ g.ids) (hp : t ∉ placed) : g.Tracks placed ts (f.release t) := by
  have hcount : f.count? t = some (g.openCount placed t + ts.count t + 1) := by
    rw [h.count t ht, List.count_cons_self, Nat.add_assoc]
  have hnot : t ∉ f.ready := fun hm => by
    have := ((h.ready t).mp hm).2.2
    rw [List.count_cons_self] at this
    omega
  have hne : ∀ {v}, v ≠ t → (t :: ts).count v = ts.count v := fun hv =>
    List.count_cons_of_ne (Ne.symm hv)
  constructor
  case count =>
    intro v hv
    rw [Frontier.count?_release hcount]
    by_cases hvt : v = t
    · rw [if_pos hvt, hvt]
    · rw [if_neg hvt, h.count v hv, hne hvt]
  case ready =>
    -- only the released node can have become ready
    intro v
    rw [Frontier.release_eq hcount]
    by_cases hvt : v = t
    · subst hvt
      by_cases h0 : g.openCount placed v + ts.count v = 0
      · rw [if_pos h0, Frontier.mem_insertSorted]
        exact iff_of_true (.inl rfl) ⟨ht, hp, h0⟩
      · rw [if_neg h0]
        exact iff_of_false hnot fun hm => h0 hm.2.2
    · have hv := h.ready v
      rw [hne hvt] at hv
      split
      · rw [Frontier.mem_insertSorted, hv]
        simp [hvt]
      · exact hv
  case sorted =>
    rw [Frontier.release_eq hcount]
    split
    · exact Frontier.pairwise_insertSorted h.sorted hnot
    · exact h.sorted

/-- Releasing all pending connections. -/
theorem foldl_release {ts : List NodeId} (h : g.Tracks placed ts f)
    (ht : ∀ t ∈ ts, t ∈ g.ids ∧ t ∉ placed) : g.Tracks placed [] (ts.foldl Frontier.release f) := by
  induction ts generalizing f with
  | nil => exact h
  | cons t ts ih =>
    obtain ⟨hk, hp⟩ := ht t List.mem_cons_self
    exact ih (h.release hk hp) fun u hu => ht u (List.mem_cons_of_mem _ hu)

/-- The first ready node is placed, and the connections that leave it are pending. -/
theorem place {node : NodeId} {rest : List NodeId} (h : g.Tracks placed [] f)
    (hr : f.ready = node :: rest) :
    g.Tracks (placed ++ [node]) (g.successors node) { f with ready := rest } := by
  have hnode := (h.ready node).mp (hr ▸ List.mem_cons_self)
  have hsorted := h.sorted
  rw [hr] at hsorted
  obtain ⟨hfirst, hrest⟩ := List.pairwise_cons.mp hsorted
  constructor
  case count =>
    intro v hv
    refine (h.count v hv).trans ?_
    rw [openCount_append g hnode.2.1, List.count_nil, Nat.add_zero]
  case sorted => exact hrest
  case ready =>
    intro v
    have hv := h.ready v
    rw [hr, List.mem_cons] at hv
    rw [openCount_append g hnode.2.1, List.mem_append, List.mem_singleton, not_or]
    constructor
    · intro hm
      obtain ⟨hk, hp, h0⟩ := hv.mp (.inr hm)
      exact ⟨hk, ⟨hp, (hfirst v hm).ne'⟩, h0⟩
    · rintro ⟨hk, ⟨hp, hne⟩, h0⟩
      exact (hv.mpr ⟨hk, hp, h0⟩).resolve_left hne

end Tracks

/-- The first ready node is placed. The connections that leave it lead to nodes that are left. -/
theorem Placed.next {g : Graph κ} (hw : g.WellFormed) {placed rest : List NodeId} {node : NodeId}
    {f : Frontier} (h : g.Placed placed) (ht : g.Tracks placed [] f) (hr : f.ready = node :: rest) :
    g.Placed (placed ++ [node]) ∧
      g.Tracks (placed ++ [node]) (g.successors node) { f with ready := rest } ∧
      ∀ t ∈ g.successors node, t ∈ g.ids ∧ t ∉ placed ++ [node] := by
  obtain ⟨hk, hp, h0⟩ := (ht.ready node).mp (hr ▸ List.mem_cons_self)
  have hnew := h.append hp hk (by simpa using h0)
  refine ⟨hnew, ht.place hr, fun t hts => ?_⟩
  rw [mem_successors] at hts
  obtain ⟨c, hc, -, rfl⟩ := id hts
  refine ⟨hw.target_mem hc, fun hm => ?_⟩
  -- a successor that was placed already would make the node a placed predecessor of itself
  rcases List.mem_append.mp hm with hm | hm
  · exact hp (h.settled.closed _ hm _ hts)
  · rw [List.mem_singleton.mp hm] at hts
    exact hnew.not_leads_self (by simp) hts

/-- One round: the first ready node is placed and the connections that leave it are released. -/
theorem Placed.round {g : Graph κ} (hw : g.WellFormed) {placed rest : List NodeId} {node : NodeId}
    {f : Frontier} (h : g.Placed placed) (ht : g.Tracks placed [] f) (hr : f.ready = node :: rest) :
    g.Placed (placed ++ [node]) ∧
      g.Tracks (placed ++ [node]) []
        ((g.successors node).foldl Frontier.release { f with ready := rest }) := by
  obtain ⟨hnew, htracks, hleft⟩ := h.next hw ht hr
  exact ⟨hnew, htracks.foldl_release hleft⟩

/-- What the rounds place: either as many nodes as the bound allows, or all but those that wait for
another node. -/
theorem settle_spec {g : Graph κ} (hw : g.WellFormed) (bound : Nat) {placed : List NodeId}
    {f : Frontier} (h : g.Placed placed) (ht : g.Tracks placed [] f) :
    let all := placed ++ Frontier.settle g.successors bound f
    g.Placed all ∧ (all.length = placed.length + bound ∨
      ∀ v ∈ g.ids, v ∉ all → g.openCount all v ≠ 0) := by
  induction bound generalizing placed f with
  | zero => simpa [Frontier.settle] using h
  | succ bound ih =>
    unfold Frontier.settle
    cases hr : f.ready with
    | nil =>
      refine ⟨by simpa using h, .inr fun v hv hn h0 => ?_⟩
      have : v ∈ f.ready := (ht.ready v).mpr ⟨hv, by simpa using hn, by simpa using h0⟩
      rw [hr] at this
      exact absurd this List.not_mem_nil
    | cons node rest =>
      obtain ⟨hp, ht'⟩ := h.round hw ht hr
      have := ih hp ht'
      simp only [List.append_assoc, List.singleton_append, List.length_append,
        List.length_singleton] at this ⊢
      refine ⟨this.1, this.2.imp_left fun hl => ?_⟩
      omega

/-- Before any node is placed. -/
theorem tracks_frontier {g : Graph κ} (hw : g.WellFormed) : g.Tracks [] [] g.frontier := by
  have hopen : ∀ v, g.openCount [] v = g.connections.countP fun c => c.target.node = v := by
    intro v
    simp [openCount]
  constructor
  case count =>
    intro v hv
    rw [hopen, List.count_nil, Nat.add_zero, frontier, Frontier.count?, List.find?_map]
    have hf : g.ids.find? ((fun p : NodeId × Nat => decide (p.1 = v)) ∘ fun id =>
        (id, g.connections.countP fun c => c.target.node = id)) = some v := by
      obtain ⟨u, hu⟩ := Option.isSome_iff_exists.mp
        (List.find?_isSome.mpr ⟨v, hv, decide_eq_true rfl⟩ :
          (g.ids.find? fun u => decide (u = v)).isSome)
      have huv : u = v := by simpa using List.find?_some hu
      exact hu.trans (congrArg some huv)
    rw [hf]
    rfl
  case ready =>
    intro v
    simp only [frontier, Frontier.mem_foldr_insertSorted, hopen, List.count_nil, Nat.add_zero]
    simp
  case sorted =>
    refine Frontier.pairwise_foldr_insertSorted ?_
    refine ((List.filter_sublist (l := g.ids.map fun id =>
      (id, g.connections.countP fun c => c.target.node = id))).map Prod.fst).nodup ?_
    simpa [Function.comp_def] using hw.nodup

/-! ## The order -/

/-- The order lists nodes once, and no connection leads backwards in it. -/
theorem placed_settled {g : Graph κ} (hw : g.WellFormed) : g.Placed g.settled :=
  (settle_spec hw g.nodes.length (.nil g) (tracks_frontier hw)).1

theorem length_settled_le {g : Graph κ} (hw : g.WellFormed) :
    g.settled.length ≤ g.nodes.length := by
  have hp := placed_settled hw
  have := (hp.nodup.subperm hp.known).length_le
  rwa [ids, List.length_map] at this

/-- An order of full length lists every node. -/
theorem settled_perm {g : Graph κ} (hw : g.WellFormed) (h : g.settled.length = g.nodes.length) :
    g.settled.Perm g.ids := by
  have hp := placed_settled hw
  exact (hp.nodup.subperm hp.known).perm_of_length_le (by rw [h, ids, List.length_map])

/-- In an acyclic relation some node of a list has no edge from any of them. -/
theorem exists_source {r : NodeId → NodeId → Prop} (ha : Acyclic r) {l : List NodeId}
    (hl : l ≠ []) : ∃ v ∈ l, ∀ u ∈ l, ¬ r u v := by
  by_contra hno
  push Not at hno
  have : IsStrictOrder NodeId (Relation.TransGen r) :=
    { irrefl := ha, trans := fun _ _ _ => Relation.TransGen.trans }
  have hwf : {v | v ∈ l}.WellFoundedOn (Relation.TransGen r) := l.finite_toSet.wellFoundedOn
  obtain ⟨v, hv⟩ := List.exists_mem_of_ne_nil l hl
  -- edges can be followed backwards only finitely often, as the list is finite
  refine hwf.induction (P := fun _ => False) hv fun w hw ih => ?_
  obtain ⟨u, hu, huw⟩ := hno w hw
  exact ih u hu (.single huw)

/-- The order lists all nodes exactly when the graph is acyclic. -/
theorem length_settled_iff {g : Graph κ} (hw : g.WellFormed) :
    g.settled.length = g.nodes.length ↔ Acyclic g.Leads := by
  constructor
  · intro h
    refine (placed_settled hw).acyclic fun u v hl => ?_
    obtain ⟨c, hc, -, rfl⟩ := hl
    exact (settled_perm hw h).mem_iff.mpr (hw.target_mem hc)
  · intro ha
    rcases (settle_spec hw g.nodes.length (.nil g) (tracks_frontier hw)).2 with hfull | hstuck
    · simpa [settled] using hfull
    · -- if nodes are left over, one of them waits for none of the others
      have hwait : ∀ v ∈ g.ids, v ∉ g.settled → g.openCount g.settled v ≠ 0 := hstuck
      by_contra hne
      have hlt := lt_of_le_of_ne (length_settled_le hw) hne
      have hleft : g.ids.filter (· ∉ g.settled) ≠ [] := by
        intro hnil
        have hsub : g.ids ⊆ g.settled := fun v hv => by
          by_contra hn
          have : v ∈ g.ids.filter (· ∉ g.settled) := List.mem_filter.mpr ⟨hv, by simpa using hn⟩
          rw [hnil] at this
          exact absurd this List.not_mem_nil
        have := (hw.nodup.subperm hsub).length_le
        rw [ids, List.length_map] at this
        omega
      obtain ⟨v, hv, hnone⟩ := exists_source ha hleft
      obtain ⟨hvk, hvn⟩ := List.mem_filter.mp hv
      obtain ⟨u, hl, hu⟩ := exists_leads_of_openCount (hwait v hvk (by simpa using hvn))
      obtain ⟨c, hc, rfl, -⟩ := id hl
      exact hnone _ (List.mem_filter.mpr ⟨hw.source_mem hc, by simpa using hu⟩) hl

/-- The order depends on the numbers of the nodes and on the connections. -/
theorem topologicalOrder?_congr {g h : Graph κ} (hids : h.ids = g.ids)
    (hc : h.connections = g.connections) : h.topologicalOrder? = g.topologicalOrder? := by
  have hl : h.nodes.length = g.nodes.length := by
    simpa [ids] using congrArg List.length hids
  have hf : h.frontier = g.frontier := by rw [frontier, frontier, hids, hc]
  have hn : h.successors = g.successors := by
    funext id
    rw [successors, successors, hc]
  rw [topologicalOrder?, topologicalOrder?, settled, settled, hl, hf, hn]

/-- There is an order exactly when the graph is acyclic. -/
theorem topologicalOrder?_isSome_iff [Kernel κ] {g : Graph κ} (hw : g.WellFormed) :
    g.topologicalOrder?.isSome ↔ Acyclic g.Leads := by
  rw [← length_settled_iff hw, topologicalOrder?]
  have := length_settled_le hw
  split <;> simp <;> omega

/-- The order, where there is one, lists every node once, and no connection leads backwards. -/
theorem placed_of_topologicalOrder? {g : Graph κ} (hw : g.WellFormed) {order : List NodeId}
    (h : g.topologicalOrder? = some order) : g.Placed order ∧ order.Perm g.ids := by
  unfold topologicalOrder? at h
  split at h
  · cases h
  · next hlt =>
    cases h
    -- the order is not too short, and it never is too long
    have := length_settled_le hw
    exact ⟨placed_settled hw, settled_perm hw (by omega)⟩

end Graph

end TextureFlow
