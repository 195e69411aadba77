import Mathlib
import TextureFlow.Catalogue.Basic
import TextureFlow.Proofs.Refusal

/-!
# The order is the least one

While nodes are placed, the ready nodes are those that are left and whose feeders are placed, so the
node that is placed next is the smallest one that may be. This greedy rule determines the order. It
mentions the numbers of the nodes and which node feeds which, so the order of the connections and
their multiplicity play no part in it, and comparing with any other order shows that no smaller
number could stand anywhere before the two part.

The counts are natural numbers, and lowering a count of `0` would go unnoticed.
`Frontier.settleExactly?` is the same loop with a subtraction that refuses to do so.

* `Graph.greedy_settle`: the nodes are placed greedily;
* `Graph.settleExactly?_frontier`: the loop never lowers a count of `0`;
* `Session.order_canonical`: the order of an acyclic graph is complete, forward, greedy and
  lexicographically least, and two graphs with the same nodes and feeders have the same order.
-/

namespace TextureFlow

/-! ## Counts that refuse to go below zero -/

namespace Frontier

/-- Lowers the count of a node that has one above zero. -/
def releaseExactly? (f : Frontier) (id : NodeId) : Option Frontier :=
  match f.count? id with
  | some (_ + 1) => some (f.release id)
  | _ => none

/-- Places ready nodes one after the other, as `settle` does, and gives up where there is no count
to lower. -/
def settleExactly? (successors : NodeId → List NodeId) : Nat → Frontier → Option (List NodeId)
  | 0, _ => some []
  | bound + 1, f =>
    match f.ready with
    | [] => some []
    | node :: rest => do
      let f ← (successors node).foldlM releaseExactly? { f with ready := rest }
      let nodes ← settleExactly? successors bound f
      return node :: nodes

end Frontier

namespace Graph

variable {κ : Type}

/-- Every pending connection finds a count above zero. -/
theorem Tracks.foldlM_releaseExactly? {g : Graph κ} {placed ts : List NodeId} {f : Frontier}
    (h : g.Tracks placed ts f) (ht : ∀ t ∈ ts, t ∈ g.ids ∧ t ∉ placed) :
    ts.foldlM Frontier.releaseExactly? f = some (ts.foldl Frontier.release f) := by
  induction ts generalizing f with
  | nil => rfl
  | cons t ts ih =>
    obtain ⟨hk, hp⟩ := ht t List.mem_cons_self
    have hcount : f.count? t = some (g.openCount placed t + ts.count t + 1) := by
      rw [h.count t hk, List.count_cons_self, Nat.add_assoc]
    have hrelease : f.releaseExactly? t = some (f.release t) := by
      rw [Frontier.releaseExactly?, hcount]
    rw [List.foldlM_cons, hrelease, Option.bind_eq_bind, Option.bind_some, List.foldl_cons]
    exact ih (h.release hk hp) fun u hu => ht u (List.mem_cons_of_mem _ hu)

/-- No count is lowered below zero, however many nodes are placed. -/
theorem settleExactly?_eq {g : Graph κ} (hw : g.WellFormed) (bound : Nat) {placed : List NodeId}
    {f : Frontier} (h : g.Placed placed) (ht : g.Tracks placed [] f) :
    Frontier.settleExactly? g.successors bound f =
      some (Frontier.settle g.successors bound f) := by
  induction bound generalizing placed f with
  | zero => rfl
  | succ bound ih =>
    rw [Frontier.settleExactly?, Frontier.settle]
    cases hr : f.ready with
    | nil => rfl
    | cons node rest =>
      obtain ⟨hnew, htracks, hleft⟩ := h.next hw ht hr
      have hfold := htracks.foldlM_releaseExactly? hleft
      have hrest := ih hnew (htracks.foldl_release hleft)
      simp only [hfold, hrest, Option.bind_eq_bind, Option.bind_some, Option.pure_def]

/-- The order can be computed with counts that refuse to go below zero. -/
theorem settleExactly?_frontier {g : Graph κ} (hw : g.WellFormed) :
    Frontier.settleExactly? g.successors g.nodes.length g.frontier = some g.settled :=
  settleExactly?_eq hw g.nodes.length (.nil g) (tracks_frontier hw)

/-! ## Feeders -/

/-- Of two neighbours that are equal, the first is dropped. -/
theorem eraseReps_cons_cons (a b : NodeId) (l : List NodeId) :
    (a :: b :: l).eraseReps = if a = b then (b :: l).eraseReps else a :: (b :: l).eraseReps := by
  have hloop : ∀ (l : List NodeId) (last : NodeId) (found : List NodeId),
      List.eraseRepsBy.loop (· == ·) last l found =
        found.reverse ++ List.eraseRepsBy.loop (· == ·) last l [] := by
    intro l
    induction l with
    | nil => simp [List.eraseRepsBy.loop]
    | cons c l ih =>
      intro last found
      rw [List.eraseRepsBy.loop, List.eraseRepsBy.loop]
      cases last == c with
      | true => exact ih last found
      | false =>
        simp only
        rw [ih c (last :: found), ih c [last]]
        simp
  simp only [List.eraseReps, List.eraseRepsBy]
  rw [List.eraseRepsBy.loop]
  by_cases hab : a = b
  · simp [hab]
  · rw [beq_eq_false_iff_ne.mpr hab, if_neg hab]
    exact hloop l b [a]

theorem mem_eraseReps {v : NodeId} {l : List NodeId} : v ∈ l.eraseReps ↔ v ∈ l := by
  induction l with
  | nil => rfl
  | cons a l ih =>
    cases l with
    | nil => rfl
    | cons b l =>
      rw [eraseReps_cons_cons]
      split
      · next he => simp [ih, he]
      · simp [ih]

/-- In a sorted list without neighbours that are equal, numbers ascend. -/
theorem pairwise_eraseReps {l : List NodeId} (h : l.Pairwise (· ≤ ·)) :
    l.eraseReps.Pairwise (· < ·) := by
  induction l with
  | nil => exact .nil
  | cons a l ih =>
    cases l with
    | nil => exact List.pairwise_singleton _ _
    | cons b l =>
      obtain ⟨hle, hrest⟩ := List.pairwise_cons.mp h
      rw [eraseReps_cons_cons]
      split
      · exact ih hrest
      · next hne =>
        refine List.pairwise_cons.mpr ⟨fun v hv => ?_, ih hrest⟩
        have hab : a < b := lt_of_le_of_ne (hle b List.mem_cons_self) hne
        rcases List.mem_cons.mp (mem_eraseReps.mp hv) with rfl | hv
        · exact hab
        · exact hab.trans_le ((List.pairwise_cons.mp hrest).1 v hv)

theorem pairwise_feeders (g : Graph κ) (v : NodeId) : (g.feeders v).Pairwise (· < ·) :=
  pairwise_eraseReps (List.pairwise_mergeSort' (· ≤ ·) _)

/-- The feeders of a node are the nodes that a connection leads from. -/
theorem mem_feeders {g : Graph κ} {u v : NodeId} : u ∈ g.feeders v ↔ g.Leads u v := by
  simp only [feeders, mem_eraseReps, List.mem_mergeSort, List.mem_map, List.mem_filter,
    decide_eq_true_eq, Leads]
  constructor
  · rintro ⟨c, ⟨hc, ht⟩, hs⟩
    exact ⟨c, hc, hs, ht⟩
  · rintro ⟨c, hc, hs, ht⟩
    exact ⟨c, ⟨hc, ht⟩, hs⟩

/-! ## Placing greedily -/

/-- The nodes that may be placed next: those that are left and whose feeders are placed. -/
def Free (g : Graph κ) (placed : List NodeId) : Set NodeId :=
  {v | v ∈ g.ids ∧ v ∉ placed ∧ ∀ u ∈ g.feeders v, u ∈ placed}

/-- A node waits for no count exactly when its feeders are placed. -/
theorem openCount_eq_zero_iff {g : Graph κ} {placed : List NodeId} {v : NodeId} :
    g.openCount placed v = 0 ↔ ∀ u ∈ g.feeders v, u ∈ placed := by
  constructor
  · intro h u hu
    exact mem_placed_of_openCount h (mem_feeders.mp hu)
  · intro h
    by_contra hne
    obtain ⟨u, hl, hu⟩ := exists_leads_of_openCount hne
    exact hu (h u (mem_feeders.mpr hl))

/-- The first of the ready nodes is the smallest that may be placed next. -/
theorem Tracks.isLeast {g : Graph κ} {placed rest : List NodeId} {node : NodeId} {f : Frontier}
    (h : g.Tracks placed [] f) (hr : f.ready = node :: rest) : IsLeast (g.Free placed) node := by
  have hready : ∀ v, v ∈ f.ready ↔ v ∈ g.Free placed := by
    intro v
    rw [h.ready v, List.count_nil, Nat.add_zero, openCount_eq_zero_iff]
    rfl
  have hsorted := h.sorted
  rw [hr] at hsorted hready
  refine ⟨(hready node).mp List.mem_cons_self, fun v hv => ?_⟩
  rcases List.mem_cons.mp ((hready v).mpr hv) with rfl | hv
  · exact le_rfl
  · exact ((List.pairwise_cons.mp hsorted).1 v hv).le

/-- A list of nodes each of which was chosen by a rule, given the nodes before it. -/
def Chosen (rule : List NodeId → NodeId → Prop) : List NodeId → List NodeId → Prop
  | _, [] => True
  | placed, v :: rest => rule placed v ∧ Chosen rule (placed ++ [v]) rest

theorem chosen_iff {rule : List NodeId → NodeId → Prop} {placed l : List NodeId} :
    Chosen rule placed l ↔ ∀ i (hi : i < l.length), rule (placed ++ l.take i) l[i] := by
  induction l generalizing placed with
  | nil => simp [Chosen]
  | cons v rest ih =>
    rw [Chosen, ih]
    constructor
    · rintro ⟨hv, hrest⟩ i hi
      cases i with
      | zero => simpa using hv
      | succ i => simpa using hrest i (Nat.lt_of_succ_lt_succ hi)
    · intro h
      refine ⟨by simpa using h 0 (Nat.succ_pos _), fun i hi => ?_⟩
      simpa using h (i + 1) (Nat.succ_lt_succ hi)

/-- Nodes are placed greedily. -/
theorem greedy_settle {g : Graph κ} (hw : g.WellFormed) (bound : Nat) {placed : List NodeId}
    {f : Frontier} (h : g.Placed placed) (ht : g.Tracks placed [] f) :
    Chosen (fun placed v => IsLeast (g.Free placed) v) placed
      (Frontier.settle g.successors bound f) := by
  induction bound generalizing placed f with
  | zero => trivial
  | succ bound ih =>
    rw [Frontier.settle]
    cases hr : f.ready with
    | nil => trivial
    | cons node rest =>
      obtain ⟨hnew, htracks⟩ := h.round hw ht hr
      exact ⟨ht.isLeast hr, ih hnew htracks⟩

/-- Two greedy lists of one length are the same. -/
theorem Chosen.eq_of_least {free : List NodeId → Set NodeId} {placed l l' : List NodeId}
    (h : Chosen (fun placed v => IsLeast (free placed) v) placed l)
    (h' : Chosen (fun placed v => IsLeast (free placed) v) placed l')
    (hl : l.length = l'.length) : l = l' := by
  induction l generalizing placed l' with
  | nil => exact (List.length_eq_zero_iff.mp hl.symm).symm
  | cons v rest ih =>
    cases l' with
    | nil => cases hl
    | cons w rest' =>
      obtain rfl := h.1.unique h'.1
      rw [ih h.2 h'.2 (Nat.succ.inj hl)]

/-- Where another list of the same length first differs from a greedy one, it has a greater
number. -/
theorem Chosen.lex_of_least {free : List NodeId → Set NodeId} {placed l l' : List NodeId}
    (h : Chosen (fun placed v => IsLeast (free placed) v) placed l)
    (h' : Chosen (fun placed v => v ∈ free placed) placed l') (hl : l.length = l'.length) :
    l = l' ∨ List.Lex (· < ·) l l' := by
  induction l generalizing placed l' with
  | nil => exact .inl (List.length_eq_zero_iff.mp hl.symm).symm
  | cons v rest ih =>
    cases l' with
    | nil => cases hl
    | cons w rest' =>
      rcases (h.1.2 h'.1).lt_or_eq with hlt | rfl
      · exact .inr (.rel hlt)
      · exact (ih h.2 h'.2 (Nat.succ.inj hl)).imp (congrArg (v :: ·)) .cons

/-! ## Orders -/

/-- A list of all nodes, each once, in which no connection leads to a node that stands before its
source or is its source. -/
structure Orders (g : Graph κ) (order : List NodeId) : Prop where
  nodup : order.Nodup
  complete : ∀ v, v ∈ order ↔ v ∈ g.ids
  forward : ∀ c ∈ g.connections, order.idxOf c.source.node < order.idxOf c.target.node

namespace Orders

variable {g : Graph κ} {order : List NodeId}

theorem length_eq (hw : g.WellFormed) (h : g.Orders order) : order.length = g.ids.length :=
  ((List.perm_ext_iff_of_nodup h.nodup hw.nodup).mpr h.complete).length_eq

/-- Every node of an order could be placed after those before it. -/
theorem chosen (hw : g.WellFormed) (h : g.Orders order) :
    Chosen (fun placed v => v ∈ g.Free placed) [] order := by
  refine chosen_iff.mpr fun i hi => ?_
  have hidx : order.idxOf order[i] = i := h.nodup.idxOf_getElem i hi
  have hmem : ∀ u ∈ order, u ∈ order.take i ↔ order.idxOf u < i := fun u =>
    List.mem_take_iff_idxOf_lt
  refine ⟨(h.complete _).mp (List.getElem_mem hi), fun hm => ?_, fun u hu => ?_⟩
  · have := (hmem _ (List.getElem_mem hi)).mp hm
    omega
  · obtain ⟨c, hc, rfl, ht⟩ := mem_feeders.mp hu
    have hlt := h.forward c hc
    rw [ht, hidx] at hlt
    exact (hmem _ ((h.complete _).mpr (hw.source_mem hc))).mpr hlt

/-- A list of all nodes that could be placed one after the other is an order. -/
theorem of_chosen (hw : g.WellFormed) (hd : order.Nodup) (hk : ∀ v, v ∈ order ↔ v ∈ g.ids)
    (h : Chosen (fun placed v => v ∈ g.Free placed) [] order) : g.Orders order where
  nodup := hd
  complete := hk
  forward c hc := by
    have ht : c.target.node ∈ order := (hk _).mpr (hw.target_mem hc)
    have hi := List.idxOf_lt_length_iff.mpr ht
    have hfree := chosen_iff.mp h _ hi
    rw [List.getElem_idxOf hi] at hfree
    have hs : c.source.node ∈ order.take (order.idxOf c.target.node) :=
      hfree.2.2 _ (mem_feeders.mpr ⟨c, hc, rfl, rfl⟩)
    exact (List.mem_take_iff_idxOf_lt (List.mem_of_mem_take hs)).mp hs

end Orders

/-- The order that a graph has if it is acyclic: of all orders the greedy one, which is the
lexicographically least. -/
structure Canonical (g : Graph κ) (order : List NodeId) : Prop extends Orders g order where
  /-- At every position stands the smallest node that is left and whose feeders stand before. -/
  greedy : ∀ i (hi : i < order.length), IsLeast (g.Free (order.take i)) order[i]
  least : ∀ other, g.Orders other → order = other ∨ List.Lex (· < ·) order other

/-- A greedy list of all nodes is the canonical order. -/
theorem canonical_of_chosen {g : Graph κ} (hw : g.WellFormed) {order : List NodeId}
    (hd : order.Nodup) (hk : ∀ v, v ∈ order ↔ v ∈ g.ids)
    (h : Chosen (fun placed v => IsLeast (g.Free placed) v) [] order) : g.Canonical order := by
  have hgreedy : ∀ i (hi : i < order.length), IsLeast (g.Free (order.take i)) order[i] :=
    fun i hi => chosen_iff.mp h i hi
  have horders : g.Orders order :=
    .of_chosen hw hd hk (chosen_iff.mpr fun i hi => (hgreedy i hi).1)
  refine ⟨horders, hgreedy, fun other hother => h.lex_of_least (hother.chosen hw) ?_⟩
  rw [horders.length_eq hw, hother.length_eq hw]

/-- An acyclic graph has its canonical order. -/
theorem exists_canonical {g : Graph κ} (hw : g.WellFormed) (ha : Acyclic g.Leads) :
    ∃ order, g.topologicalOrder? = some order ∧ g.Canonical order ∧
      Frontier.settleExactly? g.successors g.nodes.length g.frontier = some order := by
  have hlen := (length_settled_iff hw).mpr ha
  have hperm := settled_perm hw hlen
  have hgreedy := greedy_settle hw g.nodes.length (.nil g) (tracks_frontier hw)
  refine ⟨g.settled, ?_, ?_, settleExactly?_frontier hw⟩
  · rw [topologicalOrder?, if_neg (Nat.not_lt.mpr hlen.ge)]
  · exact canonical_of_chosen hw (hperm.nodup_iff.mpr hw.nodup) (fun v => hperm.mem_iff) hgreedy

/-- What may be placed next depends on the nodes and on which node feeds which. -/
theorem free_congr {g h : Graph κ} (hk : ∀ v, v ∈ h.ids ↔ v ∈ g.ids)
    (hf : ∀ u v, u ∈ h.feeders v ↔ u ∈ g.feeders v) (placed : List NodeId) :
    h.Free placed = g.Free placed := by
  ext v
  simp only [Free, Set.mem_ofPred_eq, hk, hf]

/-- Graphs with the same nodes and feeders have the same canonical order. -/
theorem Canonical.unique {g h : Graph κ} (hw : g.WellFormed) (hw' : h.WellFormed)
    (hk : ∀ v, v ∈ h.ids ↔ v ∈ g.ids) (hf : ∀ u v, u ∈ h.feeders v ↔ u ∈ g.feeders v)
    {order order' : List NodeId} (ho : g.Canonical order) (ho' : h.Canonical order') :
    order' = order := by
  have hchosen : Chosen (fun placed v => IsLeast (g.Free placed) v) [] order :=
    chosen_iff.mpr ho.greedy
  have hchosen' : Chosen (fun placed v => IsLeast (g.Free placed) v) [] order' := by
    refine chosen_iff.mpr fun i hi => ?_
    rw [← free_congr hk hf]
    exact ho'.greedy i hi
  have hids : h.ids.length = g.ids.length :=
    ((List.perm_ext_iff_of_nodup hw'.nodup hw.nodup).mpr hk).length_eq
  exact hchosen'.eq_of_least hchosen (by rw [ho.length_eq hw, ho'.length_eq hw', hids])

end Graph

/-! ## In a session -/

namespace Session

variable {κ : Type} [Kernel κ]

/-- In every graph of every session, if it is acyclic, the order exists and is the canonical one, no
count is lowered below zero on the way to it, and any other graph with the same nodes and the same
feeders has the same order. -/
theorem order_canonical (name : String) (es : List (Edit κ)) {g : Graph κ}
    (hg : g ∈ ((start name).run es).graphs) (ha : Acyclic g.Leads) :
    ∃ order, g.topologicalOrder? = some order ∧ g.Canonical order ∧
      Frontier.settleExactly? g.successors g.nodes.length g.frontier = some order ∧
      ∀ (name' : String) (es' : List (Edit κ)), ∀ h ∈ ((start name').run es').graphs,
        (∀ v, v ∈ h.ids ↔ v ∈ g.ids) → (∀ u v, u ∈ h.feeders v ↔ u ∈ g.feeders v) →
        h.topologicalOrder? = some order := by
  have hw : g.WellFormed := (wellFormed_run (.start name) es).graphs g hg
  obtain ⟨order, ho, hc, hexact⟩ := Graph.exists_canonical hw ha
  refine ⟨order, ho, hc, hexact, fun name' es' h hh hk hf => ?_⟩
  have hw' : h.WellFormed := (wellFormed_run (.start name') es').graphs h hh
  have hleads : h.Leads = g.Leads := by
    funext u v
    rw [← Graph.mem_feeders, ← Graph.mem_feeders, hf]
  obtain ⟨order', ho', hc', -⟩ := Graph.exists_canonical hw' (hleads ▸ ha)
  rw [ho', hc.unique hw hw' hk hf hc']

/-- Two sums are fed by sums that were added after them, one of them twice. -/
def crossing : List (Edit Builtin) := [
  .add (.ofKernel (.math .add)), .add (.ofKernel (.math .add)), .add (.ofKernel (.math .add)),
  .add (.ofKernel (.math .add)), .connect ⟨8, 0⟩ ⟨4, 0⟩, .connect ⟨6, 0⟩ ⟨2, 0⟩,
  .connect ⟨6, 0⟩ ⟨2, 1⟩]

/-- Node `2` runs as soon as both connections from `6` are released, before node `8`. -/
theorem order_canonical_crossing : ∃ g ∈ ((start "crossing").run crossing).graphs,
    Acyclic g.Leads ∧ g.topologicalOrder? = some [6, 2, 8, 4] ∧ g.Canonical [6, 2, 8, 4] ∧
      Frontier.settleExactly? g.successors g.nodes.length g.frontier = some [6, 2, 8, 4] := by
  have hs : ((start "crossing").run crossing).WellFormed := wellFormed_run (.start _) _
  have horder : ((start "crossing").run crossing).graph.topologicalOrder? =
      some [6, 2, 8, 4] := by
    decide +kernel
  have ha := (Graph.topologicalOrder?_isSome_iff hs.graph).mp (by rw [horder]; rfl)
  obtain ⟨order, ho, hc, hexact, -⟩ := order_canonical "crossing" crossing hs.graph_mem ha
  obtain rfl := Option.some.inj (horder.symm.trans ho)
  exact ⟨_, hs.graph_mem, ha, ho, hc, hexact⟩

end Session

end TextureFlow
