import Mathlib
import TextureFlow.Proofs.Order

/-!
# When a pass is refused

In a well-formed graph the search for a cycle and the order of execution judge the same relation:
some connection leads from one node to another. A search answers in at most two steps for every node
and one for every connection, it meets no node without a colour, and it finds a cycle exactly when
the order does not exist. So a pass is refused exactly when there is a cycle, and it names one.
-/

namespace TextureFlow

namespace Graph

variable {κ : Type}

/-- Connections that leave different nodes are different. -/
theorem sum_length_successors_le (connections : List Connection) {ids : List NodeId}
    (h : ids.Nodup) :
    (ids.map fun id => (connections.filter fun c => c.source.node = id).length).sum ≤
      connections.length := by
  induction ids generalizing connections with
  | nil => exact Nat.zero_le _
  | cons id rest ih =>
    obtain ⟨hid, hrest⟩ := List.nodup_cons.mp h
    have hothers := ih (connections.filter fun c => c.source.node ≠ id) hrest
    -- connections of the other nodes are among those that do not leave this one
    have hsame : ∀ v ∈ rest, ((connections.filter fun c => c.source.node ≠ id).filter
        fun c => c.source.node = v) = connections.filter fun c => c.source.node = v := by
      intro v hv
      rw [List.filter_filter]
      refine List.filter_congr fun c _ => ?_
      have hvid : v ≠ id := fun e => hid (e ▸ hv)
      by_cases hcv : c.source.node = v <;> simp [hcv, hvid]
    rw [List.map_congr_left fun v hv => congrArg List.length (hsame v hv)] at hothers
    have hsplit := List.length_eq_length_filter_add (l := connections) fun c => c.source.node = id
    rw [List.map_cons, List.sum_cons]
    simp only [ne_eq, decide_not] at hothers
    omega

/-- The bound on the steps of a search exceeds its work. -/
theorem work_search_lt {g : Graph κ} (hw : g.WellFormed) :
    g.search.work g.successors < g.searchBound := by
  have hsum := sum_length_successors_le g.connections hw.nodup
  have hwhite : (g.search.colours.map (Search.whiteWork g.successors)).sum =
      g.nodes.length + (g.ids.map fun id => (g.successors id).length).sum := by
    have hone : ∀ l : List NodeId, (l.map fun id => 1 + (g.successors id).length).sum =
        l.length + (l.map fun id => (g.successors id).length).sum := by
      intro l
      induction l with
      | nil => rfl
      | cons id l ih =>
        simp only [List.map_cons, List.sum_cons, List.length_cons, ih]
        omega
    have := hone g.ids
    rw [ids, List.length_map, ← ids] at this
    rw [← this, search, List.map_map]
    rfl
  have hroots : g.search.roots.length = g.nodes.length := List.length_map _
  have hlen : (g.ids.map fun id => (g.successors id).length).sum ≤ g.connections.length := by
    simpa [successors] using hsum
  have hstack : (g.search.stack.map (Search.stackWork g.successors)).sum = 0 := rfl
  rw [Search.work, hwhite, hroots, hstack, searchBound]
  omega

/-- The search comes to an end. -/
theorem searched_ne_unfinished {g : Graph κ} (hw : g.WellFormed) : g.searched ≠ .unfinished :=
  Search.run_ne_unfinished (work_search_lt hw)

/-- What the search answers is right. -/
theorem searched_correct {g : Graph κ} (hw : g.WellFormed) :
    Search.Correct g.successors g.ids g.searched := by
  refine Search.run_correct (fun u _ v hv => ?_) (Search.sound_init g.successors g.ids) _
  obtain ⟨c, hc, -, rfl⟩ := mem_successors.mp hv
  exact hw.target_mem hc

/-- The search meets no node without a colour. -/
theorem searched_ne_uncoloured {g : Graph κ} (hw : g.WellFormed) (v : NodeId) :
    g.searched ≠ .uncoloured v := fun h => by
  have := searched_correct hw
  rw [h] at this
  exact this

/-- A cycle that is found is one. -/
theorem isCycle_of_findCycle? {g : Graph κ} (hw : g.WellFormed) {nodes : List NodeId}
    (h : g.findCycle? = some nodes) : IsCycle g.Leads nodes := by
  have hc := searched_correct hw
  unfold findCycle? at h
  split at h
  · next found hs =>
    cases h
    rw [hs] at hc
    exact edge_successors g ▸ hc
  · cases h

/-- No cycle is found exactly when there is none. -/
theorem findCycle?_eq_none_iff {g : Graph κ} (hw : g.WellFormed) :
    g.findCycle? = none ↔ Acyclic g.Leads := by
  constructor
  · intro h v hv
    have hc := searched_correct hw
    have hu := searched_ne_unfinished hw
    unfold findCycle? at h
    cases hs : g.searched with
    | cycle nodes => rw [hs] at h; cases h
    | clear =>
      rw [hs] at hc
      -- a node on a cycle is the source of a connection, so it belongs to the graph
      obtain ⟨w, ⟨c, hcm, rfl, -⟩, -⟩ := Relation.TransGen.head'_iff.mp hv
      exact hc _ (hw.source_mem hcm) (edge_successors g ▸ hv)
    | uncoloured u => exact searched_ne_uncoloured hw u hs
    | unfinished => exact hu hs
  · intro ha
    cases hf : g.findCycle? with
    | none => rfl
    | some nodes => exact absurd ha (isCycle_of_findCycle? hw hf).not_acyclic

variable [Kernel κ]

/-- A cyclic graph is not evaluated, and one of its cycles is named. -/
theorem evaluate_of_cyclic {g : Graph κ} (hw : g.WellFormed) (h : ¬ Acyclic g.Leads)
    (settings : Settings) :
    ∃ nodes, IsCycle g.Leads nodes ∧ g.evaluate settings = .error (.cycle nodes) := by
  cases hf : g.findCycle? with
  | none => exact absurd ((findCycle?_eq_none_iff hw).mp hf) h
  | some nodes => exact ⟨nodes, isCycle_of_findCycle? hw hf, by rw [evaluate, hf]⟩

/-- An acyclic graph is evaluated in its order. -/
theorem evaluate_of_acyclic {g : Graph κ} (hw : g.WellFormed) (h : Acyclic g.Leads)
    (settings : Settings) :
    ∃ order, g.topologicalOrder? = some order ∧
      g.evaluate settings = .ok (runNodes settings order (g.restarted, .start order)) := by
  obtain ⟨order, ho⟩ := Option.isSome_iff_exists.mp ((topologicalOrder?_isSome_iff hw).mpr h)
  refine ⟨order, ho, ?_⟩
  rw [evaluate, (findCycle?_eq_none_iff hw).mpr h, ho]
  rfl

end Graph

/-! ## In a session -/

namespace Session

variable {κ : Type} [Kernel κ]

/-- In every graph of every session the search ends, meets only nodes that have a colour, and finds
a cycle, which is one, exactly when there is one, which is exactly when the graph has no order. A
pass is refused exactly then; it names such a cycle and leaves everything as it was. -/
theorem refusal_exact (name : String) (es : List (Edit κ)) :
    let s := (Session.start name).run es
    (∀ g ∈ s.graphs,
      g.searched ≠ .unfinished ∧ (∀ v, g.searched ≠ .uncoloured v) ∧
      (g.findCycle? = none ↔ Acyclic g.Leads) ∧
      (g.topologicalOrder?.isSome ↔ Acyclic g.Leads) ∧
      ∀ nodes, g.findCycle? = some nodes → IsCycle g.Leads nodes) ∧
    ∀ settings,
      (¬ Acyclic s.graph.Leads → ∃ nodes, IsCycle s.graph.Leads nodes ∧
        s.step (.evaluate settings) = (.evaluated (.error (.cycle nodes)), s)) ∧
      (Acyclic s.graph.Leads → ∃ g r,
        s.step (.evaluate settings) = (.evaluated (.ok r), s.setGraph g)) := by
  intro s
  have hs : s.WellFormed := wellFormed_run (.start name) es
  refine ⟨fun g hg => ?_, fun settings => ⟨?_, ?_⟩⟩
  · have hw := hs.graphs g hg
    exact ⟨Graph.searched_ne_unfinished hw, Graph.searched_ne_uncoloured hw,
      Graph.findCycle?_eq_none_iff hw, Graph.topologicalOrder?_isSome_iff hw,
      fun nodes h => Graph.isCycle_of_findCycle? hw h⟩
  · intro hc
    obtain ⟨nodes, hn, he⟩ := Graph.evaluate_of_cyclic hs.graph hc settings
    exact ⟨nodes, hn, by rw [step, evaluate, he]⟩
  · intro ha
    obtain ⟨order, -, he⟩ := Graph.evaluate_of_acyclic hs.graph ha settings
    exact ⟨_, _, by rw [step, evaluate, he]⟩

end Session

end TextureFlow
