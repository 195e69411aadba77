import Mathlib
import TextureFlow.Catalogue.Basic
import TextureFlow.Proofs.Structure

/-!
# What holds of every node of a session

Most edits move nodes about, number them anew, or edit one of them. A property of nodes that none of
this takes away holds of every node, in a graph or held, until the next pass, whatever is edited.
Nor does an edit that is not a pass touch the clock of a graph.

* `Session.Everywhere.stepUnder`, `Session.Everywhere.step`: a stable property is kept by every edit
  that is not a pass;
* `Session.revisions_step`: such an edit leaves the clocks alone;
* `Session.length_graphs_run`: a session on one graph stays on one graph.
-/

namespace TextureFlow

variable {κ : Type}

/-! ## Kinds of edits -/

/-- A draft whose kernel declares its outputs without a value. -/
def Draft.Blank [Kernel κ] (d : Draft κ) : Prop :=
  ∀ p ∈ (Kernel.layout d.kernel).outputs, p.value = none

namespace Edit

/-- Whether an edit is a pass. -/
def IsPass (e : Edit κ) : Prop :=
  ∃ settings, e = .evaluate settings

/-- The draft of an edit that creates a node. -/
def draft? : Edit κ → Option (Draft κ)
  | .create draft | .add draft => some draft
  | _ => none

/-- An edit that creates no node, or one whose outputs start without a value. -/
def Blank [Kernel κ] (e : Edit κ) : Prop :=
  ∀ d, e.draft? = some d → d.Blank

/-- An edit that does not turn to another graph than the first. -/
def OnOneGraph : Edit κ → Prop
  | .focus index _ => index = 0
  | _ => True

end Edit

/-- No kernel of the catalogue declares an output with a value. -/
theorem Builtin.blank (e : Edit Builtin) : e.Blank := by
  intro d _ p hp
  have hall : ∀ k : Builtin, ∀ p ∈ k.layout.outputs, p.value = none := by
    intro k
    cases k <;> simp [layout, imageResult, componentNames, Port.output]
  exact hall d.kernel p hp

/-- A property that no edit of a node and no new number takes away. -/
structure Node.Stable [Kernel κ] (P : Node κ → Prop) : Prop where
  renumber : ∀ (n : Node κ) (id : NodeId), P n → P { n with id }
  apply : ∀ (e : NodeEdit) (n m : Node κ), P n → e.apply n = .ok m → P m

/-- A property that no new number and none of certain edits of a node takes away. -/
structure Node.StableUnder [Kernel κ] (E : NodeEdit → Prop) (P : Node κ → Prop) : Prop where
  renumber : ∀ (n : Node κ) (id : NodeId), P n → P { n with id }
  apply : ∀ e, E e → ∀ n m : Node κ, P n → e.apply n = .ok m → P m

theorem Node.Stable.under [Kernel κ] {P : Node κ → Prop} (h : Node.Stable P) :
    Node.StableUnder (fun _ => True) P :=
  ⟨h.renumber, fun e _ => h.apply e⟩

namespace Session

/-! ## Nodes -/

/-- A property of every node, in a graph or held. -/
structure Everywhere (P : Node κ → Prop) (s : Session κ) : Prop where
  graphs : ∀ g ∈ s.graphs, ∀ n ∈ g.nodes, P n
  held : ∀ n, some n ∈ s.held → P n

namespace Everywhere

variable {P Q : Node κ → Prop} {s : Session κ}

theorem start (name : String) : (Session.start name).Everywhere P := by
  refine ⟨fun g hg n hn => ?_, fun n hn => absurd hn List.not_mem_nil⟩
  rw [List.mem_singleton.mp hg] at hn
  exact absurd hn List.not_mem_nil

theorem mono (hPQ : ∀ n, P n → Q n) (h : s.Everywhere P) : s.Everywhere Q :=
  ⟨fun g hg n hn => hPQ n (h.graphs g hg n hn), fun n hn => hPQ n (h.held n hn)⟩

theorem graph (h : s.Everywhere P) : ∀ n ∈ s.graph.nodes, P n := by
  intro n hn
  rw [Session.graph, List.getD_eq_getElem?_getD] at hn
  cases hg : s.graphs[s.current]? with
  | none =>
    rw [hg] at hn
    exact absurd hn List.not_mem_nil
  | some g =>
    rw [hg] at hn
    exact h.graphs g (List.mem_of_getElem? hg) n hn

theorem setGraph (h : s.Everywhere P) {g : Graph κ} (hg : ∀ n ∈ g.nodes, P n) :
    (s.setGraph g).Everywhere P where
  graphs x hx := by
    rcases List.mem_or_eq_of_mem_set hx with hx | rfl
    · exact h.graphs x hx
    · exact hg
  held := h.held

theorem hold (h : s.Everywhere P) {n : Node κ} (hn : P n) :
    Everywhere P { s with held := s.held ++ [some n] } where
  graphs := h.graphs
  held m hm := by
    rcases List.mem_append.mp hm with hm | hm
    · exact h.held m hm
    · obtain rfl := Option.some.inj (List.mem_singleton.mp hm)
      exact hn

theorem setHeld (h : s.Everywhere P) {index : Nat} {slot : Option (Node κ)}
    (hn : ∀ n, slot = some n → P n) :
    Everywhere P { s with held := s.held.set index slot } where
  graphs := h.graphs
  held m hm := by
    rcases List.mem_or_eq_of_mem_set hm with hm | hm
    · exact h.held m hm
    · exact hn m hm.symm

theorem slot (h : s.Everywhere P) {index : Nat} {n : Node κ} (hn : s.slot? index = some n) :
    P n :=
  h.held n (List.mem_of_getElem? (Option.join_eq_some_iff.mp hn))

theorem focus (h : s.Everywhere P) (index : Nat) (name : Option String) :
    (s.focus index name).Everywhere P := by
  have hs : Everywhere P { s with
      graphs := s.graphs ++ List.replicate (index + 1 - s.graphs.length) (.empty unnamed)
      current := index } := by
    refine ⟨fun g hg n hn => ?_, h.held⟩
    rcases List.mem_append.mp hg with hg | hg
    · exact h.graphs g hg n hn
    · rw [List.eq_of_mem_replicate hg] at hn
      exact absurd hn List.not_mem_nil
  cases name with
  | none => exact hs
  | some name => exact hs.setGraph hs.graph

theorem settleConnect (h : s.Everywhere P) {r : Except ConnectError (Connection × Graph κ)}
    (hr : ∀ c g, r = .ok (c, g) → g.nodes = s.graph.nodes) :
    (s.settleConnect r).2.Everywhere P := by
  cases r with
  | error e => exact h
  | ok cg =>
    have hs := h.setGraph (g := cg.2) (hr cg.1 cg.2 rfl ▸ h.graph)
    exact ⟨hs.graphs, hs.held⟩

theorem settleDisconnect (h : s.Everywhere P) {r : Option (Connection × Graph κ)}
    (hr : ∀ c g, r = some (c, g) → g.nodes = s.graph.nodes) :
    (s.settleDisconnect r).2.Everywhere P := by
  cases r with
  | none => exact h
  | some cg => exact h.setGraph (hr cg.1 cg.2 rfl ▸ h.graph)

variable [Kernel κ] {E : NodeEdit → Prop}

theorem place (h : s.Everywhere P) (hP : Node.StableUnder E P) {n : Node κ} (hn : P n) :
    (s.place n).2.Everywhere P := by
  have hg : ∀ m ∈ (s.graph.insert s.nextId n).nodes, P m := by
    intro m hm
    rcases List.mem_append.mp hm with hm | hm
    · exact h.graph m hm
    · obtain rfl := List.mem_singleton.mp hm
      exact hP.renumber n _ hn
  exact ⟨(h.setGraph hg).graphs, h.held⟩

theorem editNode (h : s.Everywhere P) (hP : Node.StableUnder E P) (p : NodePlace) {e : NodeEdit}
    (hE : E e) : (s.editNode p e).2.Everywhere P := by
  unfold Session.editNode
  cases hn : s.node? p with
  | none => exact h
  | some n =>
    cases he : e.apply n with
    | error err => simpa only [he] using h
    | ok m =>
      simp only [he]
      cases p with
      | slot index =>
        refine h.setHeld fun x hx => ?_
        obtain rfl := Option.some.inj hx
        exact hP.apply e hE n m (h.slot hn) he
      | node id =>
        refine h.setGraph fun x hx => ?_
        rcases Graph.mem_setNode hx with rfl | hx
        · exact hP.apply e hE n x (h.graph n (Graph.mem_of_node? hn).1) he
        · exact h.graph x hx

/-- An edit that is not a pass keeps what such edits do not take away, if it holds of the node that
the edit creates. -/
theorem stepUnder (h : s.Everywhere P) (hP : Node.StableUnder E P) {e : Edit κ} (he : ¬ e.IsPass)
    (hE : ∀ place x, e = .node place x → E x) (hd : ∀ d id, e.draft? = some d → P (d.node id)) :
    (s.step e).2.Everywhere P := by
  cases e with
  | focus index name => exact h.focus index name
  | create draft =>
    have hs := h.hold (hd draft s.nextId rfl)
    exact ⟨hs.graphs, hs.held⟩
  | insert slot =>
    simp only [Session.step]
    cases hn : s.slot? slot with
    | none => exact h
    | some n =>
      -- the slot is emptied first, and the node gets a new number in the graph
      have hs : Everywhere P { s with held := s.held.set slot none } :=
        h.setHeld fun m hm => absurd hm (Option.some_ne_none m).symm
      exact hs.place hP (h.slot hn)
  | add draft =>
    have hs : Everywhere P { s with issued := s.issued + 1 } := ⟨h.graphs, h.held⟩
    exact hs.place hP (hd draft s.nextId rfl)
  | remove id =>
    simp only [Session.step, Session.remove]
    cases hr : s.graph.remove? id with
    | none => exact h
    | some ng =>
      obtain ⟨n, g⟩ := ng
      obtain ⟨hn, rfl⟩ := Graph.remove?_eq_some hr
      refine (h.setGraph ?_).hold (h.graph n (Graph.mem_of_node? hn).1)
      exact fun m hm => h.graph m (List.mem_of_mem_filter hm)
  | connect source target =>
    refine h.settleConnect fun c g hc => ?_
    rw [(Graph.connect_eq_ok hc).2.1]
  | connectPorts source target =>
    refine h.settleConnect fun c g hc => ?_
    obtain ⟨o, i, hc⟩ := Graph.connectPorts_eq_ok hc
    rw [(Graph.connect_eq_ok hc).2.1]
  | disconnect target =>
    exact h.settleDisconnect fun c g hc => Graph.disconnect?_eq_some hc ▸ rfl
  | disconnectId id =>
    exact h.settleDisconnect fun c g hc => Graph.disconnectId?_eq_some hc ▸ rfl
  | node p e => exact h.editNode hP p (hE p e rfl)
  | evaluate settings => exact absurd ⟨settings, rfl⟩ he

/-- An edit that is not a pass keeps what no edit of a node takes away, if it holds of the node that
the edit creates. -/
theorem step (h : s.Everywhere P) (hP : Node.Stable P) {e : Edit κ} (he : ¬ e.IsPass)
    (hd : ∀ d id, e.draft? = some d → P (d.node id)) : (s.step e).2.Everywhere P :=
  h.stepUnder hP.under he (fun _ _ _ => trivial) hd

end Everywhere

/-! ## Clocks -/

/-- The last generation of every graph. -/
def revisions (s : Session κ) : List Nat :=
  s.graphs.map Graph.revision

/-- How many graphs an edit creates. -/
def opened (s : Session κ) : Edit κ → Nat
  | .focus index _ => index + 1 - s.graphs.length
  | _ => 0

theorem length_revisions (s : Session κ) : s.revisions.length = s.graphs.length :=
  List.length_map _

theorem revisions_current {s : Session κ} (h : s.current < s.graphs.length) :
    s.revisions[s.current]? = some s.graph.revision := by
  rw [revisions, List.getElem?_map, List.getElem?_eq_getElem h, graph_eq_getElem h,
    Option.map_some]

theorem revisions_setGraph (s : Session κ) (g : Graph κ) (hg : g.revision = s.graph.revision) :
    (s.setGraph g).revisions = s.revisions := by
  simp only [revisions, setGraph, List.map_set]
  by_cases hc : s.current < s.graphs.length
  · rw [hg, graph_eq_getElem hc, ← List.getElem_map Graph.revision (h := by simpa using hc),
      List.set_getElem_self]
  · exact List.set_eq_of_length_le (by simpa using hc)

theorem revisions_focus (s : Session κ) (index : Nat) (name : Option String) :
    (s.focus index name).revisions =
      s.revisions ++ List.replicate (index + 1 - s.graphs.length) 0 := by
  have hs : revisions { s with
      graphs := s.graphs ++ List.replicate (index + 1 - s.graphs.length) (.empty unnamed)
      current := index } =
        s.revisions ++ List.replicate (index + 1 - s.graphs.length) 0 := by
    simp [revisions, Graph.empty]
  cases name with
  | none => exact hs
  | some name => exact (revisions_setGraph _ { graph _ with name := name } rfl).trans hs

theorem revisions_settleConnect {s : Session κ} {r : Except ConnectError (Connection × Graph κ)}
    (hr : ∀ c g, r = .ok (c, g) → g.revision = s.graph.revision) :
    (s.settleConnect r).2.revisions = s.revisions := by
  cases r with
  | error e => rfl
  | ok cg => exact revisions_setGraph s cg.2 (hr cg.1 cg.2 rfl)

theorem revisions_settleDisconnect {s : Session κ} {r : Option (Connection × Graph κ)}
    (hr : ∀ c g, r = some (c, g) → g.revision = s.graph.revision) :
    (s.settleDisconnect r).2.revisions = s.revisions := by
  cases r with
  | none => rfl
  | some cg => exact revisions_setGraph s cg.2 (hr cg.1 cg.2 rfl)

variable [Kernel κ]

theorem revisions_editNode (s : Session κ) (p : NodePlace) (e : NodeEdit) :
    (s.editNode p e).2.revisions = s.revisions := by
  unfold editNode
  cases s.node? p with
  | none => rfl
  | some n =>
    cases he : e.apply n with
    | error err => simp only [he]
    | ok m =>
      simp only [he]
      cases p with
      | slot index => rfl
      | node id => exact revisions_setGraph s _ rfl

/-- An edit that is not a pass leaves all clocks alone. The clock of a new graph stands at `0`. -/
theorem revisions_step (s : Session κ) {e : Edit κ} (he : ¬ e.IsPass) :
    (s.step e).2.revisions = s.revisions ++ List.replicate (s.opened e) 0 := by
  have hnone : s.revisions ++ List.replicate 0 0 = s.revisions := List.append_nil _
  cases e with
  | focus index name => exact revisions_focus s index name
  | create draft => exact hnone.symm
  | insert slot =>
    refine Eq.trans ?_ hnone.symm
    simp only [step]
    cases s.slot? slot with
    | none => rfl
    | some n => exact revisions_setGraph s (s.graph.insert s.nextId n) rfl
  | add draft =>
    exact (revisions_setGraph s (s.graph.insert (s.nextId + 1) (draft.node s.nextId)) rfl).trans
      hnone.symm
  | remove id =>
    refine Eq.trans ?_ hnone.symm
    simp only [step, remove]
    cases hr : s.graph.remove? id with
    | none => rfl
    | some ng =>
      obtain ⟨n, g⟩ := ng
      obtain ⟨-, rfl⟩ := Graph.remove?_eq_some hr
      exact revisions_setGraph s _ rfl
  | connect source target =>
    refine (revisions_settleConnect fun c g hc => ?_).trans hnone.symm
    rw [(Graph.connect_eq_ok hc).2.1]
  | connectPorts source target =>
    refine (revisions_settleConnect fun c g hc => ?_).trans hnone.symm
    obtain ⟨o, i, hc⟩ := Graph.connectPorts_eq_ok hc
    rw [(Graph.connect_eq_ok hc).2.1]
  | disconnect target =>
    refine (revisions_settleDisconnect fun c g hc => ?_).trans hnone.symm
    rw [Graph.disconnect?_eq_some hc, Graph.drop]
  | disconnectId id =>
    refine (revisions_settleDisconnect fun c g hc => ?_).trans hnone.symm
    rw [Graph.disconnectId?_eq_some hc, Graph.drop]
  | node p e => exact (revisions_editNode s p e).trans hnone.symm
  | evaluate settings => exact absurd ⟨settings, rfl⟩ he

/-! ## Sessions on one graph -/

theorem length_graphs_step {s : Session κ} (h : s.graphs.length = 1) {e : Edit κ}
    (he : e.OnOneGraph) : (s.step e).2.graphs.length = 1 := by
  by_cases hp : e.IsPass
  · obtain ⟨settings, rfl⟩ := hp
    simp only [step, evaluate]
    cases s.graph.evaluate settings with
    | error e => exact h
    | ok gr => simpa [setGraph] using h
  · -- only turning to a graph that is not there opens one
    have ho : s.opened e = 0 := by
      cases e with
      | focus index name =>
        obtain rfl : index = 0 := he
        simp [opened, h]
      | _ => rfl
    rw [← length_revisions, revisions_step s hp, ho, List.replicate_zero, List.append_nil,
      length_revisions, h]

/-- A session on one graph stays on one graph. -/
theorem length_graphs_run {s : Session κ} (h : s.graphs.length = 1) {es : List (Edit κ)}
    (he : ∀ e ∈ es, e.OnOneGraph) : (s.run es).graphs.length = 1 := by
  induction es generalizing s with
  | nil => exact h
  | cons e es ih =>
    exact ih (length_graphs_step h (he e List.mem_cons_self))
      fun x hx => he x (List.mem_cons_of_mem _ hx)

end Session

end TextureFlow
