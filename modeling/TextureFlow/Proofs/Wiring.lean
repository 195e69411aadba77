import Mathlib
import TextureFlow.Catalogue.Basic
import TextureFlow.Proofs.Dataflow
import TextureFlow.Proofs.Fate
import TextureFlow.Proofs.LeastOrder

/-!
# The connections of a graph, told by its history

A graph has the connections that were made and that nothing has ended since. A connection is ended
by a later one into its input, by being disconnected, and by the removal of a node at one of its
ends. `Session.Live` says this by the edits of a history and what came of them, without a look at
the list that the graph keeps.

* `Session.rewiring_step`: what an edit does to the connections, one case for each edit;
* `Session.Wired`: the connections of a session are among those made, which are numbered in order;
* `Session.mem_links_run`: the list of a graph holds the live connections;
* `Session.relinked_step`: where an edit puts a new connection, and that it moves no other;
* `Session.wiring_run`: this for every session, with what can be read off the list.
-/

namespace TextureFlow

/-- The connection that an edit made. -/
def Outcome.connection? : Outcome → Option Connection
  | .connected c => some c
  | _ => none

/-- Whether an edit cuts a connection of the graph that it edits. -/
def Edit.cuts {κ : Type} : Edit κ → Connection → Bool
  | .remove id, c => c.involves id
  | .disconnect target, c => c.target = target
  | .disconnectId id, c => c.id = id
  | _, _ => false

/-! ## A list of connections -/

/-- What may become of a list of connections when one is made, if any, and some are ended. -/
inductive Relinked (ended : Connection → Bool) :
    Option Connection → List Connection → List Connection → Prop where
  /-- A new connection stands where the one stood that fed its input before. -/
  | replaced {c d : Connection} {before after : List Connection} (same : d.target = c.target) :
      Relinked ended (some c) (before ++ d :: after) (before ++ c :: after)
  /-- A new connection into a free input comes last. -/
  | appended {c : Connection} {cs : List Connection} (free : ∀ d ∈ cs, d.target ≠ c.target) :
      Relinked ended (some c) cs (cs ++ [c])
  /-- The connections that are left keep their order. -/
  | thinned {cs : List Connection} : Relinked ended none cs (cs.filter fun c => !ended c)

namespace Graph

variable {κ : Type}

theorem relinked_placed {ended : Connection → Bool} {c : Connection} {cs : List Connection}
    (h : (cs.map Connection.target).Nodup) : Relinked ended (some c) cs (placed c cs) := by
  unfold placed
  by_cases hany : (cs.any fun d => d.target = c.target) = true
  · rw [if_pos hany]
    obtain ⟨d, hd, ht⟩ := List.any_eq_true.mp hany
    have hdc : d.target = c.target := of_decide_eq_true ht
    obtain ⟨before, after, rfl⟩ := List.append_of_mem hd
    -- no other connection has this target, so all others are left as they are
    have hkeep : ∀ xs : List Connection, d.target ∉ xs.map Connection.target →
        xs.map (fun x => if x.target = c.target then c else x) = xs := fun xs hne =>
      (List.map_congr_left fun x hx => if_neg fun he : x.target = c.target =>
        hne (he.trans hdc.symm ▸ List.mem_map_of_mem hx)).trans (List.map_id xs)
    rw [List.map_append, List.map_cons] at h ⊢
    obtain ⟨-, hafter, hapart⟩ := List.nodup_append.mp h
    have hbefore : d.target ∉ before.map Connection.target := fun hmem =>
      hapart _ hmem _ List.mem_cons_self rfl
    rw [hkeep before hbefore, hkeep after (List.nodup_cons.mp hafter).1, if_pos hdc]
    exact .replaced hdc
  · rw [if_neg hany]
    exact .appended fun d hd ht => hany (List.any_eq_true.mpr ⟨d, hd, decide_eq_true ht⟩)

/-- What can be read off the connections of a graph. -/
structure Viewed (g : Graph κ) : Prop where
  target : ∀ target c, g.connectionTo? target = some c ↔ c ∈ g.connections ∧ c.target = target
  source : ∀ source, (g.connectionsFrom source).Sublist g.connections ∧
    ∀ c, c ∈ g.connectionsFrom source ↔ c ∈ g.connections ∧ c.source = source
  node : ∀ id, (g.connectionsOf id).Sublist g.connections ∧
    ∀ c, c ∈ g.connectionsOf id ↔ c ∈ g.connections ∧ (c.source.node = id ∨ c.target.node = id)
  feeders : ∀ id, (g.feeders id).Pairwise (· < ·) ∧
    ∀ u, u ∈ g.feeders id ↔ ∃ c ∈ g.connections, c.source.node = u ∧ c.target.node = id

theorem WellFormed.viewed {g : Graph κ} (hw : g.WellFormed) : g.Viewed where
  target _ _ := connectionTo?_eq_some_iff hw
  source _ := ⟨List.filter_sublist, fun c => by simp [connectionsFrom]⟩
  node _ := ⟨List.filter_sublist, fun c => by simp [connectionsOf, Connection.involves]⟩
  feeders id := ⟨pairwise_feeders g id, fun _ => mem_feeders⟩

end Graph

namespace Session

/-! ## What an edit does -/

section

variable {κ : Type} {s t : Session κ}

/-- The connections of a graph of a session, by its position. -/
def links (s : Session κ) (a : Nat) : List Connection :=
  s.graphs[a]?.elim [] Graph.connections

theorem links_of_getElem? {a : Nat} {g : Graph κ} (hg : s.graphs[a]? = some g) :
    s.links a = g.connections := by
  rw [links, hg, Option.elim_some]

theorem links_current (h : s.WellFormed) : s.links s.current = s.graph.connections := by
  rw [links_of_getElem? (List.getElem?_eq_getElem h.current), graph_eq_getElem h.current]

theorem links_setGraph (h : s.WellFormed) (g : Graph κ) (a : Nat) :
    (s.setGraph g).links a = if s.current = a then g.connections else s.links a := by
  have hc := h.current
  unfold links setGraph
  split
  · next ha =>
    subst ha
    rw [List.getElem?_set_self hc, Option.elim_some]
  · next ha => rw [List.getElem?_set_ne ha]

theorem links_setGraph_same (h : s.WellFormed) {g : Graph κ}
    (hg : g.connections = s.graph.connections) (a : Nat) :
    (s.setGraph g).links a = s.links a := by
  rw [links_setGraph h]
  split
  · next ha => rw [hg, ← ha, links_current h]
  · rfl

/-- A graph that is opened has no connections. -/
theorem links_focus (h : s.WellFormed) (index : Nat) (name : Option String) (a : Nat) :
    (s.focus index name).links a = s.links a := by
  have hopen : (s.focus index none).links a = s.links a := by
    simp only [focus, links, List.getElem?_append, List.getElem?_replicate]
    split
    · rfl
    · next ha =>
      rw [List.getElem?_eq_none (not_lt.mp ha)]
      split <;> rfl
  cases name with
  | none => exact hopen
  | some name =>
    have hset : s.focus index (some name) = (s.focus index none).setGraph
        { graph (s.focus index none) with name } := rfl
    rw [hset, links_setGraph_same (h.focus index none) (by rfl), hopen]

variable {e : Edit κ}

/-- What an edit does to the connections of all graphs. -/
inductive Rewiring (s t : Session κ) (e : Edit κ) (new : Option Connection) : Prop where
  /-- A new connection, with the next number, is placed in the current graph. -/
  | made {c : Connection} (given : new = some c) (fresh : c.id = s.connected)
      (next : t.connected = s.connected + 1)
      (placed : ∀ a, t.links a = if s.current = a then Graph.placed c (s.links a) else s.links a)
  /-- Those that the edit cuts are gone from the current graph. -/
  | cut (nothing : new = none) (same : t.connected = s.connected)
      (left : ∀ a, t.links a =
        if s.current = a then (s.links a).filter fun c => !e.cuts c else s.links a)

theorem Rewiring.mem {new : Option Connection} (hr : Rewiring s t e new) {a : Nat} {c : Connection}
    (hc : c ∈ t.links a) : new = some c ∨ c ∈ s.links a := by
  cases hr with
  | made given _ _ placed =>
    rw [placed] at hc
    split at hc
    · rcases Graph.mem_placed hc with rfl | hc
      · exact .inl given
      · exact .inr hc
    · exact .inr hc
  | cut _ _ left =>
    rw [left] at hc
    split at hc
    · exact .inr (List.mem_of_mem_filter hc)
    · exact .inr hc

/-- An edit that finds nothing to cut. -/
theorem Rewiring.kept (h : s.WellFormed) (hcuts : ∀ c ∈ s.graph.connections, e.cuts c = false)
    (hsame : t.connected = s.connected) (hlinks : ∀ a, t.links a = s.links a) :
    Rewiring s t e none := by
  refine .cut rfl hsame fun a => ?_
  rw [hlinks]
  split
  · next ha =>
    subst ha
    rw [links_current h, List.filter_eq_self.mpr fun c hc => by rw [hcuts c hc, Bool.not_false]]
  · rfl

/-- An edit that leaves, of the connections of the current graph, those that it does not cut. -/
theorem Rewiring.left (h : s.WellFormed) {g : Graph κ}
    (hg : g.connections = s.graph.connections.filter fun c => !e.cuts c)
    (hsame : t.connected = s.connected) (hlinks : t.graphs = (s.setGraph g).graphs) :
    Rewiring s t e none := by
  refine .cut rfl hsame fun a => ?_
  have ht : t.links a = (s.setGraph g).links a := by rw [links, hlinks, links]
  rw [ht, links_setGraph h]
  split
  · next ha => rw [hg, ← ha, links_current h]
  · rfl

theorem rewiring_remove (h : s.WellFormed) (id : NodeId) :
    Rewiring s (s.remove id).2 (.remove id) (s.remove id).1.connection? := by
  unfold Session.remove
  cases hr : s.graph.remove? id with
  | none =>
    refine .kept h (fun c hc => ?_) rfl fun _ => rfl
    -- the ends of a connection are in the graph, and the node is not
    have hout : id ∉ s.graph.ids := fun hid => by
      obtain ⟨n, hn⟩ := Graph.node?_isSome_iff.mpr hid
      simp [Graph.remove?, hn] at hr
    have hs : c.source.node ≠ id := fun he => hout (he ▸ h.graph.source_mem hc)
    have ht : c.target.node ≠ id := fun he => hout (he ▸ h.graph.target_mem hc)
    simp [Edit.cuts, Connection.involves, hs, ht]
  | some ng => exact .left h (by rw [(Graph.remove?_eq_some hr).2]; rfl) rfl rfl

theorem rewiring_settleConnect (h : s.WellFormed) (hcuts : ∀ c, e.cuts c = false)
    {r : Except ConnectError (Connection × Graph κ)}
    (hr : ∀ c g, r = .ok (c, g) →
      c.id = s.connected ∧ g.connections = Graph.placed c s.graph.connections) :
    Rewiring s (s.settleConnect r).2 e (s.settleConnect r).1.connection? := by
  cases r with
  | error err => exact .kept h (fun c _ => hcuts c) rfl fun _ => rfl
  | ok cg =>
    obtain ⟨hid, hg⟩ := hr cg.1 cg.2 rfl
    refine .made rfl hid rfl fun a => (links_setGraph h cg.2 a).trans ?_
    split
    · next ha => rw [hg, ← ha, links_current h]
    · rfl

/-- A disconnection drops the connection that it finds, and no other is meant. -/
theorem rewiring_settleDisconnect (h : s.WellFormed)
    (hone : ∀ c ∈ s.graph.connections, ∀ d ∈ s.graph.connections,
      e.cuts c = true → (e.cuts d = true ↔ d.target = c.target)) :
    Rewiring s
      (s.settleDisconnect ((s.graph.connections.find? e.cuts).map fun c => (c, s.graph.drop c))).2 e
      (s.settleDisconnect
        ((s.graph.connections.find? e.cuts).map fun c => (c, s.graph.drop c))).1.connection? := by
  cases hf : s.graph.connections.find? e.cuts with
  | none =>
    refine .kept h (fun c hc => ?_) rfl fun _ => rfl
    exact Bool.eq_false_iff.mpr (List.find?_eq_none.mp hf c hc)
  | some c =>
    refine .left h (g := s.graph.drop c) (List.filter_congr fun d hd => ?_) rfl rfl
    have hiff := hone c (List.mem_of_find?_eq_some hf) d hd (List.find?_some hf)
    rw [Bool.eq_iff_iff, decide_eq_true_iff, Bool.not_eq_true', ← Bool.not_eq_true, hiff]

variable [Kernel κ]

theorem rewiring_editNode (h : s.WellFormed) (p : NodePlace) (e : NodeEdit) :
    Rewiring s (s.editNode p e).2 (.node p e) (s.editNode p e).1.connection? := by
  have hkept : ∀ {t : Session κ}, t.connected = s.connected → (∀ a, t.links a = s.links a) →
      Rewiring s t (.node p e) none := .kept h fun _ _ => rfl
  unfold Session.editNode
  cases s.node? p with
  | none => exact hkept rfl fun _ => rfl
  | some n =>
    cases he : e.apply n with
    | error err =>
      simp only [he]
      exact hkept rfl fun _ => rfl
    | ok m =>
      simp only [he]
      cases p with
      | slot index => exact hkept rfl fun _ => rfl
      | node id => exact hkept rfl (links_setGraph_same h rfl)

/-- What an edit does to the connections, if no two of the current graph have one number. -/
theorem rewiring_step (h : s.WellFormed)
    (hid : ∀ c ∈ s.graph.connections, ∀ d ∈ s.graph.connections, c.id = d.id → c = d)
    (e : Edit κ) : Rewiring s (s.step e).2 e (s.step e).1.connection? := by
  cases e with
  | focus index name =>
    refine .kept h (fun _ _ => rfl) ?_ (links_focus h index name)
    cases name <;> rfl
  | create draft => exact .kept h (fun _ _ => rfl) rfl fun _ => rfl
  | insert slot =>
    simp only [step]
    cases s.slot? slot with
    | none => exact .kept h (fun _ _ => rfl) rfl fun _ => rfl
    | some n => exact .kept h (fun _ _ => rfl) rfl (links_setGraph_same h rfl)
  | add draft => exact .kept h (fun _ _ => rfl) rfl (links_setGraph_same h rfl)
  | remove id => exact rewiring_remove h id
  | connect source target =>
    refine rewiring_settleConnect h (fun _ => rfl) fun c g hc => ?_
    obtain ⟨rfl, rfl, -⟩ := Graph.connect_eq_ok hc
    exact ⟨rfl, rfl⟩
  | connectPorts source target =>
    refine rewiring_settleConnect h (fun _ => rfl) fun c g hc => ?_
    obtain ⟨output, input, hc⟩ := Graph.connectPorts_eq_ok hc
    obtain ⟨rfl, rfl, -⟩ := Graph.connect_eq_ok hc
    exact ⟨rfl, rfl⟩
  | disconnect target =>
    refine rewiring_settleDisconnect (e := .disconnect target) h fun c hc d hd hcut => ?_
    obtain rfl : c.target = target := of_decide_eq_true hcut
    exact decide_eq_true_iff
  | disconnectId id =>
    refine rewiring_settleDisconnect (e := .disconnectId id) h fun c hc d hd hcut => ?_
    obtain rfl : c.id = id := of_decide_eq_true hcut
    refine decide_eq_true_iff.trans ⟨fun he => ?_, fun he => ?_⟩
    · rw [hid d hd c hc he]
    · rw [List.inj_on_of_nodup_map h.graph.single hd hc he]
  | node p e => exact rewiring_editNode h p e
  | evaluate settings =>
    simp only [step, Session.evaluate]
    cases he : s.graph.evaluate settings with
    | error err => exact .kept h (fun _ _ => rfl) rfl fun _ => rfl
    | ok gr =>
      have hc := (Graph.frames_evaluate h.graph he).2
      exact .kept h (fun _ _ => rfl) rfl (links_setGraph_same h hc)

/-! ## Connections that are made -/

/-- The connections that a history makes, in their order. -/
def successes (s : Session κ) (es : List (Edit κ)) : List Connection :=
  (s.trace es).filterMap fun x => x.1.connection?

/-- The connections that were made are numbered in their order, and those of the graphs are among
them. -/
structure Wired (cs : List Connection) (s : Session κ) : Prop where
  wellFormed : s.WellFormed
  numbered : cs.map Connection.id = List.range s.connected
  made : ∀ a, ∀ c ∈ s.links a, c ∈ cs

namespace Wired

variable {cs : List Connection}

omit [Kernel κ] in
theorem start (name : String) : Wired [] (Session.start name : Session κ) where
  wellFormed := .start name
  numbered := rfl
  made a c hc := by cases a <;> exact absurd hc List.not_mem_nil

omit [Kernel κ] in
theorem id_of_getElem? (h : Wired cs s) {k : Nat} {c : Connection} (hk : cs[k]? = some c) :
    c.id = k := by
  have hid : (cs.map Connection.id)[k]? = some c.id := by
    rw [List.getElem?_map, hk, Option.map_some]
  rw [h.numbered] at hid
  obtain ⟨hk, hid⟩ := List.getElem?_eq_some_iff.mp hid
  rw [← hid, List.getElem_range]

omit [Kernel κ] in
theorem eq_of_id (h : Wired cs s) {c d : Connection} (hc : c ∈ cs) (hd : d ∈ cs)
    (hid : c.id = d.id) : c = d :=
  List.inj_on_of_nodup_map (h.numbered ▸ List.nodup_range) hc hd hid

omit [Kernel κ] in
theorem nodup_targets (h : Wired cs s) (a : Nat) :
    ((s.links a).map Connection.target).Nodup := by
  unfold links
  cases hg : s.graphs[a]? with
  | none => exact List.nodup_nil
  | some g => exact (h.wellFormed.graphs g (List.mem_of_getElem? hg)).single

omit [Kernel κ] in
theorem nodup_ids (h : Wired cs s) (a : Nat) : ((s.links a).map Connection.id).Nodup :=
  (h.nodup_targets a).of_map.map_on fun c hc d hd => h.eq_of_id (h.made a c hc) (h.made a d hd)

theorem rewiring (h : Wired cs s) (e : Edit κ) :
    Rewiring s (s.step e).2 e (s.step e).1.connection? := by
  refine rewiring_step h.wellFormed (fun c hc d hd => ?_) e
  rw [← links_current h.wellFormed] at hc hd
  exact h.eq_of_id (h.made _ c hc) (h.made _ d hd)

/-- Every edit keeps the connections among those that were made. -/
theorem step (h : Wired cs s) (e : Edit κ) :
    Wired (cs ++ (s.step e).1.connection?.toList) (s.step e).2 := by
  constructor
  case wellFormed => exact wellFormed_step h.wellFormed e
  case numbered =>
    rcases h.rewiring e with ⟨hnew, hfresh, hnext, -⟩ | ⟨hnew, hsame, -⟩
    · rw [hnew, List.map_append, h.numbered, hnext, List.range_succ, ← hfresh]
      rfl
    · rw [hnew, hsame, Option.toList_none, List.append_nil, h.numbered]
  case made =>
    intro a c hc
    rcases (h.rewiring e).mem hc with hnew | hold
    · rw [hnew]
      exact List.mem_append_right _ List.mem_cons_self
    · exact List.mem_append_left _ (h.made a c hold)

/-- Every history keeps the connections among those that were made. -/
theorem run (h : Wired cs s) (es : List (Edit κ)) : Wired (cs ++ s.successes es) (s.run es) := by
  induction es generalizing cs s with
  | nil => exact (List.append_nil cs).symm ▸ h
  | cons e es ih =>
    have hs := ih (h.step e)
    have hcons : s.successes (e :: es) =
        (s.step e).1.connection?.toList ++ (s.step e).2.successes es := by
      rw [successes, trace, List.filterMap_cons, successes]
      cases (s.step e).1.connection? <;> rfl
    rwa [List.append_assoc, ← hcons] at hs

end Wired

/-! ## Connections that are live -/

/-- The connection that an edit makes in a graph. -/
def made? (s : Session κ) (a : Nat) (e : Edit κ) : Option Connection :=
  if s.current = a then (s.step e).1.connection? else none

/-- Whether an edit ends a connection of a graph: it makes another one into the same input, or it
cuts this one. -/
def ends (s : Session κ) (a : Nat) (e : Edit κ) (c : Connection) : Bool :=
  match s.made? a e with
  | some d => d.target = c.target
  | none => s.current = a && e.cuts c

/-- At a moment of a history, an edit is performed on a session. -/
def Moment (s : Session κ) (es : List (Edit κ)) (k : Nat) (t : Session κ) (e : Edit κ) : Prop :=
  es[k]? = some e ∧ t = s.run (es.take k)

/-- A connection of a graph that was made in a history and that no later edit ended. -/
def Live (s : Session κ) (a : Nat) (es : List (Edit κ)) (c : Connection) : Prop :=
  ∃ k t e, s.Moment es k t e ∧ t.made? a e = some c ∧
    ∀ l u x, k < l → s.Moment es l u x → u.ends a x c = false

theorem moment_concat {es : List (Edit κ)} {x : Edit κ} {k : Nat} :
    s.Moment (es ++ [x]) k t e ↔
      s.Moment es k t e ∨ k = es.length ∧ t = s.run es ∧ e = x := by
  unfold Moment
  rcases lt_trichotomy k es.length with hk | rfl | hk
  · rw [List.getElem?_append_left hk, List.take_append_of_le_length hk.le]
    simp [hk.ne]
  · simp [eq_comm, and_comm]
  · have hnone : (es ++ [x])[k]? = none := List.getElem?_eq_none (by simpa using hk)
    rw [hnone, List.getElem?_eq_none hk.le]
    simp [hk.ne']

theorem moment_last {es : List (Edit κ)} {x : Edit κ} :
    s.Moment (es ++ [x]) es.length (s.run es) x :=
  moment_concat.mpr (.inr ⟨rfl, rfl, rfl⟩)

theorem lt_of_moment {es : List (Edit κ)} {k : Nat} (h : s.Moment es k t e) : k < es.length :=
  (List.getElem?_eq_some_iff.mp h.1).1

/-- The live connections after one more edit. -/
theorem live_concat {a : Nat} {es : List (Edit κ)} {x : Edit κ} {c : Connection} :
    s.Live a (es ++ [x]) c ↔
      (s.run es).made? a x = some c ∨ s.Live a es c ∧ (s.run es).ends a x c = false := by
  constructor
  · rintro ⟨k, t, e, hk, hmade, hlater⟩
    rcases moment_concat.mp hk with hk | ⟨-, rfl, rfl⟩
    · have hlast := hlater es.length _ x (lt_of_moment hk) moment_last
      exact .inr ⟨⟨k, t, e, hk, hmade, fun l u y hl hy =>
        hlater l u y hl (moment_concat.mpr (.inl hy))⟩, hlast⟩
    · exact .inl hmade
  · rintro (hmade | ⟨⟨k, t, e, hk, hmade, hlater⟩, hlast⟩)
    · refine ⟨es.length, _, x, moment_last, hmade, fun l u y hl hy => ?_⟩
      have hlt := lt_of_moment hy
      rw [List.length_append, List.length_singleton] at hlt
      omega
    · refine ⟨k, t, e, moment_concat.mpr (.inl hk), hmade, fun l u y hl hy => ?_⟩
      rcases moment_concat.mp hy with hy | ⟨-, rfl, rfl⟩
      · exact hlater l u y hl hy
      · exact hlast

theorem not_live_nil {a : Nat} {c : Connection} : ¬ s.Live a [] c := by
  rintro ⟨k, t, e, hk, -⟩
  exact Nat.not_lt_zero k (lt_of_moment hk)

variable {cs : List Connection}

/-- What becomes of the list of a graph: the connection that is made is placed, or those that are
ended are left out. -/
theorem links_step (h : Wired cs s) (a : Nat) (e : Edit κ) :
    (∃ c, s.made? a e = some c ∧ (s.step e).2.links a = Graph.placed c (s.links a)) ∨
      s.made? a e = none ∧
        (s.step e).2.links a = (s.links a).filter fun c => !s.ends a e c := by
  by_cases ha : s.current = a
  · rcases h.rewiring e with @⟨c, hnew, -, -, hplaced⟩ | ⟨hnew, -, hleft⟩
    · exact .inl ⟨c, by rw [made?, if_pos ha, hnew], by rw [hplaced, if_pos ha]⟩
    · have hmade : s.made? a e = none := by rw [made?, if_pos ha, hnew]
      have hends : s.ends a e = e.cuts := by
        funext c
        simp [ends, hmade, ha]
      exact .inr ⟨hmade, by rw [hleft, if_pos ha, hends]⟩
  · -- another graph is edited
    have hmade : s.made? a e = none := if_neg ha
    have hends : ∀ c, s.ends a e c = false := fun c => by simp [ends, hmade, ha]
    have hsame : (s.step e).2.links a = s.links a := by
      rcases h.rewiring e with ⟨-, -, -, hplaced⟩ | ⟨-, -, hleft⟩
      · rw [hplaced, if_neg ha]
      · rw [hleft, if_neg ha]
    exact .inr ⟨hmade, by simp [hsame, hends]⟩

/-- After an edit a graph has the connection that was made in it, and those that were not ended. -/
theorem mem_links_step (h : Wired cs s) (a : Nat) (e : Edit κ) {c : Connection} :
    c ∈ (s.step e).2.links a ↔
      s.made? a e = some c ∨ c ∈ s.links a ∧ s.ends a e c = false := by
  rcases links_step h a e with ⟨d, hmade, hplaced⟩ | ⟨hmade, hleft⟩
  · simp [hplaced, ends, hmade, Graph.mem_placed_iff, eq_comm]
  · simp [hleft, hmade]

/-- An edit puts a new connection where it belongs, and moves no other. -/
theorem relinked_step (h : Wired cs s) (a : Nat) (e : Edit κ) :
    Relinked (s.ends a e) (s.made? a e) (s.links a) ((s.step e).2.links a) := by
  rcases links_step h a e with ⟨d, hmade, hplaced⟩ | ⟨hmade, hleft⟩
  · rw [hmade, hplaced]
    exact Graph.relinked_placed (h.nodup_targets a)
  · rw [hmade, hleft]
    exact .thinned

/-- The list of a graph holds the live connections of a history. -/
theorem mem_links_run (h : Wired cs s) {a : Nat} (hnew : s.links a = []) (es : List (Edit κ))
    {c : Connection} : c ∈ (s.run es).links a ↔ s.Live a es c := by
  induction es using List.reverseRecOn with
  | nil => exact iff_of_false (hnew ▸ List.not_mem_nil) not_live_nil
  | append_singleton es x ih =>
    have hrun : s.run (es ++ [x]) = ((s.run es).step x).2 := by
      rw [Session.run, List.foldl_concat, Session.run]
    rw [hrun, mem_links_step (h.run es), live_concat, ih]

/-- Disconnecting by a number finds the connection of this number that the current graph has. -/
theorem step_disconnectId (h : Wired cs s) {k : Nat} {c : Connection} (hk : cs[k]? = some c) :
    (c ∈ s.graph.connections → (s.step (.disconnectId k)).1 = .disconnected c) ∧
      (c ∉ s.graph.connections → s.step (.disconnectId k) = (.absent, s)) := by
  have hfound : ∀ d ∈ s.graph.connections, d.id = k → d = c := by
    intro d hd hid
    rw [← links_current h.wellFormed] at hd
    exact h.eq_of_id (h.made _ d hd) (List.mem_of_getElem? hk)
      (hid.trans (h.id_of_getElem? hk).symm)
  simp only [step, Graph.disconnectId?]
  cases hf : s.graph.connections.find? fun d => d.id = k with
  | none =>
    refine ⟨fun hc => ?_, fun _ => rfl⟩
    simpa [h.id_of_getElem? hk] using List.find?_eq_none.mp hf c hc
  | some d =>
    have hd := List.mem_of_find?_eq_some hf
    obtain rfl := hfound d hd (by simpa using List.find?_some hf)
    exact ⟨fun _ => rfl, fun hc => absurd hd hc⟩

end

/-! ## Histories -/

section

variable {κ : Type} [Kernel κ]

/-- In every session, the connections of a graph are the live ones of the history, each once. A new
connection takes the place of the one that it displaces or comes last, and all others keep their
order. The number of a connection disconnects it while it is live in the current graph, and finds
nothing and changes nothing when it is not. What can be read off a graph is read off this list. -/
theorem wiring_run (name : String) (es : List (Edit κ)) :
    let s := (start name).run es
    (∀ a g, s.graphs[a]? = some g →
      (∀ c, c ∈ g.connections ↔ (start name).Live a es c) ∧
        (g.connections.map Connection.id).Nodup ∧
        g.connections.length = {c | (start name).Live a es c}.ncard ∧ g.Viewed) ∧
    (∀ a e, Relinked (s.ends a e) (s.made? a e) (s.links a) ((s.step e).2.links a)) ∧
    ∀ k c, ((start name).successes es)[k]? = some c → c.id = k ∧
      ((start name).Live s.current es c → (s.step (.disconnectId k)).1 = .disconnected c) ∧
      (¬ (start name).Live s.current es c → s.step (.disconnectId k) = (.absent, s)) := by
  intro s
  have hs : Wired ((start name).successes es) s := (Wired.start name).run es
  have hlive : ∀ a c, c ∈ s.links a ↔ (start name).Live a es c := fun a c =>
    mem_links_run (.start name) (by cases a <;> rfl) es
  refine ⟨?graphs, relinked_step hs, ?numbers⟩
  case graphs =>
    intro a g hg
    have hids := hs.nodup_ids a
    have hmem := hlive a
    rw [links_of_getElem? hg] at hids hmem
    have hset : {c | (start name).Live a es c} = (g.connections.toFinset : Set Connection) := by
      ext c
      simp [hmem]
    refine ⟨hmem, hids, ?_, (hs.wellFormed.graphs g (List.mem_of_getElem? hg)).viewed⟩
    rw [hset, Set.ncard_coe_finset, List.toFinset_card_of_nodup hids.of_map]
  case numbers =>
    intro k c hk
    have hfound := step_disconnectId hs hk
    rw [← links_current hs.wellFormed, hlive] at hfound
    exact ⟨hs.id_of_getElem? hk, hfound⟩

/-- Both inputs of the last of three sums are fed by the first one, then one of them by the second,
which in turn is fed by the last. -/
def rewiring : List (Edit Builtin) := [
  .add (.ofKernel (.math .add)), .add (.ofKernel (.math .add)), .add (.ofKernel (.math .add)),
  .connect ⟨2, 0⟩ ⟨6, 0⟩, .connect ⟨2, 0⟩ ⟨6, 1⟩, .connect ⟨4, 0⟩ ⟨6, 0⟩, .connect ⟨6, 0⟩ ⟨4, 0⟩]

/-- The third connection stands where the first one stood. -/
example : ((start "rewiring").run rewiring).graph.connections.map Connection.id = [2, 1, 3] := by
  decide +kernel

end

end Session

end TextureFlow
