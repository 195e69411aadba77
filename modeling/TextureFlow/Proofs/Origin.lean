import Mathlib
import TextureFlow.Catalogue.Basic
import TextureFlow.Proofs.Structure

/-!
# Where nodes come from

A node is created from a draft, moves between graphs and slots, and gets a new number whenever it is
put into a graph. What an edit does to the nodes of a session, wherever they are, is said once by
`Turnover`: all of them stay, one is born, or one of them gets another number. `Session.origins`
reads off a history which draft stands behind a number, and does not look at nodes to do so.

* `Session.turnover_step`: every edit is a turnover;
* `Session.numbered_run`: numbers are distinct, and every node has the ports of its draft;
* `Session.not_mem_ids_run`: a number that is free once is never given again;
* `Session.structure_run`: all that holds of the structure of every session.
-/

namespace TextureFlow

variable {κ : Type}

/-! ## All nodes of a session -/

/-- What is left of a graph when a node is taken out, and the node itself. -/
theorem Graph.perm_frames_remove? {g h : Graph κ} (hd : g.ids.Nodup) {id : NodeId} {n : Node κ}
    (hr : g.remove? id = some (n, h)) : g.frames.Perm (n.frame :: h.frames) := by
  obtain ⟨hn, rfl⟩ := remove?_eq_some hr
  obtain ⟨hid, before, behind, hsplit, hbefore⟩ := List.find?_eq_some_iff_append.mp hn
  have hid : n.id = id := by simpa using hid
  -- no other node has the number, so the filter takes out this one alone
  have hbehind : ∀ m ∈ behind, m.id ≠ id := by
    rw [ids, hsplit, List.map_append, List.map_cons, List.nodup_append, List.nodup_cons] at hd
    intro m hm he
    exact hd.2.1.1 (hid ▸ he ▸ List.mem_map_of_mem hm)
  have hrest : (g.nodes.filter fun m => m.id ≠ id) = before ++ behind := by
    rw [hsplit, List.filter_append, List.filter_cons_of_neg (by simpa using hid),
      List.filter_eq_self.mpr (by simpa using hbefore),
      List.filter_eq_self.mpr (by simpa using hbehind)]
  simp only [frames, hrest]
  rw [hsplit, List.map_append, List.map_cons, List.map_append]
  exact List.perm_middle

namespace Draft

variable [Kernel κ]

/-- What the inputs of a new node show. The side on which the kernel lists a port decides its
direction. -/
def inputFaces (d : Draft κ) : List Face :=
  (Kernel.layout d.kernel).inputs.map fun p => ⟨p.name, .input, p.accepted⟩

/-- What the outputs of a new node show. -/
def outputFaces (d : Draft κ) : List Face :=
  (Kernel.layout d.kernel).outputs.map fun p => ⟨p.name, .output, p.accepted⟩

theorem frame_node (d : Draft κ) (id : NodeId) :
    (d.node id).frame = ⟨id, d.inputFaces, d.outputFaces⟩ := by
  have hcreate : (Node.create id d.kernel).frame = ⟨id, d.inputFaces, d.outputFaces⟩ := by
    simp only [Node.frame, Node.create, inputFaces, outputFaces, List.map_map]
    rfl
  obtain ⟨name, strategy, h⟩ := Node.exists_node_eq d id
  exact h ▸ hcreate

end Draft

/-- A node shows the ports of a draft: inputs first and outputs behind them. -/
structure Node.MadeFrom [Kernel κ] (n : Node κ) (d : Draft κ) : Prop where
  ports : n.ports.map Port.face = d.inputFaces ++ d.outputFaces
  inputs : n.inputs.map Port.face = d.inputFaces
  outputs : n.outputs.map Port.face = d.outputFaces

theorem Node.MadeFrom.of_frame [Kernel κ] {n : Node κ} {d : Draft κ}
    (h : n.frame = (d.node n.id).frame) : n.MadeFrom d := by
  rw [Draft.frame_node] at h
  have hin : n.inputs.map Port.face = d.inputFaces := congrArg Frame.inputs h
  have hout : n.outputs.map Port.face = d.outputFaces := congrArg Frame.outputs h
  exact ⟨by rw [Node.ports, List.map_append, hin, hout], hin, hout⟩

namespace Session

/-- All nodes, those of the graphs and those that are held. -/
def nodes (s : Session κ) : List (Node κ) :=
  s.graphs.flatMap Graph.nodes ++ s.held.reduceOption

/-- The frames of all nodes. -/
def frames (s : Session κ) : List Frame :=
  s.nodes.map Node.frame

/-- The numbers of all nodes. -/
def ids (s : Session κ) : List NodeId :=
  s.nodes.map Node.id

/-- The frames of the nodes that are not in the current graph. -/
def others (s : Session κ) : List Frame :=
  (s.graphs.eraseIdx s.current).flatMap Graph.frames ++ s.held.reduceOption.map Node.frame

theorem ids_eq_map_frames (s : Session κ) : s.ids = s.frames.map Frame.id := by
  simp [ids, frames, Function.comp_def, Node.frame]

theorem frames_eq (s : Session κ) :
    s.frames = s.graphs.flatMap Graph.frames ++ s.held.reduceOption.map Node.frame := by
  rw [frames, nodes, List.map_append, List.map_flatMap]
  rfl

theorem perm_setGraph {s : Session κ} (h : s.current < s.graphs.length) (g : Graph κ) :
    (s.setGraph g).frames.Perm (g.frames ++ s.others) := by
  rw [frames_eq, others, ← List.append_assoc]
  exact ((List.set_perm_cons_eraseIdx h g).flatMap_right Graph.frames).append_right _

theorem perm_graph {s : Session κ} (h : s.current < s.graphs.length) :
    s.frames.Perm (s.graph.frames ++ s.others) := by
  have hself : s.setGraph s.graph = s := by
    rw [setGraph, graph_eq_getElem h, List.set_getElem_self]
  have hset := perm_setGraph h s.graph
  rwa [hself] at hset

/-- A graph with the same frames may take the place of the current one. -/
theorem perm_setGraph_of_frames {s : Session κ} (h : s.current < s.graphs.length) {g : Graph κ}
    (hg : g.frames = s.graph.frames) : (s.setGraph g).frames.Perm s.frames :=
  (perm_setGraph h g).trans (hg ▸ (perm_graph h).symm)

/-- A node is held in a new slot. -/
theorem perm_hold (s : Session κ) (n : Node κ) :
    (frames { s with held := s.held ++ [some n] }).Perm (n.frame :: s.frames) := by
  rw [frames_eq, frames_eq, List.reduceOption_append, List.map_append, ← List.append_assoc]
  exact List.perm_append_comm

/-- The node of a slot, and the others. -/
theorem perm_slot {s : Session κ} {slot : Nat} {n : Node κ} (h : s.slot? slot = some n) :
    s.frames.Perm (n.frame :: frames { s with held := s.held.set slot none }) := by
  obtain ⟨hlt, hn⟩ := List.getElem?_eq_some_iff.mp (Option.join_eq_some_iff.mp h)
  have hfull : s.held.reduceOption.Perm (n :: (s.held.eraseIdx slot).reduceOption) := by
    have hperm := List.getElem_cons_eraseIdx_perm hlt
    rw [hn] at hperm
    exact (hperm.filterMap id).symm
  have hempty : (s.held.set slot none).reduceOption.Perm (s.held.eraseIdx slot).reduceOption :=
    (List.set_perm_cons_eraseIdx hlt none).filterMap id
  rw [frames_eq, frames_eq]
  refine ((hfull.trans (hempty.symm.cons n)).map Node.frame).append_left _ |>.trans ?_
  exact List.perm_middle

/-- A node with the same frame may take the place of one in a slot. -/
theorem perm_setSlot {s : Session κ} {slot : Nat} {n m : Node κ} (h : s.slot? slot = some n)
    (hm : m.frame = n.frame) :
    (frames { s with held := s.held.set slot (some m) }).Perm s.frames := by
  have hlt := (List.getElem?_eq_some_iff.mp (Option.join_eq_some_iff.mp h)).1
  have hslot : ({ s with held := s.held.set slot (some m) } : Session κ).slot? slot = some m := by
    rw [slot?, List.getElem?_set_self hlt]
    rfl
  have hafter := perm_slot hslot
  rw [List.set_set, hm] at hafter
  exact hafter.trans (perm_slot h).symm

/-- A node is put into the current graph. -/
theorem perm_place {s : Session κ} (h : s.current < s.graphs.length) (n : Node κ) :
    (s.place n).2.frames.Perm ({ n.frame with id := s.nextId } :: s.frames) := by
  have hset : (s.place n).2.frames.Perm ((s.graph.insert s.nextId n).frames ++ s.others) :=
    perm_setGraph h _
  have hinsert : (s.graph.insert s.nextId n).frames =
      s.graph.frames ++ [{ n.frame with id := s.nextId }] := by
    simp [Graph.frames, Graph.insert, Node.frame]
  rw [hinsert, List.append_assoc] at hset
  exact hset.trans (List.perm_middle.trans ((perm_graph h).symm.cons _))

/-! ## What an edit does to the nodes -/

/-- The number that an edit gives to a node, and where the node comes from: a draft, or the number
that the node had so far. -/
def arrival? (s : Session κ) : Edit κ → Option (NodeId × (Draft κ ⊕ NodeId))
  | .create draft => some (s.nextId, .inl draft)
  | .add draft => some (s.nextId + 1, .inl draft)
  | .insert slot => (s.slot? slot).map fun n => (s.nextId, .inr n.id)
  | _ => none

/-- What becomes of the nodes of a session. -/
inductive Turnover [Kernel κ] (s t : Session κ) : Option (NodeId × (Draft κ ⊕ NodeId)) → Prop where
  /-- All nodes stay, wherever they are now. -/
  | stay (frames : t.frames.Perm s.frames) (issued : t.issued = s.issued) : Turnover s t none
  /-- A node is created from a draft under a number that was not given before. -/
  | born {id : NodeId} {d : Draft κ} (frames : t.frames.Perm ((d.node id).frame :: s.frames))
      (fresh : s.issued < id) (issued : t.issued = id) : Turnover s t (some (id, .inl d))
  /-- A node gets a number that was not given before. -/
  | renumbered {id : NodeId} {f : Frame} {rest : List Frame} (before : s.frames.Perm (f :: rest))
      (after : t.frames.Perm ({ f with id } :: rest)) (fresh : s.issued < id)
      (issued : t.issued = id) : Turnover s t (some (id, .inr f.id))

/-- The drafts behind the numbers after an edit. -/
def adopt (o : NodeId → Option (Draft κ)) :
    Option (NodeId × (Draft κ ⊕ NodeId)) → NodeId → Option (Draft κ)
  | none => o
  | some (id, source) => Function.update o id (source.elim some o)

variable [Kernel κ]

/-- The drafts behind the numbers after a history, from those before it. -/
def originsFrom (s : Session κ) (o : NodeId → Option (Draft κ)) :
    List (Edit κ) → NodeId → Option (Draft κ)
  | [] => o
  | e :: es => originsFrom (s.step e).2 (adopt o (s.arrival? e)) es

/-- The draft from which the node of a number was created in a history that began without nodes. A
number that no node was given has none. -/
def origins (name : String) (es : List (Edit κ)) : NodeId → Option (Draft κ) :=
  originsFrom (start name) (fun _ => none) es

theorem turnover_evaluate {s : Session κ} (h : s.WellFormed) (settings : Settings) :
    Turnover s (s.evaluate settings).2 none := by
  unfold evaluate
  cases he : s.graph.evaluate settings with
  | error e => exact .stay (.refl _) rfl
  | ok gr =>
    exact .stay (perm_setGraph_of_frames h.current (Graph.frames_evaluate h.graph he).1) rfl

theorem turnover_editNode {s : Session κ} (h : s.WellFormed) (p : NodePlace) (e : NodeEdit) :
    Turnover s (s.editNode p e).2 none := by
  unfold editNode
  cases hn : s.node? p with
  | none => exact .stay (.refl _) rfl
  | some n =>
    cases he : e.apply n with
    | error err => simpa only [he] using Turnover.stay (.refl _) rfl
    | ok m =>
      simp only [he]
      have hframe := Node.frame_apply he
      cases p with
      | slot index => exact .stay (perm_setSlot hn hframe) rfl
      | node id =>
        refine .stay (perm_setGraph_of_frames h.current ?_) rfl
        exact Graph.frames_setNode h.graph.nodup (Graph.mem_of_node? hn).1 hframe

theorem turnover_settleConnect {s : Session κ} (h : s.WellFormed)
    {r : Except ConnectError (Connection × Graph κ)}
    (hr : ∀ c g, r = .ok (c, g) → g.nodes = s.graph.nodes) :
    Turnover s (s.settleConnect r).2 none := by
  cases r with
  | error e => exact .stay (.refl _) rfl
  | ok cg =>
    refine .stay (perm_setGraph_of_frames h.current ?_) rfl
    rw [Graph.frames, hr cg.1 cg.2 rfl, Graph.frames]

theorem turnover_settleDisconnect {s : Session κ} (h : s.WellFormed)
    {r : Option (Connection × Graph κ)} (hr : ∀ c g, r = some (c, g) → g = s.graph.drop c) :
    Turnover s (s.settleDisconnect r).2 none := by
  cases r with
  | none => exact .stay (.refl _) rfl
  | some cg =>
    refine .stay (perm_setGraph_of_frames h.current ?_) rfl
    rw [hr cg.1 cg.2 rfl]
    rfl

/-- Taking a node out of a graph and holding it changes no frame. -/
theorem turnover_remove {s : Session κ} (h : s.WellFormed) (id : NodeId) :
    Turnover s (s.remove id).2 none := by
  unfold remove
  cases hr : s.graph.remove? id with
  | none => exact .stay (.refl _) rfl
  | some ng =>
    obtain ⟨n, g⟩ := ng
    have htaken := (Graph.perm_frames_remove? h.graph.nodup hr).append_right s.others
    have hleft := ((perm_setGraph h.current g).cons n.frame).trans htaken.symm
    exact .stay ((perm_hold (s.setGraph g) n).trans (hleft.trans (perm_graph h.current).symm)) rfl

/-- New graphs have no nodes, and a name is not part of any. -/
theorem turnover_focus {s : Session κ} (h : s.WellFormed) (index : Nat) (name : Option String) :
    Turnover s (s.focus index name) none := by
  have hopen : (s.focus index none).frames = s.frames := by
    have hnone : (List.replicate (index + 1 - s.graphs.length) (.empty unnamed)).flatMap
        (Graph.frames (κ := κ)) = [] :=
      List.flatMap_eq_nil_iff.mpr fun g hg => by rw [List.eq_of_mem_replicate hg]; rfl
    simp only [focus, frames_eq, List.flatMap_append, hnone, List.append_nil]
  cases name with
  | none => exact .stay (.of_eq hopen) rfl
  | some name =>
    have hnamed := perm_setGraph_of_frames (h.focus index none).current
      (g := { graph (s.focus index none) with name }) rfl
    exact .stay (hnamed.trans (.of_eq hopen)) rfl

/-- Every edit is a turnover of the nodes. -/
theorem turnover_step {s : Session κ} (h : s.WellFormed) (e : Edit κ) :
    Turnover s (s.step e).2 (s.arrival? e) := by
  cases e with
  | focus index name => exact turnover_focus h index name
  | create draft => exact .born (perm_hold s _) (Nat.lt_succ_self _) rfl
  | insert slot =>
    simp only [step, arrival?]
    cases hn : s.slot? slot with
    | none => exact .stay (.refl _) rfl
    | some n =>
      exact .renumbered (perm_slot hn) (perm_place (s := { s with held := s.held.set slot none })
        h.current n) (Nat.lt_succ_self _) rfl
  | add draft =>
    have hplace := perm_place (s := { s with issued := s.issued + 1 }) h.current
      (draft.node s.nextId)
    -- the number of the creation is given up when the node is put into the graph
    have hframe : { (draft.node s.nextId).frame with id := s.nextId + 1 } =
        (draft.node (s.nextId + 1)).frame := by
      rw [Draft.frame_node, Draft.frame_node]
    exact .born (hframe ▸ hplace) (Nat.lt_succ_of_lt (Nat.lt_succ_self _)) rfl
  | remove id => exact turnover_remove h id
  | connect source target =>
    refine turnover_settleConnect h fun c g hc => ?_
    rw [(Graph.connect_eq_ok hc).2.1]
  | connectPorts source target =>
    refine turnover_settleConnect h fun c g hc => ?_
    obtain ⟨o, i, hc⟩ := Graph.connectPorts_eq_ok hc
    rw [(Graph.connect_eq_ok hc).2.1]
  | disconnect target => exact turnover_settleDisconnect h fun c g => Graph.disconnect?_eq_some
  | disconnectId id => exact turnover_settleDisconnect h fun c g => Graph.disconnectId?_eq_some
  | node p e => exact turnover_editNode h p e
  | evaluate settings => exact turnover_evaluate h settings

/-! ## Numbers -/

/-- Numbers are distinct and were given, and every node has the ports of the draft behind its
number. -/
structure Numbered (o : NodeId → Option (Draft κ)) (s : Session κ) : Prop where
  distinct : (s.frames.map Frame.id).Nodup
  given : ∀ f ∈ s.frames, f.id ≤ s.issued
  origin : ∀ f ∈ s.frames, ∃ d, o f.id = some d ∧ f = (d.node f.id).frame

namespace Numbered

variable {o : NodeId → Option (Draft κ)} {s t : Session κ}

theorem start (name : String) : Numbered o (Session.start name : Session κ) :=
  ⟨.nil, nofun, nofun⟩

/-- A turnover keeps numbers distinct and nodes true to their drafts. -/
theorem turnover (h : Numbered o s) {a : Option (NodeId × (Draft κ ⊕ NodeId))}
    (ht : Turnover s t a) : Numbered (adopt o a) t := by
  cases ht with
  | stay frames issued =>
    constructor
    case distinct => exact (frames.map Frame.id).nodup_iff.mpr h.distinct
    case given => exact fun f hf => issued ▸ h.given f (frames.mem_iff.mp hf)
    case origin => exact fun f hf => h.origin f (frames.mem_iff.mp hf)
  | @born id d frames fresh issued =>
    -- a number that is new differs from all that were given
    have hnew : ∀ f ∈ s.frames, f.id ≠ id := fun f hf => ((h.given f hf).trans_lt fresh).ne
    have hid : (d.node id).frame.id = id := by rw [Draft.frame_node]
    constructor
    case distinct =>
      rw [(frames.map Frame.id).nodup_iff, List.map_cons, hid, List.nodup_cons]
      refine ⟨fun hm => ?_, h.distinct⟩
      obtain ⟨f, hf, he⟩ := List.mem_map.mp hm
      exact hnew f hf he
    case given =>
      intro f hf
      rcases List.mem_cons.mp (frames.mem_iff.mp hf) with rfl | hf
      · exact (hid.trans issued.symm).le
      · exact issued ▸ ((h.given f hf).trans_lt fresh).le
    case origin =>
      intro f hf
      rcases List.mem_cons.mp (frames.mem_iff.mp hf) with rfl | hf
      · exact ⟨d, by rw [hid, adopt, Function.update_self]; rfl, by rw [hid]⟩
      · rw [adopt, Function.update_of_ne (hnew f hf)]
        exact h.origin f hf
  | @renumbered id f rest before after fresh issued =>
    have hrest : ∀ x ∈ rest, x ∈ s.frames := fun x hx =>
      before.mem_iff.mpr (List.mem_cons_of_mem f hx)
    have hnew : ∀ x ∈ rest, x.id ≠ id := fun x hx =>
      ((h.given x (hrest x hx)).trans_lt fresh).ne
    constructor
    case distinct =>
      have hd := h.distinct
      rw [(before.map Frame.id).nodup_iff, List.map_cons, List.nodup_cons] at hd
      rw [(after.map Frame.id).nodup_iff, List.map_cons, List.nodup_cons]
      refine ⟨fun hm => ?_, hd.2⟩
      obtain ⟨x, hx, he⟩ := List.mem_map.mp hm
      exact hnew x hx he
    case given =>
      intro x hx
      rcases List.mem_cons.mp (after.mem_iff.mp hx) with rfl | hx
      · exact issued.ge
      · exact issued ▸ ((h.given x (hrest x hx)).trans_lt fresh).le
    case origin =>
      intro x hx
      rcases List.mem_cons.mp (after.mem_iff.mp hx) with rfl | hx
      · -- the node keeps the draft of its old number
        obtain ⟨d, hd, hf⟩ := h.origin f (before.mem_iff.mpr List.mem_cons_self)
        refine ⟨d, by rw [adopt, Function.update_self]; exact hd, ?_⟩
        rw [hf, Draft.frame_node, Draft.frame_node]
      · rw [adopt, Function.update_of_ne (hnew x hx)]
        exact h.origin x (hrest x hx)

/-- Every history keeps numbers distinct and nodes true to their drafts. -/
theorem run (h : Numbered o s) (hw : s.WellFormed) (es : List (Edit κ)) :
    Numbered (s.originsFrom o es) (s.run es) := by
  induction es generalizing s o with
  | nil => exact h
  | cons e es ih => exact ih (h.turnover (turnover_step hw e)) (wellFormed_step hw e)

end Numbered

/-! ## Numbers that are given up -/

theorem Turnover.issued_le {s t : Session κ} {a : Option (NodeId × (Draft κ ⊕ NodeId))}
    (ht : Turnover s t a) : s.issued ≤ t.issued := by
  cases ht with
  | stay frames issued => exact issued.ge
  | born frames fresh issued => exact issued ▸ fresh.le
  | renumbered before after fresh issued => exact issued ▸ fresh.le

/-- A turnover gives no number that was given before. -/
theorem Turnover.not_mem_ids {s t : Session κ} {a : Option (NodeId × (Draft κ ⊕ NodeId))}
    (ht : Turnover s t a) {id : NodeId} (hle : id ≤ s.issued) (hid : id ∉ s.ids) :
    id ≤ t.issued ∧ id ∉ t.ids := by
  rw [ids_eq_map_frames] at hid ⊢
  cases ht with
  | stay frames issued =>
    rw [(frames.map Frame.id).mem_iff]
    exact ⟨issued ▸ hle, hid⟩
  | born frames fresh issued =>
    rw [(frames.map Frame.id).mem_iff, List.map_cons, List.mem_cons, Draft.frame_node]
    refine ⟨issued ▸ (hle.trans_lt fresh).le, ?_⟩
    rintro (rfl | hm)
    · exact absurd hle (Nat.not_le.mpr fresh)
    · exact hid hm
  | renumbered before after fresh issued =>
    rw [(before.map Frame.id).mem_iff, List.map_cons, List.mem_cons, not_or] at hid
    rw [(after.map Frame.id).mem_iff, List.map_cons, List.mem_cons]
    refine ⟨issued ▸ (hle.trans_lt fresh).le, ?_⟩
    rintro (rfl | hm)
    · exact absurd hle (Nat.not_le.mpr fresh)
    · exact hid.2 hm

/-- A node that gets a number gives up the one it had. -/
theorem Turnover.given_up {o : NodeId → Option (Draft κ)} {s t : Session κ} {id old : NodeId}
    (h : Numbered o s) (ht : Turnover s t (some (id, .inr old))) :
    old ≤ t.issued ∧ old ∉ t.ids := by
  rw [ids_eq_map_frames]
  cases ht with
  | @renumbered id f rest before after fresh issued =>
    have hle := h.given f (before.mem_iff.mpr List.mem_cons_self)
    have hd := h.distinct
    rw [(before.map Frame.id).nodup_iff, List.map_cons, List.nodup_cons] at hd
    rw [(after.map Frame.id).mem_iff, List.map_cons, List.mem_cons]
    refine ⟨issued ▸ (hle.trans_lt fresh).le, ?_⟩
    rintro (he | hm)
    · exact absurd he (hle.trans_lt fresh).ne
    · exact hd.1 hm

/-- A number that was skipped names no node. -/
theorem Turnover.skipped {o : NodeId → Option (Draft κ)} {s t : Session κ} {id skipped : NodeId}
    {d : Draft κ} (h : Numbered o s) (ht : Turnover s t (some (id, .inl d)))
    (hlo : s.issued < skipped) (hhi : skipped < id) : skipped ≤ t.issued ∧ skipped ∉ t.ids := by
  rw [ids_eq_map_frames]
  cases ht with
  | born frames fresh issued =>
    rw [(frames.map Frame.id).mem_iff, List.map_cons, List.mem_cons, Draft.frame_node]
    refine ⟨issued ▸ hhi.le, ?_⟩
    rintro (rfl | hm)
    · exact absurd hhi (Nat.lt_irrefl _)
    · obtain ⟨f, hf, rfl⟩ := List.mem_map.mp hm
      exact absurd (h.given f hf) (Nat.not_le.mpr hlo)

/-- A number that was given and is free names no node ever again. -/
theorem not_mem_ids_run {s : Session κ} (h : s.WellFormed) {id : NodeId} (hle : id ≤ s.issued)
    (hid : id ∉ s.ids) (es : List (Edit κ)) : id ∉ (s.run es).ids := by
  induction es generalizing s with
  | nil => exact hid
  | cons e es ih =>
    obtain ⟨hle', hid'⟩ := (turnover_step h e).not_mem_ids hle hid
    exact ih (wellFormed_step h e) hle' hid'

/-! ## The structure of every session -/

/-- In every graph of every session nodes ascend, each is the one of its number, every connection
joins ports that exist and whose kinds agree, and no two feed the same input. No two nodes of a
session, in whatever graph or slot, have the same number, and every node has the ports of the draft
it was created from. The number that a node has when it is put into a graph, and the one that it had
between its creation and its insertion, never name a node again. -/
theorem structure_run (name : String) (es : List (Edit κ)) :
    let s := (start name).run es
    (∀ g ∈ s.graphs, g.WellFormed ∧ ∀ id n, g.node? id = some n ↔ n ∈ g.nodes ∧ n.id = id) ∧
    s.ids.Nodup ∧
    (∀ n ∈ s.nodes, ∃ d, origins name es n.id = some d ∧ n.MadeFrom d) ∧
    (∀ slot n, s.slot? slot = some n → ∀ es', n.id ∉ (s.run (.insert slot :: es')).ids) ∧
    ∀ d es', s.nextId ∉ (s.run (.add d :: es')).ids := by
  intro s
  have hs : s.WellFormed := wellFormed_run (.start name) es
  have hn : Numbered (origins name es) s := (Numbered.start name).run (.start name) es
  refine ⟨fun g hg => ⟨hs.graphs g hg, fun id n => ?_⟩, ?_, fun n hmem => ?_,
    fun slot n hslot es' => ?_, fun d es' => ?_⟩
  · constructor
    · exact Graph.mem_of_node?
    · rintro ⟨hmem, rfl⟩
      exact Graph.node?_of_mem (hs.graphs g hg).nodup hmem
  · rw [ids_eq_map_frames]
    exact hn.distinct
  · obtain ⟨d, hd, hf⟩ := hn.origin n.frame (List.mem_map_of_mem hmem)
    exact ⟨d, hd, .of_frame hf⟩
  · have hturn := turnover_step hs (.insert slot)
    rw [arrival?, hslot] at hturn
    obtain ⟨hle, hfree⟩ := hturn.given_up hn
    exact not_mem_ids_run (wellFormed_step hs _) hle hfree es'
  · have hturn := turnover_step hs (.add d)
    obtain ⟨hle, hfree⟩ := hturn.skipped hn (Nat.lt_succ_self _) (Nat.lt_succ_self _)
    exact not_mem_ids_run (wellFormed_step hs _) hle hfree es'

/-- A node leaves its graph, to be put into another one. -/
def wandering : List (Edit Builtin) :=
  [.add (.ofKernel .invert), .add (.ofKernel .imageOutput), .connect ⟨2, 0⟩ ⟨4, 0⟩, .remove 2,
    .focus 1 none]

/-- In the other graph it has a new number and the ports of an inversion, and no node is ever called
`2` again. -/
theorem structure_run_wandering :
    (∃ n, ((start "wandering").run wandering).slot? 0 = some n ∧ n.id = 2) ∧
    (∃ n ∈ ((start "wandering").run (wandering ++ [.insert 0])).nodes, n.id = 5 ∧
      n.MadeFrom (.ofKernel .invert)) ∧
    ∀ es', 2 ∉ (((start "wandering").run wandering).run (.insert 0 :: es')).ids := by
  have hslot : (((start "wandering").run wandering).slot? 0).map Node.id = some 2 := by
    decide +kernel
  obtain ⟨n, hn, hid⟩ := Option.map_eq_some_iff.mp hslot
  have hgone := (structure_run "wandering" wandering).2.2.2.1 0 n hn
  rw [hid] at hgone
  have hfive : 5 ∈ ((start "wandering").run (wandering ++ [.insert 0])).ids := by
    decide +kernel
  obtain ⟨m, hm, hmid⟩ := List.mem_map.mp hfive
  obtain ⟨d, hd, hmade⟩ := (structure_run "wandering" (wandering ++ [.insert 0])).2.2.1 m hm
  have horigin : origins "wandering" (wandering ++ [.insert 0]) 5 = some (.ofKernel .invert) := by
    decide +kernel
  obtain rfl := Option.some.inj ((hmid ▸ hd).symm.trans horigin)
  exact ⟨⟨n, hn, hid⟩, ⟨m, hm, hmid, hmade⟩, hgone⟩

end Session

end TextureFlow
