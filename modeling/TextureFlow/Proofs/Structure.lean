import Mathlib
import TextureFlow.Session

/-!
# The structure that edits keep

Node numbers ascend along a graph, every connection joins ports that exist and whose kinds agree,
and no two connections feed the same input. These facts speak of a node only through its `frame`,
its number and the faces of its ports, and a pass changes neither. So whatever keeps the frames and
the connections of a graph keeps its structure, and only the edits that move nodes or connections
need an argument of their own.

`wellFormed_run` is the result: every graph of every session is well formed.
-/

namespace TextureFlow

variable {κ : Type}

/-! ## Finding by a key -/

/-- In a list with distinct keys everything is found under its key. -/
theorem find?_key_of_mem {α β : Type} [DecidableEq β] {key : α → β} {xs : List α}
    (hd : (xs.map key).Nodup) {x : α} (hx : x ∈ xs) :
    xs.find? (fun y => key y = key x) = some x := by
  obtain ⟨y, hy⟩ : ∃ y, xs.find? (fun y => key y = key x) = some y :=
    Option.isSome_iff_exists.mp (List.find?_isSome.mpr ⟨x, hx, decide_eq_true rfl⟩)
  have hkey : key y = key x := by simpa using List.find?_some hy
  rw [hy, List.inj_on_of_nodup_map hd (List.mem_of_find?_eq_some hy) hx hkey]

/-! ## What never changes of a node -/

/-- What a port shows to a connection. -/
structure Face where
  name : String
  direction : Direction
  accepted : Accepted
deriving DecidableEq, Repr

/-- What never changes of a node in a graph. -/
structure Frame where
  id : NodeId
  inputs : List Face
  outputs : List Face
deriving DecidableEq, Repr

namespace Port

/-- The face of a port. -/
def face (p : Port) : Face :=
  ⟨p.name, p.direction, p.accepted⟩

@[simp] theorem face_write (p : Port) (v : Value) (generation : Nat) :
    (p.write v generation).face = p.face := rfl

@[simp] theorem face_reset (p : Port) : p.reset.face = p.face := rfl

@[simp] theorem face_resolve (p : Port) (feed : Option Port) : (p.resolve feed).face = p.face := by
  cases feed <;> rfl

/-- Ports with the same face emit the same kind. -/
theorem emits?_of_face {p q : Port} (h : p.face = q.face) : p.emits? = q.emits? := by
  simp only [face, Face.mk.injEq] at h
  rw [emits?, emits?, h.2.1, h.2.2]

/-- Ports with the same face accept the same kinds. -/
theorem accepts_of_face {p q : Port} (h : p.face = q.face) (k : ValueKind) :
    p.accepts k = q.accepts k := by
  simp only [face, Face.mk.injEq] at h
  rw [accepts, accepts, h.2.2]

/-- Writing to several ports changes nothing that writing to one leaves alone. -/
theorem map_writeAll {α : Type} {f : Port → α}
    (hf : ∀ (p : Port) (v : Value) (generation : Nat), f (p.write v generation) = f p)
    (revision : Nat) (ports : List Port) (values : List Value) :
    (writeAll revision ports values).map f = ports.map f := by
  induction ports generalizing revision values with
  | nil => cases values <;> rfl
  | cons p ports ih =>
    cases values with
    | nil => rfl
    | cons v values => rw [writeAll, List.map_cons, List.map_cons, hf, ih]

theorem map_fillZeros {α : Type} {f : Port → α}
    (hf : ∀ (p : Port) (v : Value) (generation : Nat), f (p.write v generation) = f p)
    (revision : Nat) (ports : List Port) : (fillZeros revision ports).map f = ports.map f := by
  induction ports generalizing revision with
  | nil => rfl
  | cons p ports ih =>
    cases hv : p.value with
    | some v => simp [fillZeros, hv, ih]
    | none => cases hk : p.emits? <;> simp [fillZeros, hv, hk, hf, ih]

theorem map_face_writeAll (revision : Nat) (ports : List Port) (values : List Value) :
    (writeAll revision ports values).map face = ports.map face :=
  map_writeAll face_write revision ports values

theorem map_face_fillZeros (revision : Nat) (ports : List Port) :
    (fillZeros revision ports).map face = ports.map face :=
  map_fillZeros face_write revision ports

end Port

namespace Node

/-- The frame of a node. -/
def frame (n : Node κ) : Frame :=
  ⟨n.id, n.inputs.map Port.face, n.outputs.map Port.face⟩

@[simp] theorem id_resolve (n : Node κ) (feed : Nat → Option Port) : (n.resolve feed).id = n.id :=
  rfl

@[simp] theorem frame_restart (n : Node κ) : n.restart.frame = n.frame := rfl

@[simp] theorem frame_resolve (n : Node κ) (feed : Nat → Option Port) :
    (n.resolve feed).frame = n.frame := by
  have h : (n.inputs.mapIdx fun index p => p.resolve (feed index)).map Port.face =
      n.inputs.map Port.face := by
    refine List.ext_getElem (by simp) fun i hi hi' => ?_
    simp
  simp [frame, resolve, h]

@[simp] theorem frame_conclude (zeroFill : Bool) (revision : Nat) (ran : Bool) (n : Node κ)
    (v : Verdict) : (n.conclude zeroFill revision ran v).frame = n.frame := by
  cases v with
  | computed outputs => simp [frame, conclude, Port.map_face_writeAll]
  | reused => rfl
  | failed e => cases zeroFill <;> simp [frame, conclude, Port.map_face_fillZeros]

/-- A verdict changes neither the inputs of a node nor its kernel. -/
@[simp] theorem inputs_conclude (zeroFill : Bool) (revision : Nat) (ran : Bool) (n : Node κ)
    (v : Verdict) : (n.conclude zeroFill revision ran v).inputs = n.inputs := by
  cases v <;> rfl

@[simp] theorem kernel_conclude (zeroFill : Bool) (revision : Nat) (ran : Bool) (n : Node κ)
    (v : Verdict) : (n.conclude zeroFill revision ran v).kernel = n.kernel := by
  cases v <;> rfl

@[simp] theorem id_conclude (zeroFill : Bool) (revision : Nat) (ran : Bool) (n : Node κ)
    (v : Verdict) : (n.conclude zeroFill revision ran v).id = n.id := by
  cases v <;> rfl

variable [Kernel κ]

/-- The node of a draft is a new one that may have another name and another strategy. -/
theorem exists_node_eq (d : Draft κ) (id : NodeId) :
    ∃ name strategy, d.node id = { create id d.kernel with name, strategy } := by
  obtain ⟨kernel, name, strategy⟩ := d
  cases name <;> cases strategy <;> exact ⟨_, _, rfl⟩

/-- What an edit of a node can do. Whatever it is, it drops the memo. -/
inductive Edited (n : Node κ) : NodeEdit → Node κ → Prop where
  | parameter {name : String} {v : ParamValue} {kernel : κ}
      (set : Kernel.setParameter n.kernel name v = .ok kernel) :
      Edited n (.parameter name v) { n with kernel, memo := none }
  /-- The input shows its new fallback, or what it showed before. -/
  | fallback {index : Nat} {v : Value} {p q : Port} (place : n.inputs[index]? = some p)
      (fits : p.accepts v.kind = true)
      (edit : q = { p with fallback := some v } ∨ q = Port.reset { p with fallback := some v }) :
      Edited n (.fallback index v) { n with inputs := n.inputs.set index q, memo := none }
  | strategy (s : Strategy) : Edited n (.strategy s) { n with strategy := s, memo := none }
  | invalidate : Edited n .invalidate { n with memo := none }

theorem edited_of_apply {e : NodeEdit} {n m : Node κ} (h : e.apply n = .ok m) : n.Edited e m := by
  cases e with
  | parameter name v =>
    simp only [NodeEdit.apply, setParameter] at h
    cases hk : Kernel.setParameter n.kernel name v with
    | error err => rw [hk] at h; cases h
    | ok kernel =>
      rw [hk] at h
      cases h
      exact .parameter hk
  | fallback index v =>
    simp only [NodeEdit.apply, setFallback] at h
    split at h
    · cases h
    · next p hp =>
      split at h
      · next ha =>
        cases h
        refine .fallback hp ha ?_
        split
        · exact .inr rfl
        · exact .inl rfl
      · cases h
  | strategy s => cases h; exact .strategy s
  | invalidate => cases h; exact .invalidate

/-- No edit of a node changes its frame. -/
theorem frame_apply {e : NodeEdit} {n m : Node κ} (h : e.apply n = .ok m) : m.frame = n.frame := by
  cases edited_of_apply h with
  | @fallback index v p q place fits edit =>
    have hq : q.face = p.face := by rcases edit with rfl | rfl <;> rfl
    -- the port that is written back has the face of the one that was there
    have hface : (n.inputs.map Port.face).set index p.face = n.inputs.map Port.face := by
      obtain ⟨hi, rfl⟩ := List.getElem?_eq_some_iff.mp place
      rw [← List.getElem_map Port.face (h := by simpa using hi), List.set_getElem_self]
    simp only [frame, List.map_set, hq, hface]
  | _ => rfl

end Node

namespace Graph

/-! ## Finding a node -/

/-- The frames of the nodes, in order. -/
def frames (g : Graph κ) : List Frame :=
  g.nodes.map Node.frame

theorem ids_eq_map_frames (g : Graph κ) : g.ids = g.frames.map Frame.id := by
  simp [ids, frames, Function.comp_def, Node.frame]

theorem mem_of_node? {g : Graph κ} {id : NodeId} {n : Node κ} (h : g.node? id = some n) :
    n ∈ g.nodes ∧ n.id = id :=
  ⟨List.mem_of_find?_eq_some h, by simpa using List.find?_some h⟩

theorem mem_of_connectionTo? {g : Graph κ} {target : InputPlace} {c : Connection}
    (h : g.connectionTo? target = some c) : c ∈ g.connections ∧ c.target = target :=
  ⟨List.mem_of_find?_eq_some h, by simpa using List.find?_some h⟩

theorem node?_isSome_iff {g : Graph κ} {id : NodeId} :
    (∃ n, g.node? id = some n) ↔ id ∈ g.ids := by
  rw [← Option.isSome_iff_exists, node?, List.find?_isSome, ids, List.mem_map]
  simp

theorem node?_eq_none {g : Graph κ} {id : NodeId} (h : id ∉ g.ids) : g.node? id = none := by
  refine Option.eq_none_iff_forall_ne_some.mpr fun n hn => ?_
  exact h (node?_isSome_iff.mp ⟨n, hn⟩)

/-- With distinct numbers every node is the one of its number. -/
theorem node?_of_mem {g : Graph κ} (hd : g.ids.Nodup) {n : Node κ} (hn : n ∈ g.nodes) :
    g.node? n.id = some n :=
  find?_key_of_mem hd hn

/-- The nodes of a graph by their numbers. -/
theorem map_node?_ids {g : Graph κ} (hd : g.ids.Nodup) : g.ids.map g.node? = g.nodes.map some := by
  rw [ids, List.map_map]
  exact List.map_congr_left fun n hn => node?_of_mem hd hn

@[simp] theorem ids_setNode (g : Graph κ) (n : Node κ) : (g.setNode n).ids = g.ids := by
  simp only [ids, setNode, List.map_map]
  refine List.map_congr_left fun m _ => ?_
  by_cases h : m.id = n.id <;> simp [h]

theorem node?_setNode (g : Graph κ) (n : Node κ) (id : NodeId) :
    (g.setNode n).node? id = (g.node? id).map fun m => if m.id = n.id then n else m := by
  rw [node?, node?, setNode, List.find?_map]
  congr 2
  funext m
  by_cases h : m.id = n.id <;> simp [h]

theorem node?_setNode_self {g : Graph κ} {n : Node κ} (h : n.id ∈ g.ids) :
    (g.setNode n).node? n.id = some n := by
  obtain ⟨m, hm⟩ := node?_isSome_iff.mpr h
  rw [node?_setNode, hm, Option.map_some, if_pos (mem_of_node? hm).2]

theorem node?_setNode_of_ne (g : Graph κ) {n : Node κ} {id : NodeId} (h : id ≠ n.id) :
    (g.setNode n).node? id = g.node? id := by
  rw [node?_setNode]
  cases hm : g.node? id with
  | none => rfl
  | some m => rw [Option.map_some, if_neg ((mem_of_node? hm).2 ▸ h)]

theorem node?_insert {g : Graph κ} {id new : NodeId} (h : id ≠ new) (n : Node κ) :
    (g.insert new n).node? id = g.node? id := by
  rw [node?, insert, List.find?_append, node?]
  have hnew : [{ n with id := new }].find? (fun m : Node κ => m.id = id) = none := by
    simpa using Ne.symm h
  rw [hnew, Option.or_none]

theorem mem_setNode {g : Graph κ} {n m : Node κ} (h : m ∈ (g.setNode n).nodes) :
    m = n ∨ m ∈ g.nodes := by
  obtain ⟨old, hold, rfl⟩ := List.mem_map.mp h
  split
  · exact .inl rfl
  · exact .inr hold

/-- A node that takes the place of one with the same frame changes no frame. -/
theorem frames_setNode {g : Graph κ} (hd : g.ids.Nodup) {m n : Node κ} (hm : m ∈ g.nodes)
    (h : n.frame = m.frame) : (g.setNode n).frames = g.frames := by
  simp only [frames, setNode, List.map_map]
  refine List.map_congr_left fun old hold => ?_
  by_cases he : old.id = n.id
  · -- numbers are distinct, so the node that is replaced is the one with the same frame
    have : old = m := List.inj_on_of_nodup_map hd hold hm (he.trans (congrArg Frame.id h))
    subst this
    simp [he, h]
  · simp [he]

/-! ## Taking out -/

/-- What is left when a node is taken out. -/
theorem remove?_eq_some {g h : Graph κ} {id : NodeId} {n : Node κ}
    (hr : g.remove? id = some (n, h)) :
    g.node? id = some n ∧ h = { g with
      nodes := g.nodes.filter fun m => m.id ≠ id
      connections := g.connections.filter fun c => !c.involves id } := by
  obtain ⟨m, hm, hmh⟩ := Option.map_eq_some_iff.mp hr
  cases hmh
  exact ⟨hm, rfl⟩

theorem disconnect?_eq_some {g h : Graph κ} {target : InputPlace} {c : Connection}
    (hd : g.disconnect? target = some (c, h)) : h = g.drop c := by
  obtain ⟨d, -, hdh⟩ := Option.map_eq_some_iff.mp hd
  cases hdh
  rfl

theorem disconnectId?_eq_some {g h : Graph κ} {id : ConnectionId} {c : Connection}
    (hd : g.disconnectId? id = some (c, h)) : h = g.drop c := by
  obtain ⟨d, -, hdh⟩ := Option.map_eq_some_iff.mp hd
  cases hdh
  rfl

/-! ## Well-formed graphs -/

/-- A connection that joins an output with an input that accepts its kind. -/
def Fits (g : Graph κ) (c : Connection) : Prop :=
  ∃ m ∈ g.nodes, ∃ n ∈ g.nodes, ∃ p q k, m.id = c.source.node ∧ n.id = c.target.node ∧
    m.outputs[c.source.output]? = some p ∧ n.inputs[c.target.input]? = some q ∧
    p.emits? = some k ∧ q.accepts k = true

/-- What holds of every graph of a session. -/
structure WellFormed (g : Graph κ) : Prop where
  ascending : g.ids.Pairwise (· < ·)
  fits : ∀ c ∈ g.connections, g.Fits c
  single : (g.connections.map Connection.target).Nodup

/-- Fitting needs the frames only. -/
theorem Fits.of_frames {g h : Graph κ} (hf : h.frames = g.frames) {c : Connection}
    (hc : g.Fits c) : h.Fits c := by
  obtain ⟨m, hm, n, hn, p, q, k, hmi, hni, hp, hq, hk, ha⟩ := hc
  -- the ends of the connection are looked up again, by their frames
  have inH : ∀ x ∈ g.nodes, ∃ y ∈ h.nodes, y.frame = x.frame := by
    intro x hx
    have : x.frame ∈ h.frames := hf ▸ List.mem_map_of_mem hx
    simpa [frames] using this
  obtain ⟨m', hm', hmf⟩ := inH m hm
  obtain ⟨n', hn', hnf⟩ := inH n hn
  simp only [Node.frame, Frame.mk.injEq] at hmf hnf
  have hout : (m'.outputs[c.source.output]?).map Port.face = some p.face := by
    rw [← List.getElem?_map, hmf.2.2, List.getElem?_map, hp, Option.map_some]
  have hin : (n'.inputs[c.target.input]?).map Port.face = some q.face := by
    rw [← List.getElem?_map, hnf.2.1, List.getElem?_map, hq, Option.map_some]
  obtain ⟨p', hp', hpf⟩ := Option.map_eq_some_iff.mp hout
  obtain ⟨q', hq', hqf⟩ := Option.map_eq_some_iff.mp hin
  exact ⟨m', hm', n', hn', p', q', k, hmf.1.trans hmi, hnf.1.trans hni, hp', hq',
    by rw [Port.emits?_of_face hpf, hk], by rw [Port.accepts_of_face hqf, ha]⟩

/-- A graph with more nodes fits what fitted before. -/
theorem Fits.mono {g h : Graph κ} (hs : ∀ n ∈ g.nodes, n ∈ h.nodes) {c : Connection}
    (hc : g.Fits c) : h.Fits c := by
  obtain ⟨m, hm, n, hn, rest⟩ := hc
  exact ⟨m, hs m hm, n, hs n hn, rest⟩

namespace WellFormed

theorem nodup {g : Graph κ} (h : g.WellFormed) : g.ids.Nodup :=
  h.ascending.imp fun hlt => Nat.ne_of_lt hlt

theorem source_mem {g : Graph κ} (h : g.WellFormed) {c : Connection} (hc : c ∈ g.connections) :
    c.source.node ∈ g.ids := by
  obtain ⟨m, hm, n, hn, p, q, k, hmi, -⟩ := h.fits c hc
  exact hmi ▸ List.mem_map_of_mem hm

theorem target_mem {g : Graph κ} (h : g.WellFormed) {c : Connection} (hc : c ∈ g.connections) :
    c.target.node ∈ g.ids := by
  obtain ⟨m, hm, n, hn, p, q, k, hmi, hni, -⟩ := h.fits c hc
  exact hni ▸ List.mem_map_of_mem hn

/-- Whatever keeps the frames and the connections keeps the structure. -/
theorem of_frames {g h : Graph κ} (hw : g.WellFormed) (hf : h.frames = g.frames)
    (hc : h.connections = g.connections) : h.WellFormed where
  ascending := by rw [ids_eq_map_frames, hf, ← ids_eq_map_frames]; exact hw.ascending
  fits c hm := (hw.fits c (hc ▸ hm)).of_frames hf
  single := by rw [hc]; exact hw.single

theorem empty (name : String) : (Graph.empty name : Graph κ).WellFormed :=
  ⟨.nil, fun _ h => absurd h List.not_mem_nil, .nil⟩

theorem insert {g : Graph κ} (hw : g.WellFormed) {id : NodeId} (hid : ∀ i ∈ g.ids, i < id)
    (n : Node κ) : (g.insert id n).WellFormed where
  ascending := by
    simp only [ids, Graph.insert, List.map_append, List.map_cons, List.map_nil]
    rw [List.pairwise_append]
    refine ⟨hw.ascending, List.pairwise_singleton _ _, fun i hi j hj => ?_⟩
    rw [List.mem_singleton.mp hj]
    exact hid i hi
  fits c hc := (hw.fits c hc).mono fun m hm => List.mem_append_left _ hm
  single := hw.single

theorem remove {g h : Graph κ} (hw : g.WellFormed) {id : NodeId} {n : Node κ}
    (hr : g.remove? id = some (n, h)) : h.WellFormed := by
  obtain ⟨-, rfl⟩ := remove?_eq_some hr
  constructor
  case ascending => exact hw.ascending.sublist (List.filter_sublist.map _)
  case single => exact hw.single.sublist (List.filter_sublist.map _)
  case fits =>
    intro c hc
    rw [List.mem_filter] at hc
    obtain ⟨m, hm, t, ht, p, q, k, hmi, hti, rest⟩ := hw.fits c hc.1
    have hne : c.source.node ≠ id ∧ c.target.node ≠ id := by simpa [Connection.involves] using hc.2
    refine ⟨m, ?_, t, ?_, p, q, k, hmi, hti, rest⟩
    · exact List.mem_filter.mpr ⟨hm, by simpa [hmi] using hne.1⟩
    · exact List.mem_filter.mpr ⟨ht, by simpa [hti] using hne.2⟩

theorem drop {g : Graph κ} (hw : g.WellFormed) (c : Connection) : (g.drop c).WellFormed where
  ascending := hw.ascending
  fits d hd := hw.fits d (List.mem_of_mem_filter hd)
  single := hw.single.sublist (List.filter_sublist.map _)

end WellFormed

/-! ## Connecting -/

/-- A new connection displaces those with its target. -/
theorem mem_placed_iff {c d : Connection} {cs : List Connection} :
    d ∈ placed c cs ↔ d = c ∨ d ∈ cs ∧ d.target ≠ c.target := by
  unfold placed
  by_cases hany : (cs.any fun x => x.target = c.target) = true
  · rw [if_pos hany, List.mem_map]
    constructor
    · rintro ⟨x, hx, rfl⟩
      by_cases ht : x.target = c.target
      · exact .inl (if_pos ht)
      · rw [if_neg ht]
        exact .inr ⟨hx, ht⟩
    · rintro (rfl | ⟨hd, ht⟩)
      · obtain ⟨x, hx, ht⟩ := List.any_eq_true.mp hany
        exact ⟨x, hx, if_pos (of_decide_eq_true ht)⟩
      · exact ⟨d, hd, if_neg ht⟩
  · have hfree : d ∈ cs → d.target ≠ c.target := fun hd ht =>
      hany (List.any_eq_true.mpr ⟨d, hd, decide_eq_true ht⟩)
    rw [if_neg hany, List.mem_append, List.mem_singleton, or_comm, and_iff_left_of_imp hfree]

theorem mem_placed {c d : Connection} {cs : List Connection} (h : d ∈ placed c cs) :
    d = c ∨ d ∈ cs :=
  (mem_placed_iff.mp h).imp_right And.left

/-- A new connection takes the place of the one that fed its input, or comes last. -/
theorem map_target_placed (c : Connection) (cs : List Connection) :
    (placed c cs).map Connection.target =
      if c.target ∈ cs.map Connection.target then cs.map Connection.target
      else cs.map Connection.target ++ [c.target] := by
  have hany : (cs.any fun d => d.target = c.target) = true ↔
      c.target ∈ cs.map Connection.target := by
    simp
  unfold placed
  by_cases h : c.target ∈ cs.map Connection.target
  · rw [if_pos (hany.mpr h), if_pos h, List.map_map]
    refine List.map_congr_left fun d _ => ?_
    by_cases hd : d.target = c.target <;> simp [hd]
  · rw [if_neg (mt hany.mp h), if_neg h, List.map_append, List.map_cons, List.map_nil]

/-- What a successful look at the ends of a connection has found. -/
theorem ends_eq_ok {g : Graph κ} {source : OutputPlace} {target : InputPlace} {k : ValueKind}
    {q : Port} (h : g.ends source target = .ok (k, q)) :
    ∃ m n p, g.node? source.node = some m ∧ g.node? target.node = some n ∧
      m.outputs[source.output]? = some p ∧ p.emits? = some k ∧
      n.inputs[target.input]? = some q := by
  unfold ends endpoint at h
  cases hm : g.node? source.node with
  | none => rw [hm] at h; cases h
  | some m =>
    cases hn : g.node? target.node with
    | none => rw [hm, hn] at h; cases h
    | some n =>
      rw [hm, hn] at h
      cases hk : m.outputs[source.output]?.bind Port.emits? with
      | none => simp [outputKind, hk, bind, Except.bind] at h
      | some k' =>
        cases hq : n.inputs[target.input]? with
        | none => simp [outputKind, inputPort, hk, hq, bind, Except.bind] at h
        | some q' =>
          simp only [outputKind, inputPort, hk, hq, bind, Except.bind, pure, Except.pure,
            Except.ok.injEq, Prod.mk.injEq] at h
          obtain ⟨p, hp, hpk⟩ := Option.bind_eq_some_iff.mp hk
          exact ⟨m, n, p, rfl, rfl, hp, h.1 ▸ hpk, h.2 ▸ hq⟩

/-- What a successful connection leaves. -/
theorem connect_eq_ok {g h : Graph κ} {id : ConnectionId} {source : OutputPlace}
    {target : InputPlace} {c : Connection} (hc : g.connect id source target = .ok (c, h)) :
    c = ⟨id, source, target⟩ ∧ h = { g with connections := placed c g.connections } ∧
      ∃ k q, g.ends source target = .ok (k, q) ∧ q.accepts k = true := by
  unfold connect at hc
  cases he : g.ends source target with
  | error e => rw [he] at hc; cases hc
  | ok kq =>
    obtain ⟨k, q⟩ := kq
    rw [he] at hc
    by_cases ha : q.accepts k = true
    · simp only [Except.mapError, bind, Except.bind, ha, if_true, pure, Except.pure,
        Except.ok.injEq, Prod.mk.injEq] at hc
      obtain ⟨rfl, rfl⟩ := hc
      exact ⟨rfl, rfl, k, q, rfl, ha⟩
    · simp [Except.mapError, bind, Except.bind, ha] at hc

/-- Connecting by positions among all ports is connecting the same nodes by positions among the
ports of one direction. -/
theorem connectPorts_eq_ok {g h : Graph κ} {id : ConnectionId} {source target : PortPlace}
    {c : Connection} (hc : g.connectPorts id source target = .ok (c, h)) :
    ∃ output input,
      g.connect id ⟨source.node, output⟩ ⟨target.node, input⟩ = .ok (c, h) := by
  unfold connectPorts at hc
  cases hs : g.directed source .output with
  | error e => rw [hs] at hc; cases hc
  | ok output =>
    cases ht : g.directed target .input with
    | error e => rw [hs, ht] at hc; cases hc
    | ok input =>
      rw [hs, ht] at hc
      exact ⟨output, input, hc⟩

theorem WellFormed.connect {g h : Graph κ} (hw : g.WellFormed) {id : ConnectionId}
    {source : OutputPlace} {target : InputPlace} {c : Connection}
    (hc : g.connect id source target = .ok (c, h)) : h.WellFormed := by
  obtain ⟨rfl, rfl, k, q, he, ha⟩ := connect_eq_ok hc
  obtain ⟨m, n, p, hm, hn, hp, hk, hq⟩ := ends_eq_ok he
  constructor
  case ascending => exact hw.ascending
  case fits =>
    intro d hd
    rcases mem_placed hd with rfl | hd
    · exact ⟨m, (mem_of_node? hm).1, n, (mem_of_node? hn).1, p, q, k, (mem_of_node? hm).2,
        (mem_of_node? hn).2, hp, hq, hk, ha⟩
    · exact hw.fits d hd
  case single =>
    simp only [map_target_placed]
    split
    · exact hw.single
    · next hnew =>
      refine List.nodup_append.mpr ⟨hw.single, List.nodup_singleton _, fun a ha b hb => ?_⟩
      rw [List.mem_singleton.mp hb]
      exact fun e => hnew (e ▸ ha)

/-! ## Passes -/

variable [Kernel κ]

theorem connections_runNode (settings : Settings) (g : Graph κ) (n : Node κ) :
    (g.runNode settings n).1.connections = g.connections := rfl

theorem frames_runNode (settings : Settings) {g : Graph κ} (hd : g.ids.Nodup) {n : Node κ}
    (hn : n ∈ g.nodes) : (g.runNode settings n).1.frames = g.frames := by
  have h : (g.runNode settings n).1.frames = (g.setNode _).frames := rfl
  rw [h]
  exact frames_setNode hd hn (by rw [Node.frame_conclude, Node.frame_resolve])

/-- A run of nodes keeps frames and connections. -/
theorem frames_runNodes (settings : Settings) (order : List NodeId) {g : Graph κ}
    (hd : g.ids.Nodup) (r : Report) :
    (runNodes settings order (g, r)).1.frames = g.frames ∧
      (runNodes settings order (g, r)).1.connections = g.connections := by
  induction order generalizing g r with
  | nil => exact ⟨rfl, rfl⟩
  | cons id rest ih =>
    unfold runNodes
    cases hn : g.node? id with
    | none => exact ih hd r
    | some n =>
      have hf := frames_runNode settings hd (mem_of_node? hn).1
      have hd' : (g.runNode settings n).1.ids.Nodup := by
        rw [ids_eq_map_frames, hf, ← ids_eq_map_frames]
        exact hd
      obtain ⟨h1, h2⟩ := ih hd' (r.record id (g.runNode settings n).2)
      exact ⟨h1.trans hf, h2.trans (connections_runNode settings g n)⟩

/-- A run of nodes keeps the name of its graph. -/
theorem name_runNodes (settings : Settings) (order : List NodeId) (g : Graph κ) (r : Report) :
    (runNodes settings order (g, r)).1.name = g.name := by
  induction order generalizing g r with
  | nil => rfl
  | cons id rest ih =>
    unfold runNodes
    cases g.node? id with
    | none => exact ih g r
    | some n => exact ih (g.runNode settings n).1 _

/-- A graph at the start of a pass. -/
def restarted (g : Graph κ) : Graph κ :=
  { g with nodes := g.nodes.map Node.restart }

omit [Kernel κ] in
theorem frames_restarted (g : Graph κ) : g.restarted.frames = g.frames := by
  simp [restarted, frames, Function.comp_def]

/-- A successful pass runs the nodes of an order that exists, one after the other. -/
theorem evaluate_eq_ok {settings : Settings} {g h : Graph κ} {r : Report}
    (he : g.evaluate settings = .ok (h, r)) :
    g.findCycle? = none ∧ ∃ order, g.topologicalOrder? = some order ∧
      runNodes settings order (g.restarted, .start order) = (h, r) := by
  unfold evaluate at he
  split at he
  · cases he
  · cases he
  · next order hc ho => exact ⟨hc, order, ho, Except.ok.inj he⟩

/-- What can be read off the result of a pass is read off a pass that succeeds. -/
theorem exists_of_evaluate {α : Type} {settings : Settings} {g : Graph κ}
    {read : Graph κ × Report → α} {a : α}
    (hread : (g.evaluate settings).toOption.map read = some a) :
    ∃ h r, g.evaluate settings = .ok (h, r) ∧ read (h, r) = a := by
  cases he : g.evaluate settings with
  | error e => rw [he] at hread; cases hread
  | ok hr =>
    rw [he] at hread
    exact ⟨hr.1, hr.2, rfl, Option.some.inj hread⟩

/-- A pass keeps frames and connections. -/
theorem frames_evaluate {settings : Settings} {g h : Graph κ} {r : Report} (hw : g.WellFormed)
    (he : g.evaluate settings = .ok (h, r)) :
    h.frames = g.frames ∧ h.connections = g.connections := by
  obtain ⟨-, order, -, hrun⟩ := evaluate_eq_ok he
  have hw' := hw.of_frames (frames_restarted g) rfl
  have hf := frames_runNodes settings order hw'.nodup (.start order)
  rw [hrun] at hf
  exact ⟨hf.1.trans (frames_restarted g), hf.2⟩

theorem name_evaluate {settings : Settings} {g h : Graph κ} {r : Report}
    (he : g.evaluate settings = .ok (h, r)) : h.name = g.name := by
  obtain ⟨-, order, -, hrun⟩ := evaluate_eq_ok he
  have hn := name_runNodes settings order g.restarted (.start order)
  rwa [hrun] at hn

theorem WellFormed.evaluate {settings : Settings} {g h : Graph κ} {r : Report}
    (hw : g.WellFormed) (he : g.evaluate settings = .ok (h, r)) : h.WellFormed :=
  have hf := frames_evaluate hw he
  hw.of_frames hf.1 hf.2

end Graph

/-! ## Sessions -/

namespace Session

/-- What holds of every session that began without nodes. -/
structure WellFormed (s : Session κ) : Prop where
  graphs : ∀ g ∈ s.graphs, g.WellFormed
  issued : ∀ g ∈ s.graphs, ∀ id ∈ g.ids, id ≤ s.issued
  current : s.current < s.graphs.length

theorem graph_eq_getElem {s : Session κ} (h : s.current < s.graphs.length) :
    s.graph = s.graphs[s.current] := by
  rw [graph, List.getD_eq_getElem?_getD, List.getElem?_eq_getElem h, Option.getD_some]

namespace WellFormed

theorem graph_mem {s : Session κ} (h : s.WellFormed) : s.graph ∈ s.graphs :=
  graph_eq_getElem h.current ▸ List.getElem_mem _

theorem graph {s : Session κ} (h : s.WellFormed) : s.graph.WellFormed :=
  h.graphs _ h.graph_mem

theorem start (name : String) : (Session.start name : Session κ).WellFormed where
  graphs g hg := by
    rw [List.mem_singleton.mp hg]
    exact .empty name
  issued g hg id hid := by
    rw [List.mem_singleton.mp hg] at hid
    exact absurd hid List.not_mem_nil
  current := Nat.one_pos

/-- Numbers may be given and nodes may be held outside of the graphs at any time. -/
theorem of_graphs {s t : Session κ} (h : s.WellFormed) (hg : t.graphs = s.graphs)
    (hc : t.current = s.current) (hi : s.issued ≤ t.issued) : t.WellFormed where
  graphs g hm := h.graphs g (hg ▸ hm)
  issued g hm id hid := (h.issued g (hg ▸ hm) id hid).trans hi
  current := by rw [hc, hg]; exact h.current

theorem setGraph {s : Session κ} (h : s.WellFormed) {g : Graph κ} (hg : g.WellFormed)
    (hi : ∀ id ∈ g.ids, id ≤ s.issued) : (s.setGraph g).WellFormed where
  graphs x hx := by
    rcases List.mem_or_eq_of_mem_set hx with hx | rfl
    · exact h.graphs x hx
    · exact hg
  issued x hx := by
    rcases List.mem_or_eq_of_mem_set hx with hx | rfl
    · exact h.issued x hx
    · exact hi
  current := by simpa [Session.setGraph] using h.current

/-- A graph whose numbers are among those of the current one may take its place. -/
theorem setGraph_of_ids {s : Session κ} (h : s.WellFormed) {g : Graph κ} (hg : g.WellFormed)
    (hi : ∀ id ∈ g.ids, id ∈ s.graph.ids) : (s.setGraph g).WellFormed :=
  h.setGraph hg fun id hid => h.issued _ h.graph_mem id (hi id hid)

theorem focus {s : Session κ} (h : s.WellFormed) (index : Nat) (name : Option String) :
    (s.focus index name).WellFormed := by
  have hmem : ∀ g ∈ s.graphs ++ List.replicate (index + 1 - s.graphs.length)
      (Graph.empty unnamed : Graph κ), g ∈ s.graphs ∨ g = .empty unnamed := by
    intro g hg
    rcases List.mem_append.mp hg with hg | hg
    · exact .inl hg
    · exact .inr (List.eq_of_mem_replicate hg)
  have hs : WellFormed { s with
      graphs := s.graphs ++ List.replicate (index + 1 - s.graphs.length) (.empty unnamed)
      current := index } := by
    constructor
    case graphs =>
      intro g hg
      rcases hmem g hg with hg | rfl
      · exact h.graphs g hg
      · exact .empty unnamed
    case issued =>
      intro g hg id hid
      rcases hmem g hg with hg | rfl
      · exact h.issued g hg id hid
      · exact absurd hid List.not_mem_nil
    case current =>
      simp only [List.length_append, List.length_replicate]
      omega
  cases name with
  | none => exact hs
  | some name => exact hs.setGraph_of_ids (hs.graph.of_frames rfl rfl) fun id hid => hid

theorem place {s : Session κ} (h : s.WellFormed) (n : Node κ) : (s.place n).2.WellFormed := by
  have hnew : ∀ i ∈ s.graph.ids, i < s.nextId := fun i hi =>
    Nat.lt_succ_of_le (h.issued _ h.graph_mem i hi)
  have hs : WellFormed { s with issued := s.issued + 1 } :=
    h.of_graphs rfl rfl (Nat.le_succ _)
  refine hs.setGraph (h.graph.insert hnew n) fun id hid => ?_
  simp only [Graph.ids, Graph.insert, List.map_append, List.mem_append] at hid
  rcases hid with hid | hid
  · exact (hnew id hid).le
  · exact (List.mem_singleton.mp hid).le

theorem remove {s : Session κ} (h : s.WellFormed) (id : NodeId) :
    (s.remove id).2.WellFormed := by
  unfold Session.remove
  cases hr : s.graph.remove? id with
  | none => exact h
  | some ng =>
    obtain ⟨n, g⟩ := ng
    have hsub : ∀ i ∈ g.ids, i ∈ s.graph.ids := by
      rw [(Graph.remove?_eq_some hr).2]
      exact fun i hi => (List.filter_sublist.map _).subset hi
    exact (h.setGraph_of_ids (h.graph.remove hr) hsub).of_graphs rfl rfl le_rfl

theorem settleConnect {s : Session κ} (h : s.WellFormed)
    {r : Except ConnectError (Connection × Graph κ)}
    (hr : ∀ c g, r = .ok (c, g) → g.WellFormed ∧ g.ids = s.graph.ids) :
    (s.settleConnect r).2.WellFormed := by
  cases r with
  | error e => exact h
  | ok cg =>
    obtain ⟨hg, hi⟩ := hr cg.1 cg.2 rfl
    exact (h.setGraph_of_ids hg fun id hid => hi ▸ hid).of_graphs rfl rfl le_rfl

theorem settleDisconnect {s : Session κ} (h : s.WellFormed)
    {r : Option (Connection × Graph κ)} (hr : ∀ c g, r = some (c, g) → g = s.graph.drop c) :
    (s.settleDisconnect r).2.WellFormed := by
  cases r with
  | none => exact h
  | some cg =>
    obtain ⟨c, g⟩ := cg
    obtain rfl := hr c g rfl
    exact h.setGraph_of_ids (h.graph.drop c) fun id hid => hid

variable [Kernel κ]

theorem editNode {s : Session κ} (h : s.WellFormed) (p : NodePlace) (e : NodeEdit) :
    (s.editNode p e).2.WellFormed := by
  unfold Session.editNode
  cases hn : s.node? p with
  | none => exact h
  | some n =>
    cases he : e.apply n with
    | error err => simpa only [he] using h
    | ok m =>
      simp only [he]
      cases p with
      | slot index => exact h.of_graphs rfl rfl le_rfl
      | node id =>
        have hf := Graph.frames_setNode h.graph.nodup (Graph.mem_of_node? hn).1
          (Node.frame_apply he)
        refine h.setGraph_of_ids (h.graph.of_frames hf rfl) fun i hi => ?_
        rwa [Graph.ids_setNode] at hi

theorem evaluate {s : Session κ} (h : s.WellFormed) (settings : Settings) :
    (s.evaluate settings).2.WellFormed := by
  unfold Session.evaluate
  cases he : s.graph.evaluate settings with
  | error e => exact h
  | ok gr =>
    obtain ⟨g, r⟩ := gr
    have hf := Graph.frames_evaluate h.graph he
    refine h.setGraph_of_ids (h.graph.evaluate he) fun id hid => ?_
    rwa [Graph.ids_eq_map_frames, hf.1, ← Graph.ids_eq_map_frames] at hid

end WellFormed

variable [Kernel κ]

/-- Every edit keeps the structure. -/
theorem wellFormed_step {s : Session κ} (h : s.WellFormed) (e : Edit κ) :
    (s.step e).2.WellFormed := by
  cases e with
  | focus index name => exact h.focus index name
  | create draft => exact h.of_graphs rfl rfl (Nat.le_succ _)
  | insert slot =>
    simp only [step]
    cases s.slot? slot with
    | none => exact h
    | some n =>
      have hs : WellFormed { s with held := s.held.set slot none } := h.of_graphs rfl rfl le_rfl
      exact hs.place n
  | add draft =>
    have hs : WellFormed { s with issued := s.issued + 1 } := h.of_graphs rfl rfl (Nat.le_succ _)
    exact hs.place _
  | remove id => exact h.remove id
  | connect source target =>
    refine h.settleConnect fun c g hc => ⟨h.graph.connect hc, ?_⟩
    rw [(Graph.connect_eq_ok hc).2.1]
    rfl
  | connectPorts source target =>
    refine h.settleConnect fun c g hc => ?_
    obtain ⟨o, i, hc⟩ := Graph.connectPorts_eq_ok hc
    refine ⟨h.graph.connect hc, ?_⟩
    rw [(Graph.connect_eq_ok hc).2.1]
    rfl
  | disconnect target => exact h.settleDisconnect fun c g => Graph.disconnect?_eq_some
  | disconnectId id => exact h.settleDisconnect fun c g => Graph.disconnectId?_eq_some
  | node p e => exact h.editNode p e
  | evaluate settings => exact h.evaluate settings

/-- Every history keeps the structure. -/
theorem wellFormed_run {s : Session κ} (h : s.WellFormed) (es : List (Edit κ)) :
    (s.run es).WellFormed := by
  induction es generalizing s with
  | nil => exact h
  | cons e es ih => exact ih (wellFormed_step h e)

end Session

end TextureFlow
