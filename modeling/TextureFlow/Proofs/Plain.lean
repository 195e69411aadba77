import Mathlib
import TextureFlow.Proofs.Everywhere

/-!
# What reuse must not change

The *plain* form of a session forgets what only serves to decide whether a node may keep its
outputs: strategies, memos, clocks, and which generation a port has, except that it still tells
generation `0` from all others. It forgets as well how often nodes computed, and tells a node that
kept its outputs from one that computed no more. Numbers, names, kernels, values, fallbacks, errors
and connections are all still there. The plain form of an edit forgets strategies and the
memoization flag.

* `Session.shown_step`: the plain form of what an edit other than a pass does depends on the plain
  forms of the session and of the edit only.
-/

namespace TextureFlow

/-! ## Plain forms -/

/-- A port of which only is known whether its generation is `0`. -/
def Port.plain (p : Port) : Port :=
  { p with generation := min p.generation 1 }

/-- Outputs that were kept are as good as computed ones. -/
def NodeState.plain : NodeState → NodeState
  | .reused => .computed
  | state => state

/-- A node without strategy, memo and generations. -/
def Node.plain {κ : Type} (n : Node κ) : Node κ :=
  { n with
    strategy := .eager
    inputs := n.inputs.map Port.plain
    outputs := n.outputs.map Port.plain
    state := n.state.plain
    memo := none
    computeCount := 0 }

/-- A graph of plain nodes, without a clock. -/
def Graph.plain {κ : Type} (g : Graph κ) : Graph κ :=
  { g with nodes := g.nodes.map Node.plain, revision := 0 }

/-- A session of plain nodes. -/
def Session.plain {κ : Type} (s : Session κ) : Session κ :=
  { s with
    graphs := s.graphs.map Graph.plain
    held := s.held.map (Option.map Node.plain) }

/-- A report that does not tell nodes that kept their outputs from nodes that computed. -/
def Report.plain (r : Report) : Report :=
  { r with
    computed := r.order.filter fun id => id ∈ r.computed ∨ id ∈ r.reused
    reused := [] }

/-- An outcome with a plain report. -/
def Outcome.plain : Outcome → Outcome
  | .evaluated (.ok r) => .evaluated (.ok r.plain)
  | o => o

/-- The settings without memoization. -/
def Settings.plain (settings : Settings) : Settings :=
  { settings with memoization := false }

/-- A draft without a strategy of its own. -/
def Draft.plain {κ : Type} (d : Draft κ) : Draft κ :=
  { d with strategy := none }

/-- An edit of a node that leaves the strategy open. -/
def NodeEdit.plain : NodeEdit → NodeEdit
  | .strategy _ => .strategy .eager
  | e => e

/-- An edit that leaves strategies and memoization open. -/
def Edit.plain {κ : Type} : Edit κ → Edit κ
  | .create draft => .create draft.plain
  | .add draft => .add draft.plain
  | .node place e => .node place e.plain
  | .evaluate settings => .evaluate settings.plain
  | e => e

/-- What is seen of a step. -/
def Session.shown {κ : Type} (x : Outcome × Session κ) : Outcome × Session κ :=
  (x.1.plain, x.2.plain)

/-! ## Plain forms are plain -/

theorem Port.plain_plain (p : Port) : p.plain.plain = p.plain := by
  simp [plain]

theorem Node.plain_plain {κ : Type} (n : Node κ) : n.plain.plain = n.plain := by
  have hs : n.state.plain.plain = n.state.plain := by cases n.state <;> rfl
  simp [plain, hs, Function.comp_def, Port.plain_plain]

theorem Graph.plain_plain {κ : Type} (g : Graph κ) : g.plain.plain = g.plain := by
  simp [plain, Function.comp_def, Node.plain_plain]

theorem Session.plain_plain {κ : Type} (s : Session κ) : s.plain.plain = s.plain := by
  simp [plain, Function.comp_def, Graph.plain_plain, Node.plain_plain]

theorem Report.plain_plain (r : Report) : r.plain.plain = r.plain := by
  simp only [plain, Report.mk.injEq, true_and, and_true]
  refine List.filter_congr fun id hid => ?_
  simp [hid]

theorem Outcome.plain_plain (o : Outcome) : o.plain.plain = o.plain := by
  cases o with
  | evaluated result =>
    cases result with
    | error e => rfl
    | ok r => simp only [plain, Report.plain_plain]
  | _ => rfl

/-! ## Ports and nodes -/

namespace Port

@[simp] theorem face_plain (p : Port) : p.plain.face = p.face := rfl

@[simp] theorem value_plain (p : Port) : p.plain.value = p.value := rfl

theorem generation_plain_eq_zero (p : Port) : p.plain.generation = 0 ↔ p.generation = 0 := by
  simp only [plain]
  omega

end Port

namespace Node

variable {κ : Type}

@[simp] theorem id_plain (n : Node κ) : n.plain.id = n.id := rfl

variable [Kernel κ]

theorem plain_draft (d : Draft κ) (id : NodeId) : (d.plain.node id).plain = (d.node id).plain := by
  obtain ⟨kernel, name, strategy⟩ := d
  cases name <;> cases strategy <;> rfl

/-- Edits of a node work on plain forms. -/
theorem apply_plain (e : NodeEdit) (n : Node κ) :
    e.plain.apply n.plain = (e.apply n).map Node.plain := by
  cases e with
  | parameter name v =>
    simp only [NodeEdit.plain, NodeEdit.apply, setParameter]
    have hk : n.plain.kernel = n.kernel := rfl
    rw [hk]
    cases Kernel.setParameter n.kernel name v <;> rfl
  | fallback index v =>
    simp only [NodeEdit.plain, NodeEdit.apply, setFallback]
    have hi : n.plain.inputs[index]? = (n.inputs[index]?).map Port.plain :=
      List.getElem?_map ..
    rw [hi]
    cases hp : n.inputs[index]? with
    | none => rfl
    | some p =>
      have ha : p.plain.accepts v.kind = p.accepts v.kind := rfl
      simp only [Option.map_some, ha]
      by_cases hv : p.accepts v.kind = true
      · simp only [hv, if_true, Except.map, invalidate, plain, List.map_set,
          Port.generation_plain_eq_zero]
        -- a fallback shows at once where the generation is `0`, which the plain form tells
        by_cases hg : p.generation = 0
        · simp only [hg, if_true]
          rfl
        · simp only [hg, if_false]
          rfl
      · simp only [hv]
        rfl
  | strategy s => rfl
  | invalidate => rfl

end Node

/-! ## Graphs -/

namespace Graph

variable {κ : Type}

@[simp] theorem ids_plain (g : Graph κ) : g.plain.ids = g.ids := by
  simp [ids, plain, Function.comp_def]

@[simp] theorem connections_plain (g : Graph κ) : g.plain.connections = g.connections := rfl

theorem node?_plain (g : Graph κ) (id : NodeId) :
    g.plain.node? id = (g.node? id).map Node.plain := by
  rw [node?, node?, plain, List.find?_map]
  rfl

theorem setNode_plain (g : Graph κ) (n : Node κ) :
    (g.setNode n).plain = g.plain.setNode n.plain := by
  simp only [setNode, plain, List.map_map]
  congr 1
  refine List.map_congr_left fun m _ => ?_
  by_cases h : m.id = n.id <;> simp [h]

theorem insert_plain (g : Graph κ) (id : NodeId) (n : Node κ) :
    (g.insert id n).plain = g.plain.insert id n.plain := by
  simp [insert, plain, Node.plain]

theorem remove?_plain (g : Graph κ) (id : NodeId) :
    g.plain.remove? id = (g.remove? id).map (Prod.map Node.plain plain) := by
  rw [remove?, remove?, node?_plain]
  cases g.node? id with
  | none => rfl
  | some n =>
    simp only [Option.map_some, Prod.map, plain, List.filter_map]
    rfl

/-- What a connection is refused for does not show in the plain form. -/
theorem ends_plain (g : Graph κ) (source : OutputPlace) (target : InputPlace) :
    g.plain.ends source target = (g.ends source target).map (Prod.map id Port.plain) := by
  have hout : ∀ n : Node κ, outputKind n.plain source.output = outputKind n source.output := by
    intro n
    have ho : n.plain.outputs[source.output]? = (n.outputs[source.output]?).map Port.plain :=
      List.getElem?_map ..
    rw [outputKind, outputKind, ho]
    cases n.outputs[source.output]? <;> rfl
  have hin : ∀ n : Node κ,
      inputPort n.plain target.input = (inputPort n target.input).map Port.plain := by
    intro n
    have hi : n.plain.inputs[target.input]? = (n.inputs[target.input]?).map Port.plain :=
      List.getElem?_map ..
    rw [inputPort, inputPort, hi]
    cases n.inputs[target.input]? <;> rfl
  simp only [ends, endpoint, node?_plain]
  cases g.node? source.node with
  | none => rfl
  | some m =>
    cases g.node? target.node with
    | none => rfl
    | some n =>
      simp only [Option.map_some, bind, Except.bind, hout, hin]
      cases outputKind m source.output with
      | error e => rfl
      | ok k => cases inputPort n target.input <;> rfl

theorem connect_plain (g : Graph κ) (number : ConnectionId) (source : OutputPlace)
    (target : InputPlace) :
    g.plain.connect number source target =
      (g.connect number source target).map (Prod.map id plain) := by
  rw [connect, connect, ends_plain]
  cases g.ends source target with
  | error e => rfl
  | ok kp =>
    obtain ⟨k, p⟩ := kp
    have ha : p.plain.accepts k = p.accepts k := rfl
    by_cases hk : p.accepts k = true
    · simp only [Except.map, Except.mapError, bind, Except.bind, Prod.map, id, ha, hk, if_true]
      rfl
    · simp only [Except.map, Except.mapError, bind, Except.bind, Prod.map, id, ha, hk]
      rfl

theorem directed_plain (g : Graph κ) (place : PortPlace) (expected : Direction) :
    g.plain.directed place expected = g.directed place expected := by
  simp only [directed, endpoint, node?_plain]
  cases g.node? place.node with
  | none => rfl
  | some n =>
    have hp : n.plain.ports[place.port]? = (n.ports[place.port]?).map Port.plain := by
      rw [Node.ports, Node.ports, ← List.getElem?_map, List.map_append]
      rfl
    have hl : n.plain.inputs.length = n.inputs.length := List.length_map _
    simp only [Option.map_some, bind, Except.bind, hp, hl]
    cases n.ports[place.port]? <;> rfl

theorem connectPorts_plain (g : Graph κ) (number : ConnectionId) (source target : PortPlace) :
    g.plain.connectPorts number source target =
      (g.connectPorts number source target).map (Prod.map id plain) := by
  rw [connectPorts, connectPorts, directed_plain, directed_plain]
  cases g.directed source .output with
  | error e => rfl
  | ok output =>
    cases g.directed target .input with
    | error e => rfl
    | ok input => exact connect_plain ..

theorem disconnect?_plain (g : Graph κ) (target : InputPlace) :
    g.plain.disconnect? target = (g.disconnect? target).map (Prod.map id plain) := by
  have ht : g.plain.connectionTo? target = g.connectionTo? target := rfl
  rw [disconnect?, disconnect?, ht]
  cases g.connectionTo? target <;> rfl

theorem disconnectId?_plain (g : Graph κ) (number : ConnectionId) :
    g.plain.disconnectId? number = (g.disconnectId? number).map (Prod.map id plain) := by
  rw [disconnectId?, disconnectId?, connections_plain]
  cases g.connections.find? fun c => c.id = number <;> rfl

end Graph

/-! ## Sessions -/

namespace Session

variable {κ : Type}

theorem graph_plain (s : Session κ) : s.plain.graph = s.graph.plain := by
  rw [graph, graph, List.getD_eq_getElem?_getD, List.getD_eq_getElem?_getD]
  have hg : s.plain.graphs[s.plain.current]? = (s.graphs[s.current]?).map Graph.plain :=
    List.getElem?_map ..
  rw [hg]
  cases s.graphs[s.current]? <;> rfl

theorem setGraph_plain (s : Session κ) (g : Graph κ) :
    (s.setGraph g).plain = s.plain.setGraph g.plain := by
  simp [setGraph, plain]

theorem slot?_plain (s : Session κ) (index : Nat) :
    s.plain.slot? index = (s.slot? index).map Node.plain := by
  have hs : s.plain.held[index]? = (s.held[index]?).map (Option.map Node.plain) :=
    List.getElem?_map ..
  rw [slot?, slot?, hs]
  cases s.held[index]? with
  | none => rfl
  | some slot => rfl

theorem place_plain (s : Session κ) (n : Node κ) :
    shown (s.place n) = s.plain.place n.plain := by
  have hid : s.plain.nextId = s.nextId := rfl
  rw [place, place, hid, graph_plain, ← Graph.insert_plain, ← setGraph_plain]
  rfl

theorem focus_plain (s : Session κ) (index : Nat) (name : Option String) :
    (s.focus index name).plain = s.plain.focus index name := by
  have hlen : s.plain.graphs.length = s.graphs.length := List.length_map _
  have hs : plain { s with
      graphs := s.graphs ++ List.replicate (index + 1 - s.graphs.length) (.empty unnamed)
      current := index } = { s.plain with
        graphs := s.plain.graphs ++
          List.replicate (index + 1 - s.plain.graphs.length) (.empty unnamed)
        current := index } := by
    simp [plain, Graph.plain, Graph.empty]
  cases name with
  | none => exact hs
  | some name =>
    refine (setGraph_plain _ _).trans ?_
    simp only [focus, ← hs, graph_plain]
    rfl

theorem settleConnect_plain (s : Session κ) (r : Except ConnectError (Connection × Graph κ)) :
    shown (s.settleConnect r) = s.plain.settleConnect (r.map (Prod.map id Graph.plain)) := by
  cases r with
  | error e => rfl
  | ok cg =>
    simp only [shown, settleConnect, Except.map, Prod.map, ← setGraph_plain]
    rfl

theorem settleDisconnect_plain (s : Session κ) (r : Option (Connection × Graph κ)) :
    shown (s.settleDisconnect r) = s.plain.settleDisconnect (r.map (Prod.map id Graph.plain)) := by
  cases r with
  | none => rfl
  | some cg =>
    simp only [shown, settleDisconnect, Option.map_some, Prod.map, ← setGraph_plain]
    rfl

theorem remove_plain (s : Session κ) (id : NodeId) :
    shown (s.remove id) = s.plain.remove id := by
  rw [remove, remove, graph_plain, Graph.remove?_plain]
  cases s.graph.remove? id with
  | none => rfl
  | some ng =>
    simp only [shown, Option.map_some, Prod.map, ← setGraph_plain]
    simp [plain, setGraph, Outcome.plain, Graph.plain]

variable [Kernel κ]

theorem editNode_plain (s : Session κ) (p : NodePlace) (e : NodeEdit) :
    shown (s.editNode p e) = s.plain.editNode p e.plain := by
  have hn : s.plain.node? p = (s.node? p).map Node.plain := by
    cases p with
    | node id =>
      simp only [node?, graph_plain]
      exact Graph.node?_plain ..
    | slot index => exact slot?_plain s index
  rw [editNode, editNode, hn]
  cases s.node? p with
  | none => rfl
  | some n =>
    simp only [Option.map_some, Node.apply_plain]
    cases e.apply n with
    | error err => rfl
    | ok m =>
      simp only [shown, Except.map]
      cases p with
      | node id =>
        simp only [setNode, setGraph_plain, Graph.setNode_plain, graph_plain, Outcome.plain]
      | slot index => simp [setNode, plain, Outcome.plain]

omit [Kernel κ] in
/-- What is shown already is shown as it is. -/
theorem shown_eq {x y : Outcome × Session κ} (h : shown x = y) : shown x = shown y := by
  rw [← h, shown, shown, plain_plain, Outcome.plain_plain]

/-- What an edit other than a pass does shows in the plain forms of the session and the edit. -/
theorem shown_step (s : Session κ) {e : Edit κ} (he : ¬ e.IsPass) :
    shown (s.step e) = shown (s.plain.step e.plain) := by
  cases e with
  | focus index name =>
    refine shown_eq ?_
    simp only [Session.step, Edit.plain, shown, ← focus_plain, graph_plain]
    rfl
  | create draft =>
    have hheld : s.plain.held.length = s.held.length := List.length_map _
    have hid : s.plain.nextId = s.nextId := rfl
    simp only [Session.step, Edit.plain, shown, create, hheld, hid]
    -- the nodes that were there are plain already, and the new one is plain by its draft
    simp [plain, Function.comp_def, Graph.plain_plain, Node.plain_plain, Node.plain_draft]
  | insert slot =>
    refine shown_eq ?_
    simp only [Session.step, Edit.plain, slot?_plain]
    cases s.slot? slot with
    | none => rfl
    | some n =>
      refine (place_plain ..).trans ?_
      simp only [Option.map_some, plain, List.map_set, Option.map_none]
  | add draft =>
    have hid : s.plain.nextId = s.nextId := rfl
    simp only [Session.step, Edit.plain, place_plain, hid, Node.plain_draft]
    congr 1
    exact (plain_plain { s with issued := s.issued + 1 }).symm
  | remove id => exact shown_eq (remove_plain s id)
  | connect source target =>
    refine shown_eq ((settleConnect_plain ..).trans ?_)
    rw [← Graph.connect_plain, ← graph_plain]
    rfl
  | connectPorts source target =>
    refine shown_eq ((settleConnect_plain ..).trans ?_)
    rw [← Graph.connectPorts_plain, ← graph_plain]
    rfl
  | disconnect target =>
    refine shown_eq ((settleDisconnect_plain ..).trans ?_)
    rw [← Graph.disconnect?_plain, ← graph_plain]
    rfl
  | disconnectId id =>
    refine shown_eq ((settleDisconnect_plain ..).trans ?_)
    rw [← Graph.disconnectId?_plain, ← graph_plain]
    rfl
  | node p e => exact shown_eq (editNode_plain s p e)
  | evaluate settings => exact absurd ⟨settings, rfl⟩ he

end Session

end TextureFlow
