import Mathlib
import TextureFlow.Catalogue.Basic
import TextureFlow.Proofs.Dataflow
import TextureFlow.Proofs.Origin

/-!
# When two ports can be connected

There are three ways to ask whether an output may feed an input: the check on the two ports, the
connection by positions among the ports of one direction, and the connection by positions among all
ports of a node. All three agree. A connection that is made changes what feeds one input and nothing
else, and one that is refused changes nothing.

* `Graph.joinable_iff`: a connection succeeds exactly if both ports exist and pass the check;
* `Graph.joined_of_connect`: what is left of the graph when it does;
* `Graph.connectPorts_eq_ok_iff`: the same connection by positions among all ports;
* `Session.connecting_run`: this for every graph of every session.
-/

namespace TextureFlow

variable {κ : Type}

/-! ## The sides of a node -/

namespace Node

/-- Every port stands on the side of its direction. -/
structure Sided (n : Node κ) : Prop where
  inputs : ∀ p ∈ n.inputs, p.direction = .input
  outputs : ∀ p ∈ n.outputs, p.direction = .output

/-- The kernel lists its ports by side, and a node has the ports of a kernel. -/
theorem MadeFrom.sided [Kernel κ] {n : Node κ} {d : Draft κ} (h : n.MadeFrom d) : n.Sided where
  inputs p hp := by
    have hface : p.face ∈ d.inputFaces := h.inputs ▸ List.mem_map_of_mem hp
    obtain ⟨q, -, hq⟩ := List.mem_map.mp hface
    exact (congrArg Face.direction hq).symm
  outputs p hp := by
    have hface : p.face ∈ d.outputFaces := h.outputs ▸ List.mem_map_of_mem hp
    obtain ⟨q, -, hq⟩ := List.mem_map.mp hface
    exact (congrArg Face.direction hq).symm

variable {n : Node κ} {k : Nat} {p : Port}

/-- Outputs come behind the inputs. -/
theorem Sided.output (h : n.Sided) (hp : n.ports[k]? = some p) (hd : p.direction = .output) :
    n.inputs.length ≤ k ∧ n.outputs[k - n.inputs.length]? = some p := by
  rw [ports, List.getElem?_append] at hp
  split at hp
  · have hin := h.inputs p (List.mem_of_getElem? hp)
    rw [hd] at hin
    cases hin
  · next hk => exact ⟨not_lt.mp hk, hp⟩

/-- Inputs keep their position among all ports. -/
theorem Sided.input (h : n.Sided) (hp : n.ports[k]? = some p) (hd : p.direction = .input) :
    n.inputs[k]? = some p := by
  rw [ports, List.getElem?_append] at hp
  split at hp
  · exact hp
  · have hout := h.outputs p (List.mem_of_getElem? hp)
    rw [hd] at hout
    cases hout

end Node

namespace Port

/-- The check on two ports, in terms of the kind that flows. -/
theorem canConnect_iff {p q : Port} :
    p.canConnect q = true ↔ q.direction = .input ∧ ∃ k, p.emits? = some k ∧ q.accepts k = true := by
  rw [canConnect, Bool.and_eq_true, decide_eq_true_iff, Option.any_eq_true]

/-- Only an output emits. -/
theorem direction_of_emits? {p : Port} {k : ValueKind} (h : p.emits? = some k) :
    p.direction = .output := by
  unfold emits? at h
  split at h
  · next hd _ => exact hd
  · cases h

end Port

namespace Node

/-! ## Kinds at the ports of a node -/

/-- A node has an output of a kind. -/
def Emits (n : Node κ) (output : Nat) (k : ValueKind) : Prop :=
  ∃ p, n.outputs[output]? = some p ∧ p.emits? = some k

/-- A node has an input that accepts a kind. -/
def Accepts (n : Node κ) (input : Nat) (k : ValueKind) : Prop :=
  ∃ p, n.inputs[input]? = some p ∧ p.accepts k = true

/-- What an input accepts can be read off its face. -/
theorem accepts_iff {n : Node κ} {input : Nat} {k : ValueKind} : n.Accepts input k ↔
    ∃ f, (n.inputs.map Port.face)[input]? = some f ∧ f.accepted.contains k = true := by
  rw [Accepts, List.getElem?_map]
  constructor
  · rintro ⟨p, hp, ha⟩
    exact ⟨p.face, Option.map_eq_some_iff.mpr ⟨p, hp, rfl⟩, ha⟩
  · rintro ⟨f, hf, ha⟩
    obtain ⟨p, hp, rfl⟩ := Option.map_eq_some_iff.mp hf
    exact ⟨p, hp, ha⟩

end Node

namespace Graph

/-! ## By positions among the ports of one direction -/

/-- An output and an input exist and may be connected. -/
def Joinable (g : Graph κ) (source : OutputPlace) (target : InputPlace) : Prop :=
  ∃ m n p q, g.node? source.node = some m ∧ g.node? target.node = some n ∧
    m.outputs[source.output]? = some p ∧ n.inputs[target.input]? = some q ∧
    p.canConnect q = true

/-- A graph is left with a new connection, and every other input is fed as before. -/
structure Joined (g : Graph κ) (c : Connection) (h : Graph κ) : Prop where
  same : h = { g with connections := h.connections }
  made : h.connectionTo? c.target = some c
  others : ∀ target, target ≠ c.target → h.connectionTo? target = g.connectionTo? target
  order : (h.connections.filter fun d => d.target ≠ c.target) =
    g.connections.filter fun d => d.target ≠ c.target

/-- The ends of a connection, looked up port by port. -/
theorem ends_of_ports {g : Graph κ} {source : OutputPlace} {target : InputPlace} {m n : Node κ}
    {p q : Port} {k : ValueKind} (hm : g.node? source.node = some m)
    (hn : g.node? target.node = some n) (hp : m.outputs[source.output]? = some p)
    (hq : n.inputs[target.input]? = some q) (hk : p.emits? = some k) :
    g.ends source target = .ok (k, q) := by
  simp only [ends, endpoint, outputKind, inputPort, hm, hn, hp, hq, hk, Option.bind_some, bind,
    Except.bind, pure, Except.pure]

/-- The ends of a connection that may be made. -/
theorem connect_of_ends {g : Graph κ} {source : OutputPlace} {target : InputPlace}
    {k : ValueKind} {q : Port} (he : g.ends source target = .ok (k, q)) (ha : q.accepts k = true)
    (id : ConnectionId) : g.connect id source target =
      .ok (⟨id, source, target⟩,
        { g with connections := placed ⟨id, source, target⟩ g.connections }) := by
  simp only [connect, he, Except.mapError, bind, Except.bind, ha, if_true, pure, Except.pure]

/-- A connection succeeds exactly if there is an output of a kind and an input that accepts it. -/
theorem exists_connect_iff {g : Graph κ} {id : ConnectionId} {source : OutputPlace}
    {target : InputPlace} : (∃ c h, g.connect id source target = .ok (c, h)) ↔
      ∃ m n k, g.node? source.node = some m ∧ g.node? target.node = some n ∧
        m.Emits source.output k ∧ n.Accepts target.input k := by
  constructor
  · rintro ⟨c, h, hc⟩
    obtain ⟨-, -, k, q, he, ha⟩ := connect_eq_ok hc
    obtain ⟨m, n, p, hm, hn, hp, hk, hq⟩ := ends_eq_ok he
    exact ⟨m, n, k, hm, hn, ⟨p, hp, hk⟩, ⟨q, hq, ha⟩⟩
  · rintro ⟨m, n, k, hm, hn, ⟨p, hp, hk⟩, ⟨q, hq, ha⟩⟩
    exact ⟨_, _, connect_of_ends (ends_of_ports hm hn hp hq hk) ha id⟩

/-- A connection succeeds exactly if both ports exist and pass the check. -/
theorem joinable_iff {g : Graph κ} (hs : ∀ n ∈ g.nodes, n.Sided) (id : ConnectionId)
    {source : OutputPlace} {target : InputPlace} :
    g.Joinable source target ↔ ∃ c h, g.connect id source target = .ok (c, h) := by
  rw [exists_connect_iff]
  constructor
  · rintro ⟨m, n, p, q, hm, hn, hp, hq, hpq⟩
    obtain ⟨-, k, hk, ha⟩ := Port.canConnect_iff.mp hpq
    exact ⟨m, n, k, hm, hn, ⟨p, hp, hk⟩, ⟨q, hq, ha⟩⟩
  · rintro ⟨m, n, k, hm, hn, ⟨p, hp, hk⟩, ⟨q, hq, ha⟩⟩
    have hin := (hs n (mem_of_node? hn).1).inputs q (List.mem_of_getElem? hq)
    exact ⟨m, n, p, q, hm, hn, hp, hq, Port.canConnect_iff.mpr ⟨hin, k, hk, ha⟩⟩

/-- A new connection leaves those into other inputs, in their order. -/
theorem filter_placed (c : Connection) (cs : List Connection) :
    ((placed c cs).filter fun d => d.target ≠ c.target) =
      cs.filter fun d => d.target ≠ c.target := by
  have hmap : ((cs.map fun d => if d.target = c.target then c else d).filter
      fun d => d.target ≠ c.target) = cs.filter fun d => d.target ≠ c.target := by
    induction cs with
    | nil => rfl
    | cons d ds ih => by_cases hd : d.target = c.target <;> simpa [hd] using ih
  unfold placed
  split
  · exact hmap
  · simp

/-- What a connection that is made leaves of a graph. -/
theorem joined_of_connect {g h : Graph κ} (hw : g.WellFormed) {id : ConnectionId}
    {source : OutputPlace} {target : InputPlace} {c : Connection}
    (hc : g.connect id source target = .ok (c, h)) : g.Joined c h := by
  have hafter := hw.connect hc
  obtain ⟨rfl, rfl, -⟩ := connect_eq_ok hc
  constructor
  case same => rfl
  case made => exact (connectionTo?_eq_some_iff hafter).mpr ⟨mem_placed_iff.mpr (.inl rfl), rfl⟩
  case others =>
    intro t ht
    ext d
    rw [connectionTo?_eq_some_iff hafter, connectionTo?_eq_some_iff hw, mem_placed_iff]
    constructor
    · rintro ⟨rfl | ⟨hd, -⟩, rfl⟩
      · exact absurd rfl ht
      · exact ⟨hd, rfl⟩
    · rintro ⟨hd, rfl⟩
      exact ⟨.inr ⟨hd, ht⟩, rfl⟩
  case order => exact filter_placed _ _

/-! ## By positions among all ports -/

/-- The position at which the ports of a direction begin. -/
def offset (n : Node κ) : Direction → Nat
  | .input => 0
  | .output => n.inputs.length

/-- What a successful look at a port by its position among all ports has found. -/
theorem directed_eq_ok_iff {g : Graph κ} {place : PortPlace} {expected : Direction} {k : Nat} :
    g.directed place expected = .ok k ↔ ∃ n p, g.node? place.node = some n ∧
      n.ports[place.port]? = some p ∧ p.direction = expected ∧
      place.port - offset n expected = k := by
  unfold directed endpoint
  cases hn : g.node? place.node with
  | none => simp [bind, Except.bind]
  | some n =>
    cases hp : n.ports[place.port]? with
    | none => simp [hp, bind, Except.bind]
    | some p =>
      by_cases hd : p.direction = expected
      · cases expected <;> simp [hp, hd, offset, bind, Except.bind, pure, Except.pure]
      · simp [hp, hd, bind, Except.bind]

/-- Connecting by positions among all ports is connecting an output with an input by their positions
among the ports of their direction. -/
theorem connectPorts_eq_ok_iff {g h : Graph κ} {id : ConnectionId} {source target : PortPlace}
    {c : Connection} :
    g.connectPorts id source target = .ok (c, h) ↔ ∃ m n p q,
      g.node? source.node = some m ∧ g.node? target.node = some n ∧
      m.ports[source.port]? = some p ∧ n.ports[target.port]? = some q ∧
      p.direction = .output ∧ q.direction = .input ∧
      g.connect id ⟨source.node, source.port - m.inputs.length⟩ ⟨target.node, target.port⟩ =
        .ok (c, h) := by
  constructor
  · intro hc
    unfold connectPorts at hc
    cases hs : g.directed source .output with
    | error e => rw [hs] at hc; cases hc
    | ok o =>
      cases ht : g.directed target .input with
      | error e => rw [hs, ht] at hc; cases hc
      | ok i =>
        rw [hs, ht] at hc
        obtain ⟨m, p, hm, hp, hpd, rfl⟩ := directed_eq_ok_iff.mp hs
        obtain ⟨n, q, hn, hq, hqd, rfl⟩ := directed_eq_ok_iff.mp ht
        exact ⟨m, n, p, q, hm, hn, hp, hq, hpd, hqd, hc⟩
  · rintro ⟨m, n, p, q, hm, hn, hp, hq, hpd, hqd, hc⟩
    have hs := directed_eq_ok_iff.mpr ⟨m, p, hm, hp, hpd, rfl⟩
    have ht := directed_eq_ok_iff.mpr ⟨n, q, hn, hq, hqd, rfl⟩
    rw [connectPorts, hs, ht]
    exact hc

/-- Two ports by their positions among all ports may be connected exactly if they pass the check. -/
theorem connectPorts_isOk_iff {g : Graph κ} (hs : ∀ n ∈ g.nodes, n.Sided) (id : ConnectionId)
    {source target : PortPlace} :
    (∃ c h, g.connectPorts id source target = .ok (c, h)) ↔ ∃ m n p q,
      g.node? source.node = some m ∧ g.node? target.node = some n ∧
      m.ports[source.port]? = some p ∧ n.ports[target.port]? = some q ∧
      p.canConnect q = true := by
  constructor
  · rintro ⟨c, h, hc⟩
    obtain ⟨m, n, p, q, hm, hn, hp, hq, hpd, hqd, hc⟩ := connectPorts_eq_ok_iff.mp hc
    obtain ⟨m', n', p', q', hm', hn', hp', hq', hpq⟩ := (joinable_iff hs id).mpr ⟨c, h, hc⟩
    obtain rfl := Option.some.inj (hm.symm.trans hm')
    obtain rfl := Option.some.inj (hn.symm.trans hn')
    have hout := ((hs m (mem_of_node? hm).1).output hp hpd).2
    have hin := (hs n (mem_of_node? hn).1).input hq hqd
    obtain rfl := Option.some.inj (hout.symm.trans hp')
    obtain rfl := Option.some.inj (hin.symm.trans hq')
    exact ⟨m, n, p, q, hm, hn, hp, hq, hpq⟩
  · rintro ⟨m, n, p, q, hm, hn, hp, hq, hpq⟩
    obtain ⟨hqd, k, hk, ha⟩ := Port.canConnect_iff.mp hpq
    have hpd := Port.direction_of_emits? hk
    have hout := ((hs m (mem_of_node? hm).1).output hp hpd).2
    have hin := (hs n (mem_of_node? hn).1).input hq hqd
    have hjoinable : g.Joinable ⟨source.node, source.port - m.inputs.length⟩
        ⟨target.node, target.port⟩ := ⟨m, n, p, q, hm, hn, hout, hin, hpq⟩
    obtain ⟨c, h, hc⟩ := (joinable_iff hs id).mp hjoinable
    exact ⟨c, h, connectPorts_eq_ok_iff.mpr ⟨m, n, p, q, hm, hn, hp, hq, hpd, hqd, hc⟩⟩

end Graph

/-! ## In a session -/

namespace Session

variable [Kernel κ]

/-- The nodes of every session are sided. -/
theorem sided_run (name : String) (es : List (Edit κ)) {g : Graph κ}
    (hg : g ∈ ((start name).run es).graphs) {n : Node κ} (hn : n ∈ g.nodes) : n.Sided := by
  have hnumbered : Numbered (origins name es) ((start name).run es) :=
    (Numbered.start name).run (.start name) es
  have hmem : n ∈ ((start name).run es).nodes :=
    List.mem_append_left _ (List.mem_flatMap.mpr ⟨g, hg, hn⟩)
  obtain ⟨d, -, hf⟩ := hnumbered.origin n.frame (List.mem_map_of_mem hmem)
  exact (Node.MadeFrom.of_frame hf).sided

/-- The result of a connection is kept in the current graph, and an error leaves the whole session
as it was. -/
structure Settled (s : Session κ) (r : Except ConnectError (Connection × Graph κ))
    (x : Outcome × Session κ) : Prop where
  kept : ∀ c h, r = .ok (c, h) → x.1 = .connected c ∧ x.2.graphs = s.graphs.set s.current h
  refused : ∀ e, r = .error e → x = (.refused e, s)

omit [Kernel κ] in
theorem settled_settleConnect (s : Session κ) (r : Except ConnectError (Connection × Graph κ)) :
    s.Settled r (s.settleConnect r) := by
  constructor
  case kept =>
    rintro c h rfl
    exact ⟨rfl, rfl⟩
  case refused =>
    rintro e rfl
    rfl

/-- In every graph of every session an output may be connected with an input exactly if both exist
and pass the check on their ports. The connection then feeds the input, and all others are as they
were. By positions among all ports the same connection is made, exactly if the first port is an
output and the second one an input; an output never stands before the inputs of its node. What is
refused changes nothing in the session. -/
theorem connecting_run (name : String) (es : List (Edit κ)) :
    let s := (start name).run es
    (∀ g ∈ s.graphs,
      (∀ id source target,
        (g.Joinable source target ↔ ∃ c h, g.connect id source target = .ok (c, h)) ∧
        ∀ c h, g.connect id source target = .ok (c, h) →
          c = ⟨id, source, target⟩ ∧ g.Joined c h) ∧
      (∀ id source target c h, g.connectPorts id source target = .ok (c, h) ↔ ∃ m n p q,
        g.node? source.node = some m ∧ g.node? target.node = some n ∧
        m.ports[source.port]? = some p ∧ n.ports[target.port]? = some q ∧
        p.direction = .output ∧ q.direction = .input ∧
        g.connect id ⟨source.node, source.port - m.inputs.length⟩ ⟨target.node, target.port⟩ =
          .ok (c, h)) ∧
      (∀ id source target, (∃ c h, g.connectPorts id source target = .ok (c, h)) ↔ ∃ m n p q,
        g.node? source.node = some m ∧ g.node? target.node = some n ∧
        m.ports[source.port]? = some p ∧ n.ports[target.port]? = some q ∧
        p.canConnect q = true) ∧
      ∀ n ∈ g.nodes, ∀ k p, n.ports[k]? = some p → p.direction = .output →
        n.inputs.length ≤ k) ∧
    (∀ source target, s.Settled (s.graph.connect s.connected source target)
      (s.step (.connect source target))) ∧
    ∀ source target, s.Settled (s.graph.connectPorts s.connected source target)
      (s.step (.connectPorts source target)) := by
  intro s
  have hs : s.WellFormed := wellFormed_run (.start name) es
  refine ⟨fun g hg => ?_, fun _ _ => settled_settleConnect s _,
    fun _ _ => settled_settleConnect s _⟩
  have hsided : ∀ n ∈ g.nodes, n.Sided := fun n hn => sided_run name es hg hn
  refine ⟨fun id source target => ⟨Graph.joinable_iff hsided id, fun c h hc => ?_⟩,
    fun _ _ _ _ _ => Graph.connectPorts_eq_ok_iff,
    fun id _ _ => Graph.connectPorts_isOk_iff hsided id,
    fun n hn k p hp hd => ((hsided n hn).output hp hd).1⟩
  exact ⟨(Graph.connect_eq_ok hc).1, Graph.joined_of_connect (hs.graphs g hg) hc⟩

/-- The second of two sums is fed by the first one, and an output of images waits for one. -/
def joining : List (Edit Builtin) := [
  .add (.ofKernel (.math .add)), .add (.ofKernel (.math .add)), .add (.ofKernel .imageOutput),
  .connect ⟨2, 0⟩ ⟨4, 1⟩]

/-- The second sum may be connected with itself, which displaces the first one, and a sum may not be
connected with the output of images. -/
theorem connecting_run_joining : ∃ g ∈ ((start "joining").run joining).graphs,
    (∃ c h, g.connectPorts 1 ⟨4, 2⟩ ⟨4, 1⟩ = .ok (c, h) ∧ c = ⟨1, ⟨4, 0⟩, ⟨4, 1⟩⟩ ∧ g.Joined c h) ∧
    (g.connectionTo? ⟨4, 1⟩).map Connection.source = some ⟨2, 0⟩ ∧
    ¬ g.Joinable ⟨2, 0⟩ ⟨6, 0⟩ := by
  obtain ⟨hall, -⟩ := connecting_run "joining" joining
  have hg := (wellFormed_run (.start "joining") joining).graph_mem
  obtain ⟨hconnect, hports, -⟩ := hall _ hg
  refine ⟨_, hg, ?self, by decide +kernel, ?other⟩
  case self =>
    have hok : (((start "joining").run joining).graph.connectPorts 1 ⟨4, 2⟩
        ⟨4, 1⟩).isOk = true := by
      decide +kernel
    cases hc : ((start "joining").run joining).graph.connectPorts 1 ⟨4, 2⟩ ⟨4, 1⟩ with
    | error e => rw [hc] at hok; cases hok
    | ok ch =>
      obtain ⟨m, n, p, q, hm, -, -, -, -, -, hsame⟩ := (hports _ _ _ ch.1 ch.2).mp hc
      have hlength : (((start "joining").run joining).graph.node? 4).map
          (fun n => n.inputs.length) = some 2 := by
        decide +kernel
      rw [hm, Option.map_some, Option.some.injEq] at hlength
      rw [hlength] at hsame
      obtain ⟨hmade, hjoined⟩ := (hconnect 1 ⟨4, 0⟩ ⟨4, 1⟩).2 _ _ hsame
      exact ⟨ch.1, ch.2, rfl, hmade, hjoined⟩
  case other =>
    rw [(hconnect 1 ⟨2, 0⟩ ⟨6, 0⟩).1]
    rintro ⟨c, h, hc⟩
    have hno : (((start "joining").run joining).graph.connect 1 ⟨2, 0⟩ ⟨6, 0⟩).isOk = false := by
      decide +kernel
    rw [hc] at hno
    cases hno

end Session

end TextureFlow
