import Mathlib
import TextureFlow.Proofs.Dataflow
import TextureFlow.Proofs.Fate
import TextureFlow.Proofs.LeastOrder

/-!
# Which nodes compute again

A node that got through a pass is up to date: its inputs show what feeds them, and its memo lists
their generations. Edits elsewhere leave it so. In the next pass an output that feeds it is either
written anew, with a generation that no memo can list, or left alone, since outputs that hold
something are written by nothing but a computation. So the node keeps its outputs exactly if none of
the nodes that feed it computes.

* `Graph.Passed.upToDate`: a pass leaves the nodes up to date that do not fail;
* `Graph.Passed.reused_iff`: which of the nodes that are up to date are reused;
* `Session.reused_exactly`: the same from one pass of a session on one graph to the next.
-/

namespace TextureFlow

/-! ## Resolving twice -/

theorem Port.resolve_resolve (p : Port) (feed : Option Port) :
    (p.resolve feed).resolve feed = p.resolve feed := by
  cases feed <;> rfl

namespace Node

variable {κ : Type}

/-- Resolving leaves a node alone exactly if it leaves every input alone. -/
theorem resolve_eq_self_iff {n : Node κ} {feed : Nat → Option Port} :
    n.resolve feed = n ↔ ∀ i (p : Port), n.inputs[i]? = some p → p.resolve (feed i) = p := by
  have hinputs : n.resolve feed = n ↔
      (n.inputs.mapIdx fun index p => p.resolve (feed index)) = n.inputs :=
    ⟨congrArg Node.inputs, fun h => by rw [resolve, h]⟩
  rw [hinputs]
  constructor
  · intro h i p hp
    have hi := congrArg (·[i]?) h
    simp only [List.getElem?_mapIdx, hp, Option.map_some] at hi
    exact Option.some.inj hi
  · intro h
    refine List.ext_getElem? fun i => ?_
    rw [List.getElem?_mapIdx]
    cases hp : n.inputs[i]? with
    | none => rfl
    | some p => rw [Option.map_some, h i p hp]

variable [Kernel κ]

/-- A node that does not fail gathered its inputs, and its memo lists their generations. -/
theorem settled_conclude {n : Node κ} {memoization : Bool}
    (h : (n.judge memoization).error? = none) (zeroFill : Bool) (revision : Nat) (ran : Bool) :
    (∃ values, Port.gather 0 n.inputs = .ok values) ∧
      (n.conclude zeroFill revision ran (n.judge memoization)).memo = some n.inputGenerations := by
  cases hj : n.judge memoization with
  | computed outs =>
    have hres := result_of_computed hj
    unfold result at hres
    cases hg : Port.gather 0 n.inputs with
    | error e => rw [hg] at hres; cases hres
    | ok values => exact ⟨⟨values, rfl⟩, rfl⟩
  | reused => exact memo_of_reused hj
  | failed e =>
    rw [hj] at h
    cases h

theorem judge_eq_reused {n : Node κ} (hs : n.strategy = .memoized)
    (hm : n.memo = some n.inputGenerations) {values : List Value}
    (hg : Port.gather 0 n.inputs = .ok values) : n.judge true = .reused := by
  have hr : n.reusable true = true := by simp [reusable, hs, hm]
  simp only [judge, hg, hr, if_true]

end Node

/-! ## Nodes that are up to date -/

namespace Graph

variable {κ : Type}

/-- A node whose inputs show what feeds them and are accepted, and whose memo lists their
generations. -/
structure UpToDate (g : Graph κ) (n : Node κ) : Prop where
  fed : g.fed n = n
  ready : ∃ values, Port.gather 0 n.inputs = .ok values
  memo : n.memo = some n.inputGenerations

/-- What feeds an input is an output that exists. -/
theorem exists_feed? {g : Graph κ} (hw : g.WellFormed) {c : Connection} (hc : c ∈ g.connections) :
    ∃ m ∈ g.nodes, m.id = c.source.node ∧
      ∃ p, m.outputs[c.source.output]? = some p ∧ g.feed? c.target = some p := by
  obtain ⟨m, hm, -, -, p, -, -, hid, -, hp, -⟩ := hw.fits c hc
  have hnode : g.node? c.source.node = some m := hid ▸ node?_of_mem hw.nodup hm
  exact ⟨m, hm, hid, p, hp, (feed?_of_mem hw hc hnode).trans hp⟩

theorem feed?_of_not_connected {g : Graph κ} {target : InputPlace}
    (h : ∀ c ∈ g.connections, c.target ≠ target) : g.feed? target = none := by
  have hnone : g.connectionTo? target = none :=
    List.find?_eq_none.mpr fun c hc => by simpa using h c hc
  rw [feed?, hnone, Option.bind_none]

/-- An input that is up to date shows the output that feeds it, which holds a value. -/
theorem UpToDate.feed {g : Graph κ} {n : Node κ} (h : g.UpToDate n) {i : Nat} {p q : Port}
    (hq : n.inputs[i]? = some q) (hf : g.feed? ⟨n.id, i⟩ = some p) :
    p.value ≠ none ∧ q.generation = p.generation := by
  have hshow : q.resolve (some p) = q := hf ▸ Node.resolve_eq_self_iff.mp h.fed i q hq
  obtain ⟨values, hg⟩ := h.ready
  obtain ⟨v, hv, -⟩ := (Port.gather_eq_ok_iff.mp hg).1 q (List.mem_of_getElem? hq)
  have hpv : p.value = some v := (congrArg Port.value hshow).trans hv
  exact ⟨by simp [hpv], (congrArg Port.generation hshow).symm⟩

/-- A node stays up to date where the same outputs feed it. -/
theorem UpToDate.congr {g h : Graph κ} {n : Node κ} (hu : g.UpToDate n)
    (hf : ∀ i, h.feed? ⟨n.id, i⟩ = g.feed? ⟨n.id, i⟩) : h.UpToDate n where
  fed := by
    have hsame : (fun i => h.feed? ⟨n.id, i⟩) = fun i => g.feed? ⟨n.id, i⟩ := funext hf
    rw [Graph.fed, hsame]
    exact hu.fed
  ready := hu.ready
  memo := hu.memo

variable [Kernel κ]

namespace Passed

variable {settings : Settings} {g h : Graph κ} {r : Report} {verdict : NodeId → Verdict}
  {base top : NodeId → Nat} {n : Node κ}

/-- A pass leaves every node up to date that does not fail. -/
theorem upToDate (hp : Passed settings g h r verdict base top) (hn : n ∈ h.nodes)
    (hdone : n.id ∈ r.computed ∨ n.id ∈ r.reused) : h.UpToDate n := by
  obtain ⟨m, hm, hid, hturned⟩ := hp.exists_turned hn
  rw [hid] at hdone
  have hnone := (hp.done_iff hm).mp hdone
  rw [hp.verdict_eq hm] at hnone
  obtain ⟨hready, hmemo⟩ := Node.settled_conclude hnone settings.zeroFill (base m.id)
    ((h.fed m.restart).runs settings.memoization)
  have hinputs : n.inputs = (h.fed m.restart).inputs := by rw [hturned, inputs_turned]
  constructor
  case fed =>
    refine Node.resolve_eq_self_iff.mpr fun i q hq => ?_
    obtain ⟨p, rfl⟩ := hp.exists_resolve hn hq
    exact p.resolve_resolve _
  case ready => rwa [hinputs]
  case memo => rw [Node.inputGenerations, hinputs, hturned]; exact hmemo

/-- An output that feeds an input and holds a value stays as it is, unless its node computes. Then
it gets a generation that the graph had not given before. -/
theorem feed?_of_holds (hp : Passed settings g h r verdict base top) {c : Connection}
    (hc : c ∈ g.connections) {p : Port} (hf : g.feed? c.target = some p) (hv : p.value ≠ none) :
    (c.source.node ∉ r.computed ∧ h.feed? c.target = some p) ∨
      (c.source.node ∈ r.computed ∧
        ∃ q, h.feed? c.target = some q ∧ g.revision < q.generation) := by
  obtain ⟨m, hm, hid, p', hp', hf'⟩ := exists_feed? hp.before hc
  obtain rfl := Option.some.inj (hf.symm.trans hf')
  have hnode : h.node? c.source.node = some (h.turned settings (base m.id) m.restart) :=
    hid ▸ hp.node_eq hm
  rw [feed?_of_mem hp.after (hp.connections ▸ hc) hnode, ← hid]
  rcases (hp.written hm).getElem?_of_holds hp' hv with ⟨hnot, hkept⟩ | ⟨hwrites, q, hq, hlt⟩
  · exact .inl ⟨fun hcomputed => hnot (.inl hcomputed), hkept⟩
  · exact .inr ⟨hwrites.resolve_right hv, q, hq,
      (hp.ran.within _ (hp.mem_order hm)).1.trans_lt hlt⟩

/-- If no feeding node computes, a node that was up to date is fed what it shows already. -/
theorem fed_of_idle (hp : Passed settings g h r verdict base top) (hu : g.UpToDate n)
    (hidle : ∀ u ∈ h.feeders n.id, u ∉ r.computed) : h.fed n = n := by
  refine Node.resolve_eq_self_iff.mpr fun i q hq => ?_
  have hsame : h.feed? ⟨n.id, i⟩ = g.feed? ⟨n.id, i⟩ := by
    by_cases hconn : ∃ c ∈ g.connections, c.target = ⟨n.id, i⟩
    · obtain ⟨c, hc, htarget⟩ := hconn
      obtain ⟨-, -, -, p, -, hf⟩ := exists_feed? hp.before hc
      have hholds := (hu.feed hq (htarget ▸ hf)).1
      have hleads : h.Leads c.source.node n.id :=
        ⟨c, hp.connections ▸ hc, rfl, congrArg InputPlace.node htarget⟩
      rcases hp.feed?_of_holds hc hf hholds with ⟨-, hkept⟩ | ⟨hcomputed, -⟩
      · rw [← htarget, hkept, hf]
      · exact absurd hcomputed (hidle _ (mem_feeders.mpr hleads))
    · have hnone : ∀ c ∈ g.connections, c.target ≠ ⟨n.id, i⟩ := by simpa using hconn
      rw [feed?_of_not_connected hnone, feed?_of_not_connected (hp.connections ▸ hnone)]
  rw [hsame]
  exact Node.resolve_eq_self_iff.mp hu.fed i q hq

/-- If a feeding node computes, an input gets a generation that the memo of a node that was up to
date does not list. -/
theorem inputGenerations_fed_ne (hp : Passed settings g h r verdict base top) (hn : n ∈ g.nodes)
    (hu : g.UpToDate n)
    (hle : ∀ t p, g.feed? t = some p → p.value ≠ none → p.generation ≤ g.revision) {u : NodeId}
    (hl : u ∈ h.feeders n.id) (hcomputed : u ∈ r.computed) :
    (h.fed n).inputGenerations ≠ n.inputGenerations := by
  obtain ⟨c, hc, rfl, htarget⟩ := mem_feeders.mp hl
  rw [hp.connections] at hc
  have hplace : (⟨n.id, c.target.input⟩ : InputPlace) = c.target := by rw [← htarget]
  -- the input exists, for the connection fits
  obtain ⟨-, -, m, hm, -, q, -, -, hmi, -, hq, -⟩ := hp.before.fits c hc
  obtain rfl : m = n := List.inj_on_of_nodup_map hp.before.nodup hm hn (hmi.trans htarget)
  obtain ⟨-, -, -, p, -, hf⟩ := exists_feed? hp.before hc
  obtain ⟨hholds, hgen⟩ := hu.feed hq (hplace ▸ hf)
  obtain ⟨-, p', hf', hlt⟩ :=
    (hp.feed?_of_holds hc hf hholds).resolve_left fun hkept => hkept.1 hcomputed
  intro hsame
  have hi : (h.fed m).inputGenerations[c.target.input]? =
      m.inputGenerations[c.target.input]? := by rw [hsame]
  simp only [Node.inputGenerations, fed, Node.resolve, List.getElem?_map, List.getElem?_mapIdx, hq,
    hplace, hf', Option.map_some, Port.resolve, Option.some.injEq] at hi
  have hold := hle _ p hf hholds
  omega

/-- A node that was up to date is reused exactly if no node that feeds it computes. -/
theorem reused_iff (hp : Passed settings g h r verdict base top) (hn : n ∈ g.nodes)
    (hu : g.UpToDate n) (hs : n.strategy = .memoized) (hm : settings.memoization = true)
    (hle : ∀ t p, g.feed? t = some p → p.value ≠ none → p.generation ≤ g.revision) :
    n.id ∈ r.reused ↔ ∀ u ∈ h.feeders n.id, u ∉ r.computed := by
  have hverdict : verdict n.id = (h.fed n).judge true := by
    rw [hp.verdict_eq hn, hm]
    rfl
  rw [hp.mem_reused hn, hverdict, Verdict.isReused_iff]
  constructor
  · intro hj u hl hcomputed
    have hmemo : n.memo = some (h.fed n).inputGenerations := (Node.memo_of_reused hj).2
    have hsame := Option.some.inj (hmemo.symm.trans hu.memo)
    exact hp.inputGenerations_fed_ne hn hu hle hl hcomputed hsame
  · intro hidle
    obtain ⟨values, hg⟩ := hu.ready
    rw [hp.fed_of_idle hu hidle, Node.judge_eq_reused hs hu.memo hg]

end Passed

end Graph

/-! ## From one pass of a session to the next -/

namespace Session

variable {κ : Type} [Kernel κ]

/-- A history without a successful pass that leaves one node in its graph, does not edit it, and
leaves the connections to it as they are. -/
structure Spares (s : Session κ) (es : List (Edit κ)) (id : NodeId) : Prop where
  quiet : s.Quiet es
  present : .remove id ∉ es
  unedited : ∀ e, .node (.node id) e ∉ es
  incoming : ∀ c : Connection, c.target.node = id →
    (c ∈ (s.run es).graph.connections ↔ c ∈ s.graph.connections)

/-- A node that a history spares is fed by the same outputs after it. -/
theorem Spares.feed? {s : Session κ} {es : List (Edit κ)} {id : NodeId} (h : s.Spares es id)
    (hw : s.WellFormed) (hl : s.graphs.length = 1) (hone : ∀ e ∈ es, e.OnOneGraph) (i : Nat) :
    (s.run es).graph.feed? ⟨id, i⟩ = s.graph.feed? ⟨id, i⟩ := by
  have hw' := wellFormed_run hw es
  by_cases hconn : ∃ c ∈ s.graph.connections, c.target = ⟨id, i⟩
  · obtain ⟨c, hc, htarget⟩ := hconn
    have hc' := (h.incoming c (congrArg InputPlace.node htarget)).mpr hc
    have hsource := hw.issued _ hw.graph_mem _ (hw.graph.source_mem hc)
    obtain ⟨n, hn, hid, p, hp, hf⟩ := Graph.exists_feed? hw'.graph hc'
    -- the source was there before with the same outputs
    obtain ⟨m, hm, hout⟩ := exists_before_run hw hl hone h.quiet hsource
      (hid ▸ Graph.node?_of_mem hw'.graph.nodup hn)
    rw [← htarget, hf, Graph.feed?_of_mem hw.graph hc hm, hout, hp]
  · have hnone : ∀ c ∈ s.graph.connections, c.target ≠ ⟨id, i⟩ := by simpa using hconn
    rw [Graph.feed?_of_not_connected hnone, Graph.feed?_of_not_connected fun c hc htarget =>
      hnone c ((h.incoming c (congrArg InputPlace.node htarget)).mp hc) htarget]

/-- A node that a history spares stays up to date. -/
theorem Spares.upToDate {s : Session κ} {es : List (Edit κ)} {n : Node κ} (h : s.Spares es n.id)
    (hw : s.WellFormed) (hl : s.graphs.length = 1) (hone : ∀ e ∈ es, e.OnOneGraph)
    (hn : n ∈ s.graph.nodes) (hu : s.graph.UpToDate n) :
    n ∈ (s.run es).graph.nodes ∧ (s.run es).graph.UpToDate n := by
  have hissued := hw.issued _ hw.graph_mem _ (List.mem_map_of_mem hn)
  have hnode := node?_run hw hl hone h.quiet hissued h.present h.unedited
  rw [Graph.node?_of_mem hw.graph.nodup hn] at hnode
  exact ⟨(Graph.mem_of_node? hnode).1, hu.congr (h.feed? hw hl hone)⟩

/-- In a session on one graph no output that holds a value bears a generation beyond the clock. -/
theorem Kept.feed?_le {L : Nat → Stamps} {s : Session κ} (h : Kept L s) (hl : s.graphs.length = 1)
    (t : InputPlace) (p : Port) (hf : s.graph.feed? t = some p) (hv : p.value ≠ none) :
    p.generation ≤ s.graph.revision := by
  obtain ⟨v, hv⟩ := Option.ne_none_iff_exists'.mp hv
  have hs := Graph.stamped_feed? (fun n hn => (h.traced.graph n hn).outputs) hf
  exact h.anyOf_le hl (hs v hv).2

/-- Let a memoized node get through a pass of a session on one graph, and let nothing befall it and
the connections to it until the next pass, whatever befalls the rest. If that pass uses memos, it
reuses the node exactly if it computes none of the nodes that feed it. So feeding nodes that are
reused or fail, in whatever mix, do not make the node compute. -/
theorem reused_exactly {name : String} (before between : List (Edit κ))
    (hone : ∀ e ∈ before ++ between, e.OnOneGraph) (hblank : ∀ e ∈ before ++ between, e.Blank)
    {first second : Settings} {g h : Graph κ} {r r' : Report}
    (hfirst : ((start name).run before).graph.evaluate first = .ok (g, r))
    {n : Node κ} (hn : n ∈ g.nodes) (hs : n.strategy = .memoized)
    (hdone : n.id ∈ r.computed ∨ n.id ∈ r.reused)
    (hspares : ((start name).run (before ++ [.evaluate first])).Spares between n.id)
    (hsecond : ((start name).run (before ++ .evaluate first :: between)).graph.evaluate second =
      .ok (h, r'))
    (hm : second.memoization = true) :
    (n.id ∈ r'.reused ↔ ∀ u ∈ h.feeders n.id, u ∉ r'.computed) ∧
    ((∀ u ∈ h.feeders n.id, u ∈ r'.reused ∨ ∃ e, (u, e) ∈ r'.failures) → n.id ∈ r'.reused) := by
  obtain ⟨hone, honeb⟩ := List.forall_mem_append.mp hone
  obtain ⟨hblank, hblankb⟩ := List.forall_mem_append.mp hblank
  rw [run_evaluate hfirst] at hspares hsecond
  have hk := (Kept.start name).run hblank
  have hl := length_graphs_run (s := start name) rfl hone
  obtain ⟨verdict, base, top, hp⟩ := Graph.evaluate_spec hk.wellFormed.graph hfirst
  -- the session after the first pass
  have hk' := hk.evaluate hfirst
  have hl' : (((start name).run before).setGraph g).graphs.length = 1 :=
    (List.length_set ..).trans hl
  have hg : (((start name).run before).setGraph g).graph = g :=
    graph_setGraph hk.wellFormed.current g
  obtain ⟨hn', hu'⟩ := hspares.upToDate hk'.wellFormed hl' honeb (hg.symm ▸ hn)
    (hg.symm ▸ hp.upToDate hn hdone)
  -- the session before the second pass
  have hk'' := hk'.run hblankb
  have hl'' := length_graphs_run hl' honeb
  obtain ⟨verdict', base', top', hp'⟩ := Graph.evaluate_spec hk''.wellFormed.graph hsecond
  have hexact := hp'.reused_iff hn' hu' hs hm (hk''.feed?_le hl'')
  exact ⟨hexact, fun hidle => hexact.mpr fun u hl => hp'.not_mem_computed (hidle u hl)⟩

/-- A white source feeds an inversion. -/
def developing : List (Edit Builtin) := [
  .add (.ofKernel (.imageSource ⟨⟨1, 1⟩, [.white]⟩)), .add (.ofKernel .invert),
  .connect ⟨2, 0⟩ ⟨4, 0⟩]

/-- The source loses its pixels, and a pass is refused because of a node that feeds itself. -/
def spoiling : List (Edit Builtin) := [
  .node (.node 2) (.parameter "image" (.image ⟨⟨1, 1⟩, []⟩)), .add (.ofKernel .invert),
  .connect ⟨6, 0⟩ ⟨6, 0⟩, .evaluate .standard, .disconnect ⟨6, 0⟩]

theorem spares_spoiling :
    ((start "developing").run (developing ++ [.evaluate .standard])).Spares spoiling 4 := by
  constructor
  case quiet => decide +kernel
  case present => decide +kernel
  case unedited => simp [spoiling]
  case incoming =>
    have hsame : (((start "developing").run (developing ++ [.evaluate .standard])).run
        spoiling).graph.connections =
          ((start "developing").run (developing ++ [.evaluate .standard])).graph.connections := by
      decide +kernel
    exact fun c _ => by rw [hsame]

/-- The second pass fails at the source and keeps the inversion. -/
theorem reused_exactly_developing : ∃ h r,
    ((start "developing").run (developing ++ .evaluate .standard :: spoiling)).graph.evaluate
      .standard = .ok (h, r) ∧
    h.feeders 4 = [2] ∧ r.failures.map Prod.fst = [2, 6] ∧ r.computed = [] ∧ 4 ∈ r.reused := by
  have hread : (((start "developing").run developing).graph.evaluate .standard).toOption.map
      (fun gr => ((gr.1.node? 4).map fun n => (n.id, n.strategy), gr.2.computed)) =
        some (some (4, .memoized), [2, 4]) := by
    decide +kernel
  have hread' : (((start "developing").run
      (developing ++ .evaluate .standard :: spoiling)).graph.evaluate .standard).toOption.map
        (fun gr => (gr.1.feeders 4, gr.2.failures.map Prod.fst, gr.2.computed)) =
          some ([2], [2, 6], []) := by
    decide +kernel
  obtain ⟨g, r, hfirst, hr⟩ := Graph.exists_of_evaluate hread
  obtain ⟨h, r', hsecond, hr'⟩ := Graph.exists_of_evaluate hread'
  simp only [Prod.mk.injEq, Option.map_eq_some_iff] at hr hr'
  obtain ⟨⟨n, hn, hid, hs⟩, hcomputed⟩ := hr
  obtain ⟨hfeeders, hfailed, hidle⟩ := hr'
  have hexact := reused_exactly developing spoiling
    (by simp [developing, spoiling, Edit.OnOneGraph]) (fun e _ => Builtin.blank e) hfirst
    (Graph.mem_of_node? hn).1 hs (.inl (by simp [hid, hcomputed])) (hid ▸ spares_spoiling) hsecond
    rfl
  rw [hid] at hexact
  exact ⟨h, r', hsecond, hfeeders, hfailed, hidle, hexact.1.mpr (by simp [hidle])⟩

end Session

end TextureFlow
