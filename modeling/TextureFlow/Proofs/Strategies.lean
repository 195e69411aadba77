import Mathlib
import TextureFlow.Catalogue.Basic
import TextureFlow.Proofs.Ledger
import TextureFlow.Proofs.Plain

/-!
# Reuse changes nothing that is shown

An honest verdict leaves a node in the plain form that always recomputing would leave it in. So
after a pass with honest verdicts the plain form of every node is a function of the plain forms of
the nodes that feed it, and two passes over graphs of the same plain form go alike, node by node
along the order. In sessions on one graph all verdicts are honest, so two of them that differ in
strategies and memoization only show the same after every step.

* `Node.plain_conclude`: what an honest verdict shows;
* `Graph.Passed.recomputed`, `Graph.Recomputed.unique`: what a pass shows, and that it is determined
  by what the graph showed before;
* `Session.shown_trace`: two sessions, step by step.
-/

namespace TextureFlow

/-! ## Ports -/

namespace Port

theorem plain_resolve (p : Port) (feed : Option Port) :
    (p.resolve feed).plain = p.plain.resolve (feed.map plain) := by
  cases feed <;> rfl

theorem gather_plain (index : Nat) (ports : List Port) :
    gather index (ports.map plain) = gather index ports := by
  induction ports generalizing index with
  | nil => rfl
  | cons p ports ih =>
    have ha : ∀ k, p.plain.accepts k = p.accepts k := fun _ => rfl
    have hn : p.plain.name = p.name := rfl
    have hk : p.plain.accepted = p.accepted := rfl
    simp only [List.map_cons, gather, value_plain, ih, ha, hn, hk]

/-- The outputs that always recomputing would show. -/
def showAll (ports : List Port) (values : List Value) : List Port :=
  List.zipWith (fun p v => p.write v 1) ports values

theorem showAll_plain (ports : List Port) (values : List Value) :
    showAll (ports.map plain) values = showAll ports values := by
  rw [showAll, showAll, List.zipWith_map_left]
  rfl

/-- Values that were just written show. -/
theorem map_plain_writeAll (revision : Nat) {ports : List Port} {values : List Value}
    (hl : values.length = ports.length) :
    (writeAll revision ports values).map plain = showAll ports values := by
  induction ports generalizing revision values with
  | nil =>
    obtain rfl := List.length_eq_zero_iff.mp hl
    rfl
  | cons p ports ih =>
    cases values with
    | nil => cases hl
    | cons v values =>
      have hp : (p.write v (revision + 1)).plain = p.write v 1 := by
        simp [plain, write]
      rw [writeAll, List.map_cons, hp, ih (revision + 1) (Nat.succ.inj hl)]
      rfl

/-- Values that were stamped before show as if they were just written. -/
theorem map_plain_of_stamped {T : Stamps} {ports : List Port} {values : List Value}
    (hs : ∀ p ∈ ports, p.Stamped T) (hv : ports.map value = values.map some) :
    ports.map plain = showAll ports values := by
  induction ports generalizing values with
  | nil =>
    obtain rfl := List.map_eq_nil_iff.mp hv.symm
    rfl
  | cons p ports ih =>
    cases values with
    | nil => cases hv
    | cons v values =>
      obtain ⟨hpv, hrest⟩ := List.cons.inj hv
      have hne := (hs p List.mem_cons_self v hpv).1
      have hp : p.plain = p.write v 1 := by
        have hmin : min p.generation 1 = 1 := by omega
        simp only [plain, write, hmin, ← hpv]
      rw [List.map_cons, hp, ih (fun q hq => hs q (List.mem_cons_of_mem _ hq)) hrest]
      rfl

/-- Filling with zeros shows the same from whatever revision. -/
theorem map_plain_fillZeros (revision : Nat) (ports : List Port) :
    (fillZeros revision ports).map plain = (fillZeros 0 (ports.map plain)).map plain := by
  have hgen : ∀ ρ σ (ps : List Port),
      (fillZeros ρ ps).map plain = (fillZeros σ (ps.map plain)).map plain := by
    intro ρ σ ps
    induction ps generalizing ρ σ with
    | nil => rfl
    | cons p ps ih =>
      have he : p.plain.emits? = p.emits? := rfl
      cases hv : p.value with
      | some v =>
        simp only [fillZeros, List.map_cons, hv, value_plain, plain_plain]
        rw [ih ρ σ]
      | none =>
        cases hk : p.emits? with
        | none =>
          simp only [fillZeros, List.map_cons, hv, value_plain, he, hk, plain_plain]
          rw [ih (ρ + 1) (σ + 1)]
        | some k =>
          have hw : (p.write k.zero (ρ + 1)).plain = (p.plain.write k.zero (σ + 1)).plain := by
            simp [plain, write]
          simp only [fillZeros, List.map_cons, hv, value_plain, he, hk, hw]
          rw [ih (ρ + 1) (σ + 1)]
  exact hgen revision 0 ports

end Port

/-! ## Nodes -/

namespace Node

variable {κ : Type}

theorem plain_restart (n : Node κ) : n.restart.plain = n.plain.restart := rfl

theorem plain_resolve (n : Node κ) (feed : Nat → Option Port) :
    (n.resolve feed).plain = n.plain.resolve fun index => (feed index).map Port.plain := by
  have hi : (n.inputs.mapIdx fun index p => p.resolve (feed index)).map Port.plain =
      (n.inputs.map Port.plain).mapIdx fun index p =>
        p.resolve ((feed index).map Port.plain) := by
    refine List.ext_getElem (by simp) fun i hi hi' => ?_
    simp [Port.plain_resolve]
  simp only [resolve, plain, hi]

variable [Kernel κ] {n m : Node κ}

theorem result_plain (n : Node κ) : n.plain.result = n.result := by
  have hk : n.plain.kernel = n.kernel := rfl
  have ho : n.plain.outputs.map Port.face = n.outputs.map Port.face := by
    simp [plain, Function.comp_def]
  have hg : Port.gather 0 n.plain.inputs = Port.gather 0 n.inputs := Port.gather_plain ..
  rw [result, result, hg]
  congr 1
  funext values
  exact outcome_congr hk ho values

/-- What a turn shows if the node computes. -/
def recomputed (zeroFill : Bool) (n : Node κ) : Node κ :=
  match n.result with
  | .ok outs =>
    { n with outputs := Port.showAll n.outputs outs, state := .computed }
  | .error e =>
    { n with
      outputs := if zeroFill then (Port.fillZeros 0 n.outputs).map Port.plain else n.outputs
      state := .failed
      error := some e }

/-- What a turn shows after an honest verdict is what it shows if the node computes. -/
theorem plain_conclude {T : Stamps} {v : Verdict} (hh : n.Honest v)
    (hs : ∀ p ∈ n.outputs, p.Stamped T) (zeroFill : Bool) (revision : Nat) (ran : Bool) :
    (n.conclude zeroFill revision ran v).plain = n.plain.recomputed zeroFill := by
  rw [recomputed, result_plain]
  cases v with
  | computed outs =>
    rw [show n.result = .ok outs from hh]
    have ho := Port.map_plain_writeAll revision (length_of_result hh)
    simp only [conclude, plain, ho, Port.showAll_plain, NodeState.plain]
  | reused =>
    obtain ⟨outs, hr, hv⟩ := hh
    have ho := Port.map_plain_of_stamped hs hv
    rw [hr]
    simp only [conclude, plain, NodeState.plain, Port.showAll_plain, ← ho]
  | failed e =>
    rw [show n.result = .error e from hh]
    cases zeroFill with
    | false => simp [conclude, plain, NodeState.plain]
    | true =>
      have ho := Port.map_plain_fillZeros revision n.outputs
      simp only [conclude, plain, NodeState.plain, if_true, ho]

end Node

/-! ## Passes -/

namespace Graph

variable {κ : Type}

theorem feed?_plain (g : Graph κ) (target : InputPlace) :
    g.plain.feed? target = (g.feed? target).map Port.plain := by
  have ht : g.plain.connectionTo? target = g.connectionTo? target := rfl
  rw [feed?, feed?, ht]
  cases g.connectionTo? target with
  | none => rfl
  | some c =>
    rw [Option.bind_some, Option.bind_some, node?_plain]
    cases g.node? c.source.node with
    | none => rfl
    | some n =>
      simp only [Option.map_some, Option.bind_some]
      exact List.getElem?_map ..

theorem fed_plain (g : Graph κ) (n : Node κ) : (g.fed n).plain = g.plain.fed n.plain := by
  rw [fed, fed, Node.plain_resolve]
  congr 1
  funext index
  exact (feed?_plain ..).symm

theorem findCycle?_plain (g : Graph κ) : g.plain.findCycle? = g.findCycle? := by
  have hb : g.plain.searchBound = g.searchBound := by simp [searchBound, plain]
  have hs : g.plain.search = g.search := by rw [search, search, ids_plain]
  have hn : g.plain.successors = g.successors := rfl
  rw [findCycle?, findCycle?, searched, searched, hb, hs, hn]

theorem topologicalOrder?_plain (g : Graph κ) :
    g.plain.topologicalOrder? = g.topologicalOrder? :=
  topologicalOrder?_congr (ids_plain g) rfl

theorem frames_plain (g : Graph κ) : g.plain.frames = g.frames := by
  simp [frames, plain, Node.frame, Node.plain, Function.comp_def]

theorem WellFormed.plain {g : Graph κ} (hw : g.WellFormed) : g.plain.WellFormed :=
  hw.of_frames (frames_plain g) rfl

variable [Kernel κ]

/-- A pass in which every node computes, described by its end: a node is what it makes of what feeds
it after the pass, and the report is read off the errors. -/
structure Recomputed (zeroFill : Bool) (g h : Graph κ) (r : Report) : Prop where
  name : h.name = g.name
  revision : h.revision = g.revision
  ids : h.ids = g.ids
  connections : h.connections = g.connections
  ordered : g.topologicalOrder? = some r.order
  node_eq : ∀ n ∈ g.nodes, h.node? n.id = some ((h.fed n.restart).recomputed zeroFill)
  computed : r.computed = r.order.filter fun id => ((h.node? id).bind Node.error).isNone
  reused : r.reused = []
  failures : r.failures = r.order.filterMap fun id =>
    ((h.node? id).bind Node.error).map fun e => (id, e)

namespace Recomputed

variable {zeroFill : Bool} {g h h' : Graph κ} {r r' : Report}

/-- There is one way to recompute a graph: nodes agree along the order. -/
theorem node?_eq (hw : g.WellFormed) (hr : Recomputed zeroFill g h r)
    (hr' : Recomputed zeroFill g h' r') {id : NodeId} (hid : id ∈ g.ids) :
    h.node? id = h'.node? id := by
  obtain ⟨hp, hperm⟩ := placed_of_topologicalOrder? hw hr.ordered
  refine hp.induction (P := fun id => h.node? id = h'.node? id) (fun v hv hfeeds => ?_) id
    (hperm.mem_iff.mpr hid)
  obtain ⟨n, hn⟩ := node?_isSome_iff.mpr (hp.known v hv)
  obtain ⟨hm, rfl⟩ := mem_of_node? hn
  -- what feeds the node stands earlier in the order, where the graphs agree already
  have hfed : h.fed n.restart = h'.fed n.restart := by
    refine fed_congr (hr.connections.trans hr'.connections.symm) fun u hu => hfeeds u ?_
    obtain ⟨c, hc, hends⟩ := hu
    exact ⟨c, hr'.connections ▸ hc, hends⟩
  rw [hr.node_eq n hm, hr'.node_eq n hm, hfed]

/-- There is one way to recompute a graph. -/
theorem unique (hw : g.WellFormed) (hr : Recomputed zeroFill g h r)
    (hr' : Recomputed zeroFill g h' r') : h = h' ∧ r = r' := by
  have hnode : ∀ id ∈ g.ids, h.node? id = h'.node? id := fun id => node?_eq hw hr hr'
  -- nodes with the same numbers, in the same places
  have hnodes : h.nodes = h'.nodes := by
    refine List.map_injective_iff.mpr (Option.some_injective _) ?_
    rw [← map_node?_ids (hr.ids ▸ hw.nodup), ← map_node?_ids (hr'.ids ▸ hw.nodup), hr.ids, hr'.ids]
    exact List.map_congr_left hnode
  have hh : h = h' := by
    have hname := hr.name.trans hr'.name.symm
    have hrev := hr.revision.trans hr'.revision.symm
    have hc := hr.connections.trans hr'.connections.symm
    obtain ⟨name, nodes, connections, revision⟩ := h
    obtain ⟨name', nodes', connections', revision'⟩ := h'
    simp only at hname hnodes hc hrev
    rw [hname, hnodes, hc, hrev]
  refine ⟨hh, ?_⟩
  have ho : r.order = r'.order := Option.some.inj (hr.ordered.symm.trans hr'.ordered)
  have hcomp := hr.computed
  have hfail := hr.failures
  rw [hh, ho, ← hr'.computed] at hcomp
  rw [hh, ho, ← hr'.failures] at hfail
  obtain ⟨order, computed, reused, failures⟩ := r
  obtain ⟨order', computed', reused', failures'⟩ := r'
  simp only at ho hcomp hfail
  rw [ho, hcomp, hfail, show reused = reused' from hr.reused.trans hr'.reused.symm]

end Recomputed

/-- Whether a pass is refused, and for which cycle, depends on what the graph shows. -/
theorem evaluate_alike {g g' : Graph κ} (hg : g.plain = g'.plain) (settings settings' : Settings) :
    (∃ e, g.evaluate settings = .error e ∧ g'.evaluate settings' = .error e) ∨
      ∃ h r h' r', g.evaluate settings = .ok (h, r) ∧ g'.evaluate settings' = .ok (h', r') := by
  have hcycle : g'.findCycle? = g.findCycle? := by
    rw [← findCycle?_plain, ← hg, findCycle?_plain]
  have horder : g'.topologicalOrder? = g.topologicalOrder? := by
    rw [← topologicalOrder?_plain, ← hg, topologicalOrder?_plain]
  unfold evaluate
  rw [hcycle, horder]
  cases g.findCycle? with
  | some nodes => exact .inl ⟨_, rfl, rfl⟩
  | none =>
    cases g.topologicalOrder? with
    | none => exact .inl ⟨_, rfl, rfl⟩
    | some order => exact .inr ⟨_, _, _, _, rfl, rfl⟩

/-- What a pass with honest verdicts shows is what recomputing shows. -/
theorem Passed.recomputed {settings : Settings} {g h : Graph κ} {r : Report}
    {verdict : NodeId → Verdict} {base top : NodeId → Nat} {T : Stamps}
    (hp : Passed settings g h r verdict base top) (hname : h.name = g.name)
    (hv : ∀ n ∈ g.nodes, (h.fed n.restart).Honest (verdict n.id))
    (ht : ∀ n ∈ g.nodes, n.Traced T) :
    Recomputed settings.zeroFill g.plain h.plain r.plain := by
  -- the report may be read off the errors that the nodes bear
  have herror : ∀ id ∈ r.order, (h.plain.node? id).bind Node.error = (verdict id).error? := by
    intro id hid
    obtain ⟨n, hn⟩ := node?_isSome_iff.mpr (hp.perm.mem_iff.mp hid)
    obtain ⟨hm, rfl⟩ := mem_of_node? hn
    rw [node?_plain, hp.node_eq hm, Option.map_some, Option.bind_some, turned, hp.verdict_eq hm]
    cases (h.fed n.restart).judge settings.memoization <;> rfl
  constructor
  case name => exact hname
  case revision => rfl
  case ids => rw [ids_plain, ids_plain, hp.ids]
  case connections => exact hp.connections
  case ordered =>
    rw [topologicalOrder?_plain]
    exact hp.ordered
  case node_eq =>
    intro m hm
    obtain ⟨n, hn, rfl⟩ := List.mem_map.mp hm
    have hturned := Node.plain_conclude (hv n hn) (ht n hn).outputs settings.zeroFill (base n.id)
      ((h.fed n.restart).runs settings.memoization)
    rw [Node.id_plain, node?_plain, hp.node_eq hn, Option.map_some, turned, ← hp.verdict_eq hn,
      hturned, fed_plain, Node.plain_restart]
  case computed =>
    refine List.filter_congr fun id hid => ?_
    rw [herror id hid, hp.computed_eq, hp.reused_eq]
    cases hj : verdict id <;>
      simp [hid, hj, Verdict.isComputed, Verdict.isReused, Verdict.error?]
  case reused => rfl
  case failures =>
    refine hp.failures_eq.trans (List.filterMap_congr fun id hid => ?_)
    rw [herror id hid]

end Graph

/-! ## Sessions -/

namespace Session

variable {κ : Type}

/-- What comes of every edit of a history, with the session after it. -/
def trace [Kernel κ] : Session κ → List (Edit κ) → List (Outcome × Session κ)
  | _, [] => []
  | s, e :: es => s.step e :: trace (s.step e).2 es

theorem onOneGraph_plain (e : Edit κ) : e.plain.OnOneGraph ↔ e.OnOneGraph := by
  cases e <;> rfl

theorem isPass_plain (e : Edit κ) : e.plain.IsPass ↔ e.IsPass := by
  cases e <;> simp [Edit.IsPass, Edit.plain]

variable [Kernel κ]

theorem blank_plain (e : Edit κ) : e.plain.Blank ↔ e.Blank := by
  cases e <;> simp [Edit.Blank, Edit.draft?, Edit.plain, Draft.Blank, Draft.plain]

variable {L M : Nat → Stamps} {s t : Session κ}

/-- Passes of sessions on one graph that show the same show the same afterwards. -/
theorem shown_evaluate (hs : Kept L s) (ht : Kept M t) (hls : s.graphs.length = 1)
    (hlt : t.graphs.length = 1) (hst : s.plain = t.plain) {settings settings' : Settings}
    (hset : settings.plain = settings'.plain) :
    shown (s.evaluate settings) = shown (t.evaluate settings') := by
  have hg : s.graph.plain = t.graph.plain := by rw [← graph_plain, hst, graph_plain]
  have hfill : settings.plain.zeroFill = settings'.plain.zeroFill := by rw [hset]
  rcases Graph.evaluate_alike hg settings settings' with ⟨e, he, he'⟩ | ⟨g, r, g', r', he, he'⟩
  · -- a refused pass leaves both sessions as they are
    simp only [evaluate, he, he', shown, hst]
  · obtain ⟨verdict, base, top, hp⟩ := Graph.evaluate_spec hs.wellFormed.graph he
    obtain ⟨verdict', base', top', hp'⟩ := Graph.evaluate_spec ht.wellFormed.graph he'
    have hr := hp.recomputed (Graph.name_evaluate he) (fun n hn => hs.honest hls hp hn)
      hs.traced.graph
    have hr' := hp'.recomputed (Graph.name_evaluate he') (fun n hn => ht.honest hlt hp' hn)
      ht.traced.graph
    -- both passes recompute the same plain graph, and there is one way to do so
    rw [← hg, show settings'.zeroFill = settings.zeroFill from hfill.symm] at hr'
    obtain ⟨hgg, hrr⟩ := hr.unique hs.wellFormed.graph.plain hr'
    simp only [evaluate, he, he', shown, Outcome.plain, setGraph_plain, hgg, hrr, hst]

/-- Edits of sessions on one graph that show the same show the same afterwards. -/
theorem shown_step_eq (hs : Kept L s) (ht : Kept M t) (hls : s.graphs.length = 1)
    (hlt : t.graphs.length = 1) (hst : s.plain = t.plain) {e e' : Edit κ}
    (he : e.plain = e'.plain) : shown (s.step e) = shown (t.step e') := by
  by_cases hpass : e.IsPass
  · have hpass' : e'.IsPass := by rwa [← isPass_plain, ← he, isPass_plain]
    obtain ⟨settings, rfl⟩ := hpass
    obtain ⟨settings', rfl⟩ := hpass'
    exact shown_evaluate hs ht hls hlt hst (Edit.evaluate.inj he)
  · have hpass' : ¬ e'.IsPass := by rwa [← isPass_plain, ← he, isPass_plain]
    rw [shown_step s hpass, shown_step t hpass', hst, he]

/-- Two histories that differ in strategies and memoization only show the same after every step,
from sessions on one graph that show the same. -/
theorem shown_trace (hs : Kept L s) (ht : Kept M t) (hls : s.graphs.length = 1)
    (hlt : t.graphs.length = 1) (hst : s.plain = t.plain) {es es' : List (Edit κ)}
    (hone : ∀ e ∈ es, e.OnOneGraph) (hblank : ∀ e ∈ es, e.Blank)
    (he : es.map Edit.plain = es'.map Edit.plain) :
    (s.trace es).map shown = (t.trace es').map shown := by
  induction es generalizing L M s t es' with
  | nil =>
    obtain rfl := List.map_eq_nil_iff.mp he.symm
    rfl
  | cons e es ih =>
    obtain ⟨e', es', rfl, he', hes⟩ := List.map_eq_cons_iff.mp he.symm
    obtain ⟨hone, hones⟩ := List.forall_mem_cons.mp hone
    obtain ⟨hblank, hblanks⟩ := List.forall_mem_cons.mp hblank
    have hone' : e'.OnOneGraph := by rwa [← onOneGraph_plain, he', onOneGraph_plain]
    have hblank' : e'.Blank := by rwa [← blank_plain, he', blank_plain]
    have hstep := shown_step_eq hs ht hls hlt hst he'.symm
    rw [trace, trace, List.map_cons, List.map_cons, hstep,
      ih (hs.step hblank) (ht.step hblank') (length_graphs_step hls hone)
        (length_graphs_step hlt hone') (congrArg Prod.snd hstep) hones hblanks hes.symm]

/-- Memoization and strategies never change what a session on one graph shows, after whatever step:
outcomes, orders, failures, values, errors, and which nodes hold what computing gives. -/
theorem shown_trace_start (name : String) {es es' : List (Edit κ)}
    (hone : ∀ e ∈ es, e.OnOneGraph) (hblank : ∀ e ∈ es, e.Blank)
    (he : es.map Edit.plain = es'.map Edit.plain) :
    ((start name).trace es).map shown = ((start name).trace es').map shown :=
  shown_trace (Kept.start name) (Kept.start name) rfl rfl rfl hone hblank he

/-- A colour feeds an image. After a pass the colour is changed and a second pass is run. -/
def recolouring (strategy : Strategy) (memoization : Bool) : List (Edit Builtin) := [
  .add ⟨.colorConstant .white, none, some strategy⟩,
  .add ⟨.solidColorOf 1 1, none, some strategy⟩,
  .connect ⟨2, 0⟩ ⟨4, 0⟩,
  .evaluate { Settings.standard with memoization },
  .node (.node 2) (.parameter "color" (.color .black)),
  .evaluate { Settings.standard with memoization }]

/-- Eager nodes without memoization show what memoized nodes show. -/
theorem shown_trace_recolouring :
    (recolouring .memoized true).map Edit.plain = (recolouring .eager false).map Edit.plain ∧
    ((start "recolouring").trace (recolouring .memoized true)).map shown =
      ((start "recolouring").trace (recolouring .eager false)).map shown :=
  ⟨rfl, shown_trace_start "recolouring" (by simp [recolouring, Edit.OnOneGraph])
    (fun e _ => Builtin.blank e) rfl⟩

end Session

end TextureFlow
