import Mathlib
import TextureFlow.Proofs.Filling
import TextureFlow.Proofs.Strategies

/-!
# A second pass changes nothing

A turn changes neither what a node is fed nor what its kernel makes of it, so a node that has its
turn again ends up as it is: new values are written over the same values, and where a pass has
filled, there is nothing left to fill. So what a pass shows is a fixed point of recomputing, and a
second pass, which shows what recomputing shows, shows nothing else, whether its nodes compute or
keep their outputs. With memos nothing is stamped again either, as far as only memoized nodes lead
to a node.

* `Graph.Recomputed.again`: what recomputing shows is a fixed point;
* `Graph.Passed.idle`: which nodes do not compute in a second pass;
* `Session.evaluate_again`: two passes of a session on one graph without an edit in between.
-/

namespace TextureFlow

/-! ## Ports -/

namespace Port

theorem showAll_showAll (ports : List Port) (values : List Value) :
    showAll (showAll ports values) values = showAll ports values := by
  induction ports generalizing values with
  | nil => rfl
  | cons p ports ih =>
    cases values with
    | nil => rfl
    | cons v values => exact congrArg (p.write v 1 :: ·) (ih values)

/-- There is nothing to fill where only those ports are empty that declare no single kind. -/
theorem fillZeros_of_settled (revision : Nat) {ports : List Port}
    (h : ∀ p ∈ ports, p.value = none → p.emits? = none) : fillZeros revision ports = ports := by
  induction ports generalizing revision with
  | nil => rfl
  | cons p ports ih =>
    obtain ⟨hp, hps⟩ := List.forall_mem_cons.mp h
    cases hv : p.value with
    | some v => simp only [fillZeros, hv, ih revision hps]
    | none => simp only [fillZeros, hv, hp hv, ih (revision + 1) hps]

/-- What was filled stays as it is shown. -/
theorem showZeros_showZeros (ports : List Port) :
    (fillZeros 0 ((fillZeros 0 ports).map plain)).map plain = (fillZeros 0 ports).map plain := by
  rw [← map_plain_fillZeros 0, fillZeros_of_settled 0 (emits?_of_mem_fillZeros 0)]

end Port

/-! ## Nodes -/

namespace Node

variable {κ : Type}

/-- What the ports of a node hold. -/
def values (n : Node κ) : NodeId × List (Option Value) × List (Option Value) :=
  (n.id, n.inputs.map Port.value, n.outputs.map Port.value)

theorem values_plain (n : Node κ) : n.plain.values = n.values := by
  simp [values, plain, Function.comp_def]

theorem resolve_resolve (n : Node κ) (feed : Nat → Option Port) :
    (n.resolve feed).resolve feed = n.resolve feed := by
  refine resolve_eq_self_iff.mpr fun i q hq => ?_
  rw [resolve, List.getElem?_mapIdx] at hq
  obtain ⟨p, -, rfl⟩ := Option.map_eq_some_iff.mp hq
  exact p.resolve_resolve _

variable [Kernel κ] {n : Node κ}

theorem map_face_showAll {outs : List Value} (h : n.result = .ok outs) :
    (Port.showAll n.outputs outs).map Port.face = n.outputs.map Port.face := by
  rw [← Port.map_plain_writeAll 0 (length_of_result h), List.map_map]
  exact Port.map_face_writeAll 0 n.outputs outs

theorem map_face_showZeros (ports : List Port) :
    ((Port.fillZeros 0 ports).map Port.plain).map Port.face = ports.map Port.face := by
  rw [List.map_map]
  exact Port.map_face_fillZeros 0 ports

theorem inputs_recomputed (zeroFill : Bool) (n : Node κ) :
    (n.recomputed zeroFill).inputs = n.inputs := by
  unfold recomputed
  cases n.result <;> rfl

theorem id_recomputed (zeroFill : Bool) (n : Node κ) : (n.recomputed zeroFill).id = n.id := by
  unfold recomputed
  cases n.result <;> rfl

/-- What a turn shows, a second turn shows again. -/
theorem recomputed_restart (zeroFill : Bool) (he : n.error = none) :
    (n.recomputed zeroFill).restart.recomputed zeroFill = n.recomputed zeroFill := by
  cases hr : n.result with
  | ok outs =>
    have hfirst : n.recomputed zeroFill =
        { n with outputs := Port.showAll n.outputs outs, state := .computed } := by
      rw [recomputed, hr]
    have hagain : (n.recomputed zeroFill).restart.result = .ok outs := by
      rw [hfirst, ← hr]
      exact result_of_inputs rfl rfl (map_face_showAll hr)
    rw [recomputed, hagain, hfirst]
    simp only [restart, Port.showAll_showAll, he]
  | error e =>
    have hfirst : n.recomputed zeroFill =
        { n with
          outputs := if zeroFill then (Port.fillZeros 0 n.outputs).map Port.plain else n.outputs
          state := .failed
          error := some e } := by
      rw [recomputed, hr]
    have hagain : (n.recomputed zeroFill).restart.result = .error e := by
      rw [hfirst, ← hr]
      refine result_of_inputs rfl rfl ?_
      cases zeroFill with
      | false => rfl
      | true => exact map_face_showZeros n.outputs
    rw [recomputed, hagain, hfirst]
    cases zeroFill with
    | false => rfl
    | true => simp only [restart, if_true, Port.showZeros_showZeros]

end Node

/-! ## Passes -/

namespace Graph

variable {κ : Type}

/-- A node that is memoized like all nodes that lead to it. -/
def MemoizedUpTo (g : Graph κ) (id : NodeId) : Prop :=
  ∀ n ∈ g.nodes, Relation.ReflTransGen g.Leads n.id id → n.strategy = .memoized

/-- What a second pass over `g` leaves, which ends in `h`, where the first one reported `r`. -/
structure Repeated (settings : Settings) (g h : Graph κ) (r r' : Report) : Prop where
  order : r'.order = r.order
  failures : r'.failures = r.failures
  values : h.nodes.map Node.values = g.nodes.map Node.values
  /-- With memos no node computes that is memoized like all nodes that lead to it. -/
  idle : settings.memoization = true → ∀ n ∈ g.nodes, g.MemoizedUpTo n.id →
    n.id ∉ r'.computed ∧
    (n.id ∈ r'.reused ∨ ∃ e, (n.id, e) ∈ r.failures ∧ (n.id, e) ∈ r'.failures) ∧
    ∃ m, h.node? n.id = some m ∧ m.outputs = n.outputs

theorem fed_fed (g : Graph κ) (n : Node κ) : g.fed (g.fed n) = g.fed n :=
  n.resolve_resolve _

variable [Kernel κ]

/-- A node that was recomputed is fed what it shows already. -/
theorem fed_recomputed (g : Graph κ) (zeroFill : Bool) (n : Node κ) :
    g.fed ((g.fed n).recomputed zeroFill).restart = ((g.fed n).recomputed zeroFill).restart := by
  have hinputs : ((g.fed n).recomputed zeroFill).restart.inputs = (g.fed n).inputs :=
    Node.inputs_recomputed ..
  have hid : ((g.fed n).recomputed zeroFill).restart.id = (g.fed n).id := Node.id_recomputed ..
  refine Node.resolve_eq_self_iff.mpr fun i q hq => ?_
  rw [hinputs] at hq
  rw [hid]
  exact Node.resolve_eq_self_iff.mp (g.fed_fed n) i q hq

/-- What recomputing a graph shows is a fixed point of recomputing. -/
theorem Recomputed.again {zeroFill : Bool} {g h : Graph κ} {r : Report} (hw : g.WellFormed)
    (hr : Recomputed zeroFill g h r) : Recomputed zeroFill h h r where
  name := rfl
  revision := rfl
  ids := rfl
  connections := rfl
  ordered := (topologicalOrder?_congr hr.ids hr.connections).trans hr.ordered
  node_eq n hn := by
    have hid : n.id ∈ g.ids := hr.ids ▸ List.mem_map_of_mem hn
    obtain ⟨m, hm, hmn⟩ := List.mem_map.mp hid
    have hself := node?_of_mem (hr.ids ▸ hw.nodup) hn
    have hnode := hr.node_eq m hm
    rw [hmn, hself] at hnode
    obtain rfl := Option.some.inj hnode
    rw [hself, fed_recomputed, Node.recomputed_restart zeroFill rfl]
  computed := hr.computed
  reused := hr.reused
  failures := hr.failures

namespace Passed

variable {settings settings' : Settings} {g h k : Graph κ} {r r' : Report}
  {verdict verdict' : NodeId → Verdict} {base base' top top' : NodeId → Nat} {n : Node κ}
  {T : Stamps}

/-- A graph that was evaluated is evaluated again. -/
theorem exists_evaluate (hp : Passed settings g h r verdict base top) (settings' : Settings) :
    ∃ k r', h.evaluate settings' = .ok (k, r') := by
  have ha : Acyclic g.Leads :=
    (topologicalOrder?_isSome_iff hp.before).mp (by rw [hp.ordered]; rfl)
  rw [← leads_of_connections hp.connections] at ha
  obtain ⟨order, -, he⟩ := evaluate_of_acyclic hp.after ha settings'
  exact ⟨_, _, he⟩

/-- A node keeps its outputs if it does not compute and a pass that fills has been there before. -/
theorem outputs_of_idle (hp : Passed settings g h r verdict base top) (hn : n ∈ g.nodes)
    (hidle : n.id ∉ r.computed)
    (hfilled : settings.zeroFill = true → ∀ p ∈ n.outputs, p.value = none → p.emits? = none) :
    (h.turned settings (base n.id) n.restart).outputs = n.outputs := by
  rw [hp.mem_computed hn, hp.verdict_eq hn] at hidle
  rw [turned]
  cases hj : (h.fed n.restart).judge settings.memoization with
  | computed outs =>
    rw [hj] at hidle
    exact absurd rfl hidle
  | reused => rfl
  | failed e =>
    cases hz : settings.zeroFill with
    | false => rfl
    | true => exact Port.fillZeros_of_settled (base n.id) (hfilled hz)

/-- Where a second pass fails as the first one did, it computes no node to which only memoized nodes
lead: such a node is up to date after the first pass, or it failed. -/
theorem idle (hp : Passed settings g h r verdict base top)
    (hp' : Passed settings h k r' verdict' base' top') (hm : settings.memoization = true)
    (hle : ∀ t p, h.feed? t = some p → p.value ≠ none → p.generation ≤ h.revision)
    (hfail : r'.failures = r.failures) {id : NodeId} (hid : id ∈ h.ids)
    (hmemo : h.MemoizedUpTo id) : id ∉ r'.computed := by
  obtain ⟨hplaced, hperm⟩ := placed_of_topologicalOrder? hp'.before hp'.ordered
  refine hplaced.induction (P := fun id => h.MemoizedUpTo id → id ∉ r'.computed)
    (fun v hv hfeeds hmemo => ?_) id (hperm.mem_iff.mpr hid) hmemo
  obtain ⟨n, hnode⟩ := node?_isSome_iff.mpr (hplaced.known v hv)
  obtain ⟨hn, rfl⟩ := mem_of_node? hnode
  rcases hp.mem_ids.mp (hp.ids ▸ hplaced.known n.id hv) with hdone | hdone | ⟨e, hfailed⟩
  case inr.inr => exact hp'.not_mem_computed (.inr ⟨e, hfail ▸ hfailed⟩)
  all_goals
    have hu := hp.upToDate hn (by simp [hdone])
    refine hp'.not_mem_computed (.inl ((hp'.reused_iff hn hu (hmemo n hn .refl) hm hle).mpr ?_))
    intro u hu
    -- what leads to a feeding node leads to this one
    have hl : h.Leads u n.id := leads_of_connections hp'.connections ▸ mem_feeders.mp hu
    exact hfeeds u hl fun m hm hpath => hmemo m hm (hpath.tail hl)

/-- A second pass that shows what the first one shows repeats it. -/
theorem repeated (hp : Passed settings g h r verdict base top)
    (hp' : Passed settings h k r' verdict' base' top') (ht : ∀ m ∈ g.nodes, m.Traced T)
    (hle : ∀ t p, h.feed? t = some p → p.value ≠ none → p.generation ≤ h.revision)
    (hshown : h.plain = k.plain) (hreport : r.plain = r'.plain) :
    h.Repeated settings k r r' := by
  have hfail : r'.failures = r.failures := (congrArg Report.failures hreport).symm
  constructor
  case order => exact (congrArg Report.order hreport).symm
  case failures => exact hfail
  case values =>
    have hnodes := congrArg (fun g : Graph κ => g.nodes.map Node.values) hshown
    simpa [plain, Function.comp_def, Node.values_plain] using hnodes.symm
  case idle =>
    intro hm n hn hmemo
    have hidle := hp.idle hp' hm hle hfail (List.mem_map_of_mem hn) hmemo
    refine ⟨hidle, ?_, _, hp'.node_eq hn, hp'.outputs_of_idle hn hidle fun hz =>
      hp.emits?_of_empty hz ht hn⟩
    rcases hp'.mem_ids.mp (List.mem_map_of_mem hn) with hcomputed | hreused | ⟨e, hfailed⟩
    · exact absurd hcomputed hidle
    · exact .inl hreused
    · exact .inr ⟨e, hfail ▸ hfailed, hfailed⟩

end Passed

end Graph

/-! ## Sessions on one graph -/

namespace Session

variable {κ : Type} [Kernel κ]

/-- If a pass of a session on one graph succeeds, a second pass with the same settings and no edit
in between succeeds as well, in the same order, with the same failures, and it leaves every value as
it was. With memos it computes no node that is memoized like all that lead to it: the node is
reused, or it fails again, and either way its outputs keep their generations. -/
theorem evaluate_again (name : String) {es : List (Edit κ)} (hone : ∀ e ∈ es, e.OnOneGraph)
    (hblank : ∀ e ∈ es, e.Blank) {settings : Settings} {g : Graph κ} {r : Report}
    (he : ((start name).run es).graph.evaluate settings = .ok (g, r)) :
    ∃ h r', ((start name).run (es ++ [.evaluate settings])).graph.evaluate settings = .ok (h, r') ∧
      g.Repeated settings h r r' := by
  have hk := (Kept.start name).run hblank
  have hl := length_graphs_run (s := start name) rfl hone
  obtain ⟨verdict, base, top, hp⟩ := Graph.evaluate_spec hk.wellFormed.graph he
  -- the session after the first pass, whose graph is evaluated again
  have hk' := hk.evaluate he
  have hl' : (((start name).run es).setGraph g).graphs.length = 1 := by
    simpa [setGraph] using hl
  have hgraph : (((start name).run es).setGraph g).graph = g :=
    graph_setGraph hk.wellFormed.current g
  have hrun : (start name).run (es ++ [.evaluate settings]) = ((start name).run es).setGraph g :=
    run_evaluate he []
  obtain ⟨h, r', he'⟩ := hp.exists_evaluate settings
  obtain ⟨verdict', base', top', hp'⟩ := Graph.evaluate_spec hp.after he'
  refine ⟨h, r', by rw [hrun, hgraph, he'], ?_⟩
  have hr := hp.recomputed (Graph.name_evaluate he) (fun n hn => hk.honest hl hp hn)
    hk.traced.graph
  have hr' := hp'.recomputed (Graph.name_evaluate he')
    (fun n hn => hk'.honest hl' (hgraph.symm ▸ hp') (hgraph.symm ▸ hn)) (hgraph ▸ hk'.traced.graph)
  obtain ⟨hshown, hreport⟩ := (hr.again hk.wellFormed.graph.plain).unique hp.after.plain hr'
  exact hp.repeated hp' hk.traced.graph (hgraph ▸ hk'.feed?_le hl') hshown hreport

/-- A colour feeds an image, which feeds an output. Nothing feeds a mask. -/
def echoing : List (Edit Builtin) := [
  .add (.ofKernel (.colorConstant .white)), .add (.ofKernel (.solidColorOf 1 1)),
  .add (.ofKernel .imageOutput), .add (.ofKernel .luminance), .connect ⟨2, 0⟩ ⟨4, 0⟩,
  .connect ⟨4, 0⟩ ⟨6, 0⟩]

/-- The second pass computes the output, which is eager, and keeps the colour and the image. The
mask fails twice. -/
theorem evaluate_again_echoing : ∃ g r,
    ((start "echoing").run echoing).graph.evaluate .standard = .ok (g, r) ∧
    r.computed = [2, 4, 6] ∧ ∃ h r',
      ((start "echoing").run (echoing ++ [.evaluate .standard])).graph.evaluate .standard =
        .ok (h, r') ∧
      r'.computed = [6] ∧ r'.reused = [2, 4] ∧ r'.failures = [(8, .missingInput 0 "Image")] ∧
      g.Repeated .standard h r r' := by
  have hread : (((start "echoing").run echoing).graph.evaluate .standard).toOption.map
      (fun gr => gr.2.computed) = some [2, 4, 6] := by
    decide +kernel
  have hagain : (((start "echoing").run (echoing ++ [.evaluate .standard])).graph.evaluate
      .standard).toOption.map (fun gr => (gr.2.computed, gr.2.reused, gr.2.failures)) =
        some ([6], [2, 4], [(8, .missingInput 0 "Image")]) := by
    decide +kernel
  obtain ⟨g, r, he, hr⟩ := Graph.exists_of_evaluate hread
  obtain ⟨h, r', he', hrepeated⟩ := evaluate_again "echoing" (by simp [echoing, Edit.OnOneGraph])
    (fun e _ => Builtin.blank e) he
  rw [he'] at hagain
  simp only [Except.toOption, Option.map_some, Option.some.injEq, Prod.mk.injEq] at hagain
  obtain ⟨hcomputed, hreused, hfailures⟩ := hagain
  exact ⟨g, r, he, hr, h, r', he', hcomputed, hreused, hfailures, hrepeated⟩

end Session

end TextureFlow
