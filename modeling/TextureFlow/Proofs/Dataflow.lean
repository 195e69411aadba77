import Mathlib
import TextureFlow.Catalogue.Basic
import TextureFlow.Proofs.Fault
import TextureFlow.Proofs.Ledger

/-!
# A pass solves the equations of its graph

After a pass an input holds what its source holds at the *end* of the pass, or its fallback, and
what a node holds is what its kernel makes of its inputs, whether it computed or kept its outputs.

* `Graph.Solves`: the equations of a graph, and what a report has to say of them;
* `Session.evaluate_solves`: after every pass of a session on one graph, the graph is solved.
-/

namespace TextureFlow

variable {κ : Type} [Kernel κ]

namespace Graph

/-- A graph in which every value is the one that its place in the graph demands, and a report that
says so. -/
structure Solves (g : Graph κ) (r : Report) : Prop where
  /-- A connected input holds what its source holds. -/
  connected : ∀ c ∈ g.connections, ∃ m n p q,
    g.node? c.source.node = some m ∧ m.outputs[c.source.output]? = some p ∧
    g.node? c.target.node = some n ∧ n.inputs[c.target.input]? = some q ∧
    q.value = p.value ∧ q.generation = p.generation
  /-- Any other input holds its fallback, at generation `0`. -/
  unconnected : ∀ n ∈ g.nodes, ∀ i q, n.inputs[i]? = some q →
    g.connectionTo? ⟨n.id, i⟩ = none → q.value = q.fallback ∧ q.generation = 0
  /-- A node that computed or kept its outputs holds what its kernel makes of its inputs. -/
  done : ∀ n ∈ g.nodes, n.id ∈ r.computed ∨ n.id ∈ r.reused → n.Current
  /-- A node is reported as failed exactly for its fault. -/
  failed : ∀ n ∈ g.nodes, ∀ e, (n.id, e) ∈ r.failures ↔ n.Fault e
  /-- A node bears the error that is reported of it. -/
  recorded : ∀ n ∈ g.nodes, ∀ e, n.error = some e ↔ (n.id, e) ∈ r.failures
  /-- Every node is reported, and no other. -/
  reported : ∀ id, id ∈ g.ids ↔ id ∈ r.computed ∨ id ∈ r.reused ∨ ∃ e, (id, e) ∈ r.failures

omit [Kernel κ] in
/-- The connection that feeds an input is the only one to it. -/
theorem connectionTo?_of_mem {g : Graph κ} (hw : g.WellFormed) {c : Connection}
    (hc : c ∈ g.connections) : g.connectionTo? c.target = some c :=
  find?_key_of_mem hw.single hc

omit [Kernel κ] in
theorem connectionTo?_eq_some_iff {g : Graph κ} (hw : g.WellFormed) {target : InputPlace}
    {c : Connection} :
    g.connectionTo? target = some c ↔ c ∈ g.connections ∧ c.target = target := by
  refine ⟨mem_of_connectionTo?, ?_⟩
  rintro ⟨hc, rfl⟩
  exact connectionTo?_of_mem hw hc

omit [Kernel κ] in
theorem feed?_of_mem {g : Graph κ} (hw : g.WellFormed) {c : Connection} (hc : c ∈ g.connections)
    {m : Node κ} (hm : g.node? c.source.node = some m) :
    g.feed? c.target = m.outputs[c.source.output]? := by
  rw [feed?, connectionTo?_of_mem hw hc, Option.bind_some, hm, Option.bind_some]

/-- A turn is no reason to compute differently. -/
theorem result_turned (settings : Settings) (h : Graph κ) (revision : Nat) (n : Node κ) :
    (h.turned settings revision n).result = (h.fed n).result :=
  Node.result_conclude ..

namespace Passed

variable {settings : Settings} {g h : Graph κ} {r : Report} {verdict : NodeId → Verdict}
  {base top : NodeId → Nat} {n : Node κ}

/-- After a pass every input shows what feeds it. -/
theorem exists_resolve (hp : Passed settings g h r verdict base top) (hn : n ∈ h.nodes) {i : Nat}
    {q : Port} (hq : n.inputs[i]? = some q) : ∃ p : Port, q = p.resolve (h.feed? ⟨n.id, i⟩) := by
  obtain ⟨m, hm, hid, hturned⟩ := hp.exists_turned hn
  rw [hturned, inputs_turned, fed, Node.resolve, List.getElem?_mapIdx] at hq
  obtain ⟨p, -, rfl⟩ := Option.map_eq_some_iff.mp hq
  exact ⟨p, by rw [hid]; rfl⟩

/-- After a pass a connected input holds what its source holds. -/
theorem connected (hp : Passed settings g h r verdict base top) {c : Connection}
    (hc : c ∈ h.connections) : ∃ m n p q,
    h.node? c.source.node = some m ∧ m.outputs[c.source.output]? = some p ∧
    h.node? c.target.node = some n ∧ n.inputs[c.target.input]? = some q ∧
    q.value = p.value ∧ q.generation = p.generation := by
  obtain ⟨m, hm, n, hn, p, q, k, hmi, hni, hpo, hqi, -⟩ := hp.after.fits c hc
  have hsource : h.node? c.source.node = some m := hmi ▸ node?_of_mem hp.after.nodup hm
  have htarget : h.node? c.target.node = some n := hni ▸ node?_of_mem hp.after.nodup hn
  obtain ⟨p', rfl⟩ := hp.exists_resolve hn hqi
  have hplace : (⟨n.id, c.target.input⟩ : InputPlace) = c.target := by rw [hni]
  rw [hplace, feed?_of_mem hp.after hc hsource, hpo] at hqi
  exact ⟨m, n, p, _, hsource, hpo, htarget, hqi, rfl, rfl⟩

/-- After an honest verdict other than a failure a node is current. -/
theorem current (hp : Passed settings g h r verdict base top) (hn : n ∈ g.nodes)
    (hv : (h.fed n.restart).Honest (verdict n.id)) (hnone : (verdict n.id).error? = none) :
    (h.turned settings (base n.id) n.restart).Current := by
  obtain ⟨outs, hres⟩ := hv.exists_result hnone
  obtain ⟨ins, hins, hc, -⟩ := Node.exists_of_result ((result_turned ..).trans hres)
  exact ⟨ins, outs, hins, hc, hp.map_value_turned hn hv hres⟩

/-- An honest verdict is a failure exactly for the fault of the node. -/
theorem fault_turned_iff (hv : (h.fed n.restart).Honest (verdict n.id)) {e : ComputeError} :
    (h.turned settings (base n.id) n.restart).Fault e ↔ (verdict n.id).error? = some e := by
  rw [Node.fault_iff, result_turned, Verdict.error?_eq_some_iff]
  constructor
  · exact hv.eq_failed
  · intro he
    rw [he] at hv
    exact hv

/-- A pass whose verdicts are honest solves the graph. -/
theorem solves (hp : Passed settings g h r verdict base top)
    (hv : ∀ n ∈ g.nodes, (h.fed n.restart).Honest (verdict n.id)) : h.Solves r where
  connected _ hc := hp.connected hc
  unconnected n hn i q hq hnone := by
    obtain ⟨p, rfl⟩ := hp.exists_resolve hn hq
    rw [feed?, hnone]
    exact ⟨rfl, rfl⟩
  done n hn hdone := by
    obtain ⟨m, hm, hid, rfl⟩ := hp.exists_turned hn
    rw [hid] at hdone
    exact hp.current hm (hv m hm) ((hp.done_iff hm).mp hdone)
  failed n hn e := by
    obtain ⟨m, hm, hid, rfl⟩ := hp.exists_turned hn
    rw [hid, hp.mem_failures hm, fault_turned_iff (hv m hm)]
  recorded n hn e := by
    obtain ⟨m, hm, hid, rfl⟩ := hp.exists_turned hn
    rw [hid, hp.mem_failures hm, hp.error_turned hm]
  reported id := by rw [hp.ids, hp.mem_ids]

end Passed

end Graph

/-- After every pass of a session on one graph, the graph is solved. -/
theorem Session.evaluate_solves {name : String} {es : List (Edit κ)}
    (hone : ∀ e ∈ es, e.OnOneGraph) (hblank : ∀ e ∈ es, e.Blank) {settings : Settings}
    {g : Graph κ} {r : Report}
    (he : ((Session.start name).run es).graph.evaluate settings = .ok (g, r)) : g.Solves r := by
  have hk := (Kept.start name).run hblank
  obtain ⟨verdict, base, top, hp⟩ := Graph.evaluate_spec hk.wellFormed.graph he
  exact hp.solves fun n hn => hk.honest (length_graphs_run rfl hone) hp hn

/-- A colour feeds an image, nothing feeds the output, and a pass was run. -/
def Session.painting : List (Edit Builtin) := [
  .add (.ofKernel (.colorConstant .white)), .add (.ofKernel (.solidColorOf 1 1)),
  .add (.ofKernel .imageOutput), .connect ⟨2, 0⟩ ⟨4, 0⟩, .evaluate .standard]

/-- The second pass keeps the colour and the image and fails at the output. -/
theorem Session.evaluate_solves_painting : ∃ g r,
    ((Session.start "painting").run painting).graph.evaluate .standard = .ok (g, r) ∧
    r.reused = [2, 4] ∧ r.failures.map Prod.fst = [6] ∧ g.Solves r := by
  have hkept : (((Session.start "painting").run painting).graph.evaluate .standard).toOption.map
      (fun gr => (gr.2.reused, gr.2.failures.map Prod.fst)) = some ([2, 4], [6]) := by
    decide +kernel
  obtain ⟨g, r, he, hr⟩ := Graph.exists_of_evaluate hkept
  obtain ⟨hreused, hfailed⟩ := Prod.mk.inj hr
  refine ⟨g, r, he, hreused, hfailed, evaluate_solves ?_ (fun e _ => Builtin.blank e) he⟩
  simp [painting, Edit.OnOneGraph]

end TextureFlow
