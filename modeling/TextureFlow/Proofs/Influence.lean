import Mathlib
import TextureFlow.Catalogue.Basic
import TextureFlow.Proofs.Dataflow
import TextureFlow.Proofs.Fate

/-!
# How far an edit reaches

An edit of one node, or of the connections into it, leaves all other nodes and the connections into
them alone. A pass after the edit gives other numbers than a pass without it, and may take the nodes
in another order, but a node that the edited one does not lead to cannot tell. Its inputs show the
same values, and their generations are the same or, in both passes, newer than the pass. No memo
lists a number of the second kind, so the memo applies in both passes or in neither.

* `Port.Alike`, `Node.Alike`: what two passes may differ in;
* `Node.alike_turn`: a node that is fed alike has the same verdict and ends up alike;
* `Graph.DiffersAt`: graphs that differ in one node and what leads to it;
* `Graph.alike_passes`: two passes agree wherever that node does not lead to;
* `Session.evaluate_step_at`: the same for a session on one graph and an edit of it.
-/

namespace TextureFlow

variable {κ : Type}

/-! ## Ports that differ in new numbers only -/

/-- Ports that a computation cannot tell apart, and whose numbers are the same or both newer than a
revision. -/
structure Port.Alike (revision : Nat) (p q : Port) : Prop extends Port.Matches p q where
  generation : q.generation = p.generation ∨ revision < p.generation ∧ revision < q.generation

namespace Port

variable {revision : Nat}

theorem Alike.refl (p : Port) : p.Alike revision p :=
  ⟨⟨rfl, rfl, rfl⟩, .inl rfl⟩

theorem Alike.write (p : Port) (v : Value) {γ δ : Nat} (hγ : revision < γ) (hδ : revision < δ) :
    (p.write v γ).Alike revision (p.write v δ) :=
  ⟨⟨rfl, rfl, rfl⟩, .inr ⟨hγ, hδ⟩⟩

/-- An input that is fed alike shows alike. -/
theorem Alike.resolve (p : Port) {feed feed' : Option Port}
    (h : Option.Rel (Alike revision) feed feed') :
    (p.resolve feed).Alike revision (p.resolve feed') := by
  cases h with
  | none => exact .refl _
  | some h => exact ⟨⟨rfl, rfl, h.value⟩, h.generation⟩

theorem forall₂_alike_refl (ports : List Port) : List.Forall₂ (Alike revision) ports ports :=
  List.forall₂_same.mpr fun p _ => .refl p

/-- A memo that lists no new number does not tell the inputs apart. -/
theorem map_generation_eq_iff {ports ports' : List Port}
    (h : List.Forall₂ (Alike revision) ports ports') {γs : List Nat}
    (hγs : ∀ γ ∈ γs, γ ≤ revision) :
    γs = ports'.map generation ↔ γs = ports.map generation := by
  induction h generalizing γs with
  | nil => rfl
  | @cons p q ports ports' hpq _ ih =>
    cases γs with
    | nil => simp
    | cons γ γs =>
      obtain ⟨hγ, hγs⟩ := List.forall_mem_cons.mp hγs
      have hfirst : γ = q.generation ↔ γ = p.generation := by
        rcases hpq.generation with he | ⟨hp, hq⟩
        · rw [he]
        · omega
      rw [List.map_cons, List.map_cons, List.cons.injEq, List.cons.injEq, hfirst, ih hγs]

theorem writeAll_alike {lo lo' : Nat} (h : revision ≤ lo) (h' : revision ≤ lo') (ports : List Port)
    (values : List Value) :
    List.Forall₂ (Alike revision) (writeAll lo ports values) (writeAll lo' ports values) := by
  induction ports generalizing lo lo' values with
  | nil => cases values <;> exact .nil
  | cons p ports ih =>
    cases values with
    | nil => exact forall₂_alike_refl _
    | cons v values =>
      rw [writeAll, writeAll]
      exact .cons (.write p v (Nat.lt_succ_of_le h) (Nat.lt_succ_of_le h'))
        (ih (h.trans (Nat.le_succ _)) (h'.trans (Nat.le_succ _)) values)

theorem fillZeros_alike {lo lo' : Nat} (h : revision ≤ lo) (h' : revision ≤ lo')
    (ports : List Port) :
    List.Forall₂ (Alike revision) (fillZeros lo ports) (fillZeros lo' ports) := by
  induction ports generalizing lo lo' with
  | nil => exact .nil
  | cons p ports ih =>
    have hrest := ih (h.trans (Nat.le_succ _)) (h'.trans (Nat.le_succ _))
    cases hv : p.value with
    | some v =>
      simp only [fillZeros, hv]
      exact .cons (.refl p) (ih h h')
    | none =>
      cases hk : p.emits? with
      | none =>
        simp only [fillZeros, hv, hk]
        exact .cons (.refl p) hrest
      | some k =>
        simp only [fillZeros, hv, hk]
        exact .cons (.write p k.zero (Nat.lt_succ_of_le h) (Nat.lt_succ_of_le h')) hrest

end Port

/-- What a memo lists is not beyond what was stamped. -/
theorem Port.Explained.le {T : Stamps} {revision : Nat} (hT : ∀ γ v, T γ v → γ ≤ revision)
    {ports : List Port} {γs : List Nat} {vs : List Value} (h : Explained T ports γs vs) :
    ∀ γ ∈ γs, γ ≤ revision := by
  induction h with
  | nil => exact fun γ hγ => absurd hγ List.not_mem_nil
  | cons first _ ih =>
    refine List.forall_mem_cons.mpr ⟨?_, ih⟩
    rcases first with ⟨rfl, -⟩ | ⟨-, hv⟩
    · exact Nat.zero_le _
    · exact hT _ _ hv

/-! ## Nodes -/

/-- Nodes that a user cannot tell apart. -/
structure Node.Agrees (n m : Node κ) : Prop where
  inputs : m.inputs.map Port.value = n.inputs.map Port.value
  outputs : m.outputs.map Port.value = n.outputs.map Port.value
  state : m.state = n.state
  error : m.error = n.error
  count : m.computeCount = n.computeCount

/-- Nodes that differ in numbers newer than a revision only. -/
structure Node.Alike (revision : Nat) (n m : Node κ) : Prop where
  inputs : List.Forall₂ (Port.Alike revision) n.inputs m.inputs
  outputs : List.Forall₂ (Port.Alike revision) n.outputs m.outputs
  state : m.state = n.state
  error : m.error = n.error
  count : m.computeCount = n.computeCount

namespace Node

variable {revision : Nat} {n m : Node κ}

theorem Alike.agrees (h : n.Alike revision m) : n.Agrees m := by
  have hvalues : ∀ {ports ports' : List Port}, List.Forall₂ (Port.Alike revision) ports ports' →
      ports'.map Port.value = ports.map Port.value := fun hports =>
    Port.forall₂_value_iff.mp (hports.imp fun _ _ hp => hp.value)
  exact ⟨hvalues h.inputs, hvalues h.outputs, h.state, h.error, h.count⟩

/-- Inputs that are fed alike show alike. -/
theorem inputs_resolve_alike (n : Node κ) {feed feed' : Nat → Option Port}
    (h : ∀ i, Option.Rel (Port.Alike revision) (feed i) (feed' i)) :
    List.Forall₂ (Port.Alike revision) (n.resolve feed).inputs (n.resolve feed').inputs := by
  refine List.forall₂_iff_get.mpr ⟨by simp [resolve], fun i hi hi' => ?_⟩
  simp only [resolve, List.get_eq_getElem, List.getElem_mapIdx]
  exact .resolve _ (h i)

/-- The memo applies to both of two lists of inputs that are alike, or to neither. -/
theorem reusable_congr {ports : List Port} (h : List.Forall₂ (Port.Alike revision) n.inputs ports)
    (hmemo : ∀ γs, n.memo = some γs → ∀ γ ∈ γs, γ ≤ revision) (memoization : Bool) :
    { n with inputs := ports }.reusable memoization = n.reusable memoization := by
  have hiff : n.memo = some (ports.map Port.generation) ↔
      n.memo = some (n.inputs.map Port.generation) := by
    cases hm : n.memo with
    | none => simp
    | some γs =>
      rw [Option.some.injEq, Option.some.injEq]
      exact Port.map_generation_eq_iff h (hmemo γs hm)
  unfold reusable
  congr 1
  exact decide_eq_decide.mpr hiff

/-- A node that is fed alike does the same. -/
theorem judge_congr [Kernel κ] {ports : List Port}
    (h : List.Forall₂ (Port.Alike revision) n.inputs ports)
    (hmemo : ∀ γs, n.memo = some γs → ∀ γ ∈ γs, γ ≤ revision) (memoization : Bool) :
    { n with inputs := ports }.judge memoization = n.judge memoization ∧
      { n with inputs := ports }.runs memoization = n.runs memoization := by
  have hgather := Port.gather_congr (h.imp fun _ _ => Port.Alike.toMatches) 0
  have hreuse := reusable_congr h hmemo memoization
  constructor
  · simp only [judge, hgather, hreuse]
    rfl
  · simp only [runs, hgather, hreuse]

/-- Turns with the same verdict on inputs that are alike leave a node alike. -/
theorem conclude_alike {ports : List Port} (h : List.Forall₂ (Port.Alike revision) n.inputs ports)
    {lo lo' : Nat} (hlo : revision ≤ lo) (hlo' : revision ≤ lo') (zeroFill ran : Bool)
    (v : Verdict) :
    (n.conclude zeroFill lo ran v).Alike revision
      ({ n with inputs := ports }.conclude zeroFill lo' ran v) := by
  have houtputs : List.Forall₂ (Port.Alike revision) (n.conclude zeroFill lo ran v).outputs
      ({ n with inputs := ports }.conclude zeroFill lo' ran v).outputs := by
    cases v with
    | computed outs => exact Port.writeAll_alike hlo hlo' n.outputs outs
    | reused => exact Port.forall₂_alike_refl n.outputs
    | failed e =>
      cases zeroFill with
      | false => exact Port.forall₂_alike_refl n.outputs
      | true => exact Port.fillZeros_alike hlo hlo' n.outputs
  constructor
  case inputs => rwa [inputs_conclude, inputs_conclude]
  case outputs => exact houtputs
  all_goals cases v <;> rfl

end Node

/-! ## Graphs that differ in one node -/

namespace Graph

/-- Graphs that differ in one node and in the connections that lead to it only. -/
structure DiffersAt (id : NodeId) (g g' : Graph κ) : Prop where
  revision : g'.revision = g.revision
  ids : g'.ids = g.ids
  nodes : ∀ v, v ≠ id → g'.node? v = g.node? v
  connections : ∀ c : Connection, c.target.node ≠ id → (c ∈ g'.connections ↔ c ∈ g.connections)

namespace DiffersAt

variable {id : NodeId} {g g' : Graph κ}

theorem refl (id : NodeId) (g : Graph κ) : g.DiffersAt id g :=
  ⟨rfl, rfl, fun _ _ => rfl, fun _ _ => Iff.rfl⟩

theorem leads_iff (h : g.DiffersAt id g') {u v : NodeId} (hv : v ≠ id) :
    g'.Leads u v ↔ g.Leads u v := by
  refine exists_congr fun c => and_congr_left fun hc => h.connections c ?_
  rwa [hc.2]

/-- The same connection feeds an input of another node. -/
theorem connectionTo?_eq (h : g.DiffersAt id g') (hw : g.WellFormed) (hw' : g'.WellFormed)
    {t : InputPlace} (ht : t.node ≠ id) : g'.connectionTo? t = g.connectionTo? t := by
  refine Option.ext fun c => ?_
  rw [connectionTo?_eq_some_iff hw', connectionTo?_eq_some_iff hw]
  exact and_congr_left fun he => h.connections c (he ▸ ht)

/-- The node leads to the same nodes. -/
theorem reaches_iff (h : g.DiffersAt id g') {v : NodeId} :
    Relation.ReflTransGen g'.Leads id v ↔ Relation.ReflTransGen g.Leads id v := by
  have hpath : ∀ {r r' : NodeId → NodeId → Prop}, (∀ u v, v ≠ id → r u v → r' u v) →
      Relation.ReflTransGen r id v → Relation.ReflTransGen r' id v := by
    intro r r' hr hpath
    induction hpath with
    | refl => exact .refl
    | @tail u v _ huv ih =>
      -- a path that comes back may as well begin there
      by_cases hv : v = id
      · exact hv ▸ .refl
      · exact ih.tail (hr u v hv huv)
  exact ⟨hpath fun u v hv => (h.leads_iff hv).mp, hpath fun u v hv => (h.leads_iff hv).mpr⟩

end DiffersAt

/-- Two passes that say the same of a node, in their graphs and in their reports. -/
structure Agree (g g' : Graph κ) (r r' : Report) (id : NodeId) : Prop where
  node : ∃ n n', g.node? id = some n ∧ g'.node? id = some n' ∧ n.Agrees n'
  computed : id ∈ r'.computed ↔ id ∈ r.computed
  reused : id ∈ r'.reused ↔ id ∈ r.reused
  failed : ∀ e, (id, e) ∈ r'.failures ↔ (id, e) ∈ r.failures

namespace Passed

variable [Kernel κ] {settings : Settings} {id : NodeId} {g g' h h' : Graph κ} {r r' : Report}
  {verdict verdict' : NodeId → Verdict} {base base' top top' : NodeId → Nat}

/-- A node that is the same before two passes, and that is fed alike after them, ends up alike with
the same verdict. -/
theorem alike_turn (hp : Passed settings g h r verdict base top)
    (hp' : Passed settings g' h' r' verdict' base' top') (hrev : g'.revision = g.revision)
    {n : Node κ} (hn : n ∈ g.nodes) (hn' : n ∈ g'.nodes)
    (hmemo : ∀ γs, n.memo = some γs → ∀ γ ∈ γs, γ ≤ g.revision)
    (hfeed : ∀ i, Option.Rel (Port.Alike g.revision) (h.feed? ⟨n.id, i⟩) (h'.feed? ⟨n.id, i⟩)) :
    (h.turned settings (base n.id) n.restart).Alike g.revision
        (h'.turned settings (base' n.id) n.restart) ∧
      verdict' n.id = verdict n.id := by
  have hinputs : List.Forall₂ (Port.Alike g.revision) (h.fed n.restart).inputs
      (h'.fed n.restart).inputs := Node.inputs_resolve_alike n.restart hfeed
  have hcongr := Node.judge_congr hinputs hmemo settings.memoization
  have hjudge : (h'.fed n.restart).judge settings.memoization =
      (h.fed n.restart).judge settings.memoization := hcongr.1
  have hruns : (h'.fed n.restart).runs settings.memoization =
      (h.fed n.restart).runs settings.memoization := hcongr.2
  have hbase : g.revision ≤ base n.id := (hp.ran.within _ (hp.mem_order hn)).1
  have hbase' : g.revision ≤ base' n.id := hrev ▸ (hp'.ran.within _ (hp'.mem_order hn')).1
  constructor
  · rw [turned, turned, hjudge, hruns]
    exact Node.conclude_alike hinputs hbase hbase' ..
  · rw [hp.verdict_eq hn, hp'.verdict_eq hn', hjudge]

/-- Two passes over graphs that differ in one node leave all nodes alike that this node does not
lead to. -/
theorem alike (hp : Passed settings g h r verdict base top)
    (hp' : Passed settings g' h' r' verdict' base' top') (hd : g.DiffersAt id g')
    (hmemo : ∀ n ∈ g.nodes, ∀ γs, n.memo = some γs → ∀ γ ∈ γs, γ ≤ g.revision) {v : NodeId}
    (hv : v ∈ g.ids) (hfar : ¬ Relation.ReflTransGen g.Leads id v) :
    ∃ n n', h.node? v = some n ∧ h'.node? v = some n' ∧ n.Alike g.revision n' ∧
      verdict' v = verdict v := by
  obtain ⟨hplaced, hperm⟩ := placed_of_topologicalOrder? hp.before hp.ordered
  refine hplaced.induction (P := fun v => ¬ Relation.ReflTransGen g.Leads id v →
    ∃ n n', h.node? v = some n ∧ h'.node? v = some n' ∧ n.Alike g.revision n' ∧
      verdict' v = verdict v) (fun v hv hfeeds hfar => ?_) v (hperm.mem_iff.mpr hv) hfar
  have hne : v ≠ id := fun he => hfar (he ▸ .refl)
  obtain ⟨n, hn⟩ := node?_isSome_iff.mpr (hplaced.known v hv)
  obtain ⟨hm', -⟩ := mem_of_node? ((hd.nodes v hne).trans hn)
  obtain ⟨hm, rfl⟩ := mem_of_node? hn
  -- what feeds the node is not led to either
  have hfeed : ∀ i, Option.Rel (Port.Alike g.revision) (h.feed? ⟨n.id, i⟩)
      (h'.feed? ⟨n.id, i⟩) := by
    refine fun i => feed?_rel ?_ fun u hu => ?_
    · have hto : g'.connectionTo? ⟨n.id, i⟩ = g.connectionTo? ⟨n.id, i⟩ :=
        hd.connectionTo?_eq hp.before hp'.before hne
      rw [connectionTo?_congr hp'.connections, hto, connectionTo?_congr hp.connections]
    · have hu : g.Leads u n.id := by
        obtain ⟨c, hc, hends⟩ := hu
        exact ⟨c, hp.connections ▸ hc, hends⟩
      obtain ⟨k, k', hk, hk', halike, -⟩ := hfeeds u hu fun hreach => hfar (hreach.tail hu)
      exact ⟨k, k', hk, hk', halike.outputs⟩
  obtain ⟨halike, hverdict⟩ := hp.alike_turn hp' hd.revision hm hm' (hmemo n hm) hfeed
  exact ⟨_, _, hp.node_eq hm, hp'.node_eq hm', halike, hverdict⟩

/-- Two passes over graphs that differ in one node agree on all nodes that this node does not lead
to. -/
theorem agree (hp : Passed settings g h r verdict base top)
    (hp' : Passed settings g' h' r' verdict' base' top') (hd : g.DiffersAt id g')
    (hmemo : ∀ n ∈ g.nodes, ∀ γs, n.memo = some γs → ∀ γ ∈ γs, γ ≤ g.revision) {v : NodeId}
    (hv : v ∈ g.ids) (hfar : ¬ Relation.ReflTransGen g.Leads id v) : h.Agree h' r r' v := by
  obtain ⟨n, n', hn, hn', halike, hverdict⟩ := hp.alike hp' hd hmemo hv hfar
  obtain ⟨m, hm, rfl⟩ := List.mem_map.mp hv
  obtain ⟨m', hm', hid⟩ := List.mem_map.mp (hd.ids ▸ hv)
  constructor
  case node => exact ⟨n, n', hn, hn', halike.agrees⟩
  case computed => rw [hp.mem_computed hm, ← hverdict, ← hid, hp'.mem_computed hm']
  case reused => rw [hp.mem_reused hm, ← hverdict, ← hid, hp'.mem_reused hm']
  case failed =>
    intro e
    rw [hp.mem_failures hm, ← hverdict, ← hid, hp'.mem_failures hm']

end Passed

/-! ## Edits of one node -/

namespace DiffersAt

variable {id : NodeId} {g g' : Graph κ}

theorem connect {cid : ConnectionId} {source : OutputPlace} {target : InputPlace} {c : Connection}
    (h : g.connect cid source target = .ok (c, g')) : g.DiffersAt target.node g' := by
  obtain ⟨rfl, rfl, -⟩ := connect_eq_ok h
  refine ⟨rfl, rfl, fun _ _ => rfl, fun d hd => ?_⟩
  have hne : d.target ≠ target := fun he => hd (congrArg _ he)
  have hnew : d ≠ ⟨cid, source, target⟩ := fun he => hne (congrArg _ he)
  rw [mem_placed_iff, or_iff_right hnew, and_iff_left hne]

theorem drop (g : Graph κ) (c : Connection) : g.DiffersAt c.target.node (g.drop c) := by
  refine ⟨rfl, rfl, fun _ _ => rfl, fun d hd => ?_⟩
  have hne : d.target ≠ c.target := fun he => hd (congrArg _ he)
  exact List.mem_filter.trans (and_iff_left (by simpa using hne))

theorem setNode {n : Node κ} (g : Graph κ) : g.DiffersAt n.id (g.setNode n) :=
  ⟨rfl, ids_setNode g n, fun _ hv => node?_setNode_of_ne g hv, fun _ _ => Iff.rfl⟩

end DiffersAt

end Graph

/-- An edit of one node of a graph: of its parameters, its fallbacks, its strategy or its memo, or
of a connection into it. -/
def Edit.At (g : Graph κ) (id : NodeId) : Edit κ → Prop
  | .node place _ => place = .node id
  | .connect _ target => target.node = id
  | .connectPorts _ target => target.node = id
  | .disconnect target => target.node = id
  | .disconnectId cid => ∀ c ∈ g.connections, c.id = cid → c.target.node = id
  | _ => False

namespace Session

variable {s : Session κ} {id : NodeId}

theorem differsAt_settleConnect (h : s.WellFormed)
    {r : Except ConnectError (Connection × Graph κ)}
    (hr : ∀ c g, r = .ok (c, g) → s.graph.DiffersAt id g) :
    s.graph.DiffersAt id (s.settleConnect r).2.graph := by
  cases r with
  | error err => exact .refl _ _
  | ok cg =>
    have hg : (s.settleConnect (.ok cg)).2.graph = cg.2 := graph_setGraph h.current cg.2
    rw [hg]
    exact hr cg.1 cg.2 rfl

/-- Dropping a connection into a node leaves the rest of the graph alone. -/
theorem differsAt_settleDisconnect (h : s.WellFormed) {found : Option Connection}
    (hat : ∀ c, found = some c → c.target.node = id) :
    s.graph.DiffersAt id
      (s.settleDisconnect (found.map fun c => (c, s.graph.drop c))).2.graph := by
  cases found with
  | none => exact .refl _ _
  | some c =>
    have hg : (s.settleDisconnect (some (c, s.graph.drop c))).2.graph = s.graph.drop c :=
      graph_setGraph h.current _
    obtain rfl := hat c rfl
    rw [Option.map_some, hg]
    exact .drop _ c

variable [Kernel κ]

/-- An edit of one node leaves the rest of the graph alone. -/
theorem differsAt_step (h : s.WellFormed) {e : Edit κ} (hat : e.At s.graph id) :
    s.graph.DiffersAt id (s.step e).2.graph := by
  cases e with
  | node place e =>
    obtain rfl : place = .node id := hat
    simp only [step, editNode]
    cases hn : s.node? (.node id) with
    | none => exact .refl _ _
    | some m =>
      cases he : e.apply m with
      | error err => simpa only [he] using Graph.DiffersAt.refl _ _
      | ok n =>
        have hid : n.id = id :=
          (congrArg Frame.id (Node.frame_apply he)).trans (Graph.mem_of_node? hn).2
        have hg : (s.setNode (.node id) n).graph = s.graph.setNode n := graph_setGraph h.current _
        simp only [he]
        rw [hg, ← hid]
        exact .setNode _
  | connect source target =>
    obtain rfl : target.node = id := hat
    exact differsAt_settleConnect h fun c g hc => .connect hc
  | connectPorts source target =>
    obtain rfl : target.node = id := hat
    refine differsAt_settleConnect h fun c g hc => ?_
    obtain ⟨output, input, hc⟩ := Graph.connectPorts_eq_ok hc
    exact .connect hc
  | disconnect target =>
    refine differsAt_settleDisconnect h fun c hc => ?_
    have htarget : c.target = target := by simpa using List.find?_some hc
    exact htarget ▸ hat
  | disconnectId cid =>
    refine differsAt_settleDisconnect h fun c hc => ?_
    exact hat c (List.mem_of_find?_eq_some hc) (by simpa using List.find?_some hc)
  | focus | create | insert | add | remove | evaluate => exact hat.elim

/-- In a session on one graph no memo lists a number beyond the clock. -/
theorem Kept.memo_le {L : Nat → Stamps} (h : Kept L s) (hl : s.graphs.length = 1) :
    ∀ n ∈ s.graph.nodes, ∀ γs, n.memo = some γs → ∀ γ ∈ γs, γ ≤ s.graph.revision := by
  intro n hn γs hγs
  obtain ⟨past, outs, hexplained, -⟩ := (h.traced.graph n hn).memo γs hγs
  exact hexplained.le fun γ v => h.anyOf_le hl

/-- Take a pass of a session on one graph and the same pass after an edit of one node, or of a
connection into it. Neither pass is refused if neither graph has a cycle, and they agree on every
node that the edited one does not lead to, in whichever of the two graphs the paths are sought. -/
theorem evaluate_agree (name : String) {es : List (Edit κ)} (hone : ∀ e ∈ es, e.OnOneGraph)
    (hblank : ∀ e ∈ es, e.Blank) {id : NodeId} {e : Edit κ}
    (hat : e.At ((start name).run es).graph id) (ha : Acyclic ((start name).run es).graph.Leads)
    (ha' : Acyclic (((start name).run es).step e).2.graph.Leads) (settings : Settings) :
    ∃ g r g' r', ((start name).run es).graph.evaluate settings = .ok (g, r) ∧
      (((start name).run es).step e).2.graph.evaluate settings = .ok (g', r') ∧
      ∀ v ∈ ((start name).run es).graph.ids,
        ¬ Relation.ReflTransGen ((start name).run es).graph.Leads id v ∨
          ¬ Relation.ReflTransGen (((start name).run es).step e).2.graph.Leads id v →
        g.Agree g' r r' v := by
  have hk := (Kept.start name).run hblank
  have hl := length_graphs_run (s := start name) rfl hone
  have hw' := wellFormed_step hk.wellFormed e
  have hd := differsAt_step hk.wellFormed hat
  obtain ⟨_, -, he⟩ := Graph.evaluate_of_acyclic hk.wellFormed.graph ha settings
  obtain ⟨_, -, he'⟩ := Graph.evaluate_of_acyclic hw'.graph ha' settings
  obtain ⟨verdict, base, top, hp⟩ := Graph.evaluate_spec hk.wellFormed.graph he
  obtain ⟨verdict', base', top', hp'⟩ := Graph.evaluate_spec hw'.graph he'
  refine ⟨_, _, _, _, he, he', fun v hv hfar => ?_⟩
  rw [hd.reaches_iff, or_self] at hfar
  exact hp.agree hp' hd (hk.memo_le hl) hv hfar

/-- An image feeds its inversion, and a sum falls back on zeros. A pass was run. -/
def unrelated : List (Edit Builtin) := [
  .add (.ofKernel (.imageSource ⟨⟨1, 1⟩, [.white]⟩)), .add (.ofKernel .invert),
  .add (.ofKernel (.math .add)), .connect ⟨2, 0⟩ ⟨4, 0⟩, .evaluate .standard]

/-- The image becomes black. -/
def blackening : Edit Builtin :=
  .node (.node 2) (.parameter "image" (.image ⟨⟨1, 1⟩, [.black]⟩))

/-- After the edit the image and its inversion are computed as well, so the sum gets another number,
but it agrees. -/
theorem evaluate_agree_unrelated : ∃ g r g' r',
    ((start "unrelated").run unrelated).graph.evaluate .standard = .ok (g, r) ∧
    (((start "unrelated").run unrelated).step blackening).2.graph.evaluate .standard =
      .ok (g', r') ∧
    r.computed = [6] ∧ r'.computed = [2, 4, 6] ∧
    (g.node? 6).map (fun n => n.outputs.map Port.generation) = some [4] ∧
    (g'.node? 6).map (fun n => n.outputs.map Port.generation) = some [6] ∧ g.Agree g' r r' 6 := by
  have hw := wellFormed_run (.start "unrelated") unrelated
  have hw' := wellFormed_step hw blackening
  have ha := (Graph.findCycle?_eq_none_iff hw.graph).mp (by decide +kernel)
  have ha' := (Graph.findCycle?_eq_none_iff hw'.graph).mp (by decide +kernel)
  obtain ⟨g, r, g', r', he, he', hagree⟩ := evaluate_agree "unrelated"
    (by simp [unrelated, Edit.OnOneGraph]) (fun e _ => Builtin.blank e)
    (show blackening.At _ 2 from rfl) ha ha' .standard
  have hread : (((start "unrelated").run unrelated).graph.evaluate .standard).toOption.map
      (fun gr => (gr.2.computed, (gr.1.node? 6).map fun n => n.outputs.map Port.generation)) =
        some ([6], some [4]) := by
    decide +kernel
  have hread' : ((((start "unrelated").run unrelated).step blackening).2.graph.evaluate
      .standard).toOption.map
        (fun gr => (gr.2.computed, (gr.1.node? 6).map fun n => n.outputs.map Port.generation)) =
          some ([2, 4, 6], some [6]) := by
    decide +kernel
  rw [he] at hread
  rw [he'] at hread'
  obtain ⟨hcomputed, hgeneration⟩ := Prod.mk.inj (Option.some.inj hread)
  obtain ⟨hcomputed', hgeneration'⟩ := Prod.mk.inj (Option.some.inj hread')
  -- no connection leads to the sum
  have hnone : ∀ c ∈ ((start "unrelated").run unrelated).graph.connections, c.target.node ≠ 6 := by
    decide +kernel
  have hfar : ¬ Relation.ReflTransGen ((start "unrelated").run unrelated).graph.Leads 2 6 := by
    intro hreach
    rcases hreach.cases_tail with hsame | ⟨u, -, c, hc, -, htarget⟩
    · cases hsame
    · exact hnone c hc htarget
  exact ⟨g, r, g', r', he, he', hcomputed, hcomputed', hgeneration, hgeneration',
    hagree 6 (by decide +kernel) (.inl hfar)⟩

end Session

end TextureFlow
