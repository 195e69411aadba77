import Mathlib
import TextureFlow.Proofs.Accounts
import TextureFlow.Proofs.Ledger

/-!
# What a clean pass shows

The equations of a graph without a cycle have one solution, which is found along the order. A pass
in which no node fails, and whose verdicts are honest, leaves this solution on the outputs, whatever
was on them and whatever nodes remembered. So what it shows depends on the bare form of the nodes
and on the connections only.

* `Graph.Passed.values_eq`: of two passes over graphs of the same bare form one shows what the other
  shows, if the other is clean;
* `Graph.Cached`: what makes verdicts honest, and that edits and passes keep it.
-/

namespace TextureFlow

variable {κ : Type}

/-! ## Bare forms -/

namespace Port

/-- Inputs of the same bare form that are fed the same values match. -/
theorem matches_resolve {p q : Port} (h : q.bare = p.bare) {feed feed' : Option Port}
    (hf : Option.Rel (fun p q => q.value = p.value) feed feed') :
    (p.resolve feed).Matches (q.resolve feed') := by
  simp only [bare, mk.injEq] at h
  obtain ⟨hname, -, haccepted, hfallback, -⟩ := h
  cases hf with
  | none => exact ⟨hname, haccepted, hfallback⟩
  | some hvalue => exact ⟨hname, haccepted, hvalue⟩

theorem map_face_of_bare {ports ports' : List Port} (h : ports'.map bare = ports.map bare) :
    ports'.map face = ports.map face := by
  have hface : face = face ∘ bare := rfl
  rw [hface, ← List.map_map, h, List.map_map]

end Port

/-- Nodes of the same bare form that are fed the same values have matching inputs. -/
theorem Node.matches_resolve {n m : Node κ} (h : m.bare = n.bare) {feed feed' : Nat → Option Port}
    (hf : ∀ i, Option.Rel (fun p q => q.value = p.value) (feed i) (feed' i)) :
    List.Forall₂ Port.Matches (n.resolve feed).inputs (m.resolve feed').inputs := by
  have hinputs : m.inputs.map Port.bare = n.inputs.map Port.bare := congrArg Node.inputs h
  have hlength : n.inputs.length = m.inputs.length := by
    simpa using (congrArg List.length hinputs).symm
  refine List.forall₂_iff_get.mpr ⟨by simpa [resolve] using hlength, fun i hn hm => ?_⟩
  simp only [resolve, List.length_mapIdx] at hn hm
  simp only [resolve, List.get_eq_getElem, List.getElem_mapIdx]
  refine Port.matches_resolve ?_ (hf i)
  have hi := congrArg (·[i]?) hinputs
  simp only [List.getElem?_map, List.getElem?_eq_getElem hn, List.getElem?_eq_getElem hm] at hi
  exact Option.some.inj hi

namespace Graph

theorem ids_of_map_bare {g g' : Graph κ} (h : g'.nodes.map Node.bare = g.nodes.map Node.bare) :
    g'.ids = g.ids := by
  have hid : Node.id = Node.id ∘ (Node.bare : Node κ → Node κ) := rfl
  rw [ids, ids, hid, ← List.map_map, h, List.map_map]

/-- The node of a number has the same bare form. -/
theorem exists_of_map_bare {g g' : Graph κ} (h : g'.nodes.map Node.bare = g.nodes.map Node.bare)
    {id : NodeId} {n : Node κ} (hn : g.node? id = some n) :
    ∃ m, g'.node? id = some m ∧ m.bare = n.bare := by
  have hfind : ∀ g : Graph κ, (g.node? id).map Node.bare =
      (g.nodes.map Node.bare).find? fun n => n.id = id := by
    intro g
    rw [node?, List.find?_map]
    rfl
  have hbare : (g'.node? id).map Node.bare = (g.node? id).map Node.bare := by
    rw [hfind, hfind, h]
  rw [hn, Option.map_some] at hbare
  exact Option.map_eq_some_iff.mp hbare

/-! ## Clean passes -/

variable [Kernel κ]

/-- Nodes of the same bare form compute the same if the nodes that feed them show the same. -/
theorem result_fed_congr {h h' : Graph κ} {n m : Node κ} (hnm : m.bare = n.bare)
    (hc : h'.connections = h.connections)
    (hfeeds : ∀ u, h.Leads u n.id → ∃ k k', h.node? u = some k ∧ h'.node? u = some k' ∧
      k'.outputs.map Port.value = k.outputs.map Port.value) :
    (h'.fed m).result = (h.fed n).result := by
  have hid : m.id = n.id := (congrArg Node.id hnm :)
  have hkernel : (h'.fed m).kernel = (h.fed n).kernel := (congrArg Node.kernel hnm :)
  have houtputs : m.outputs.map Port.bare = n.outputs.map Port.bare := congrArg Node.outputs hnm
  refine Node.result_congr hkernel (Port.map_face_of_bare houtputs) ?_
  refine Node.matches_resolve hnm fun i => ?_
  rw [hid]
  refine feed?_rel (connectionTo?_congr hc _) fun u hu => ?_
  obtain ⟨k, k', hk, hk', hvalues⟩ := hfeeds u hu
  exact ⟨k, k', hk, hk', Port.forall₂_value_iff.mpr hvalues⟩

namespace Passed

variable {settings settings' : Settings} {g g' h h' : Graph κ} {r r' : Report}
  {verdict verdict' : NodeId → Verdict} {base base' top top' : NodeId → Nat}

/-- In a clean pass no verdict is a failure. -/
theorem clean_iff (hp : Passed settings g h r verdict base top) :
    r.clean = true ↔ ∀ n ∈ g.nodes, (verdict n.id).error? = none := by
  rw [Report.clean, List.isEmpty_iff, hp.failures_eq, List.filterMap_eq_nil_iff]
  constructor
  · intro hall n hn
    simpa using hall n.id (hp.mem_order hn)
  · intro hall id hid
    obtain ⟨n, hn, rfl⟩ := List.mem_map.mp (hp.perm.mem_iff.mp hid)
    rw [hall n hn, Option.map_none]

/-- If a pass is clean, any pass over a graph of the same bare form shows the same, and no node
fails in it. -/
theorem values_eq (hp : Passed settings g h r verdict base top)
    (hp' : Passed settings' g' h' r' verdict' base' top')
    (hbare : g'.nodes.map Node.bare = g.nodes.map Node.bare)
    (hc : g'.connections = g.connections)
    (hv : ∀ n ∈ g.nodes, (h.fed n.restart).Honest (verdict n.id))
    (hv' : ∀ n ∈ g'.nodes, (h'.fed n.restart).Honest (verdict' n.id)) (hclean : r.clean = true)
    {id : NodeId} (hid : id ∈ g.ids) :
    ∃ n m, h.node? id = some n ∧ h'.node? id = some m ∧
      m.outputs.map Port.value = n.outputs.map Port.value ∧ (verdict' id).error? = none := by
  obtain ⟨hplaced, hperm⟩ := placed_of_topologicalOrder? hp.before hp.ordered
  refine hplaced.induction (P := fun id => ∃ n m, h.node? id = some n ∧ h'.node? id = some m ∧
    m.outputs.map Port.value = n.outputs.map Port.value ∧ (verdict' id).error? = none)
    (fun id hid hfeeds => ?_) id (hperm.mem_iff.mpr hid)
  obtain ⟨n, hnode⟩ := node?_isSome_iff.mpr (hplaced.known id hid)
  obtain ⟨m, hnode', hnm⟩ := exists_of_map_bare hbare hnode
  obtain ⟨hn, rfl⟩ := mem_of_node? hnode
  obtain ⟨hm, hid'⟩ := mem_of_node? hnode'
  have hresult : (h'.fed m.restart).result = (h.fed n.restart).result := by
    refine result_fed_congr (show m.restart.bare = n.restart.bare from hnm)
      (hp'.connections.trans (hc.trans hp.connections.symm)) fun u ⟨c, hcu, hends⟩ => ?_
    obtain ⟨k, k', hk, hk', hvalues, -⟩ := hfeeds u ⟨c, hp.connections ▸ hcu, hends⟩
    exact ⟨k, k', hk, hk', hvalues⟩
  obtain ⟨outs, hres⟩ := (hv n hn).exists_result (hp.clean_iff.mp hclean n hn)
  rw [hres] at hresult
  have hvalues := hp.map_value_turned hn (hv n hn) hres
  have hvalues' := hp'.map_value_turned hm (hv' m hm) hresult
  exact ⟨_, _, hp.node_eq hn, hid' ▸ hp'.node_eq hm, hvalues'.trans hvalues.symm,
    hid' ▸ (hv' m hm).error?_eq_none hresult⟩

end Passed

/-! ## Caches -/

/-- A graph whose clock gave no number to two values, and whose nodes remember no others. -/
structure Cached (T : Stamps) (g : Graph κ) : Prop where
  wellFormed : g.WellFormed
  single : T.Single
  upTo : ∀ γ v, T γ v → γ ≤ g.revision
  traced : ∀ n ∈ g.nodes, n.Traced T

namespace Cached

variable {T : Stamps} {g h : Graph κ}

theorem empty (name : String) : (Graph.empty name : Graph κ).Cached ⊥ where
  wellFormed := .empty name
  single _ _ _ h := h.elim
  upTo _ _ h := h.elim
  traced _ hn := absurd hn List.not_mem_nil

theorem insert (hg : g.Cached T) {id : NodeId} (hid : ∀ i ∈ g.ids, i < id) {n : Node κ}
    (hn : n.Traced T) : (g.insert id n).Cached T where
  wellFormed := hg.wellFormed.insert hid n
  single := hg.single
  upTo := hg.upTo
  traced m hm := by
    rcases List.mem_append.mp hm with hm | hm
    · exact hg.traced m hm
    · obtain rfl := List.mem_singleton.mp hm
      exact (Node.stable_traced T).renumber n id hn

theorem connect (hg : g.Cached T) {id : ConnectionId} {source : OutputPlace} {target : InputPlace}
    {c : Connection} (hc : g.connect id source target = .ok (c, h)) : h.Cached T := by
  have hw := hg.wellFormed.connect hc
  obtain ⟨-, rfl, -⟩ := connect_eq_ok hc
  exact ⟨hw, hg.single, hg.upTo, hg.traced⟩

/-- An edit of a node drops what the node remembers. -/
theorem edit (hg : g.Cached T) {n m : Node κ} (hn : n ∈ g.nodes) {e : NodeEdit}
    (he : e.apply n = .ok m) : (g.setNode m).Cached T where
  wellFormed := hg.wellFormed.of_frames
    (frames_setNode hg.wellFormed.nodup hn (Node.frame_apply he)) rfl
  single := hg.single
  upTo := hg.upTo
  traced k hk := by
    rcases mem_setNode hk with rfl | hk
    · exact (Node.stable_traced T).apply e n k (hg.traced n hn) he
    · exact hg.traced k hk

theorem honest (hg : g.Cached T) {settings : Settings} {r : Report} {verdict : NodeId → Verdict}
    {base top : NodeId → Nat} (hp : Passed settings g h r verdict base top) :
    ∀ n ∈ g.nodes, (h.fed n.restart).Honest (verdict n.id) := fun _ hn =>
  hp.honest hg.single hg.upTo hg.traced hn

/-- A pass adds what it stamps. -/
theorem passed (hg : g.Cached T) {settings : Settings} {r : Report} {verdict : NodeId → Verdict}
    {base top : NodeId → Nat} (hp : Passed settings g h r verdict base top) :
    h.Cached (T ⊔ g.puts h r) where
  wellFormed := hp.after
  single := hg.single.sup hg.upTo hp.fresh
  upTo γ v hv := hv.elim (fun hv => (hg.upTo γ v hv).trans hp.ran.forward) (hp.fresh.upTo γ v)
  traced := hp.traced hg.traced

end Cached

end Graph

end TextureFlow
