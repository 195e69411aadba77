import Mathlib
import TextureFlow.Proofs.CleanPass
import TextureFlow.Proofs.Parameters
import TextureFlow.Script.Run

/-!
# Edits of a graph that was built

A script that is built gives every key a number of its own, in the order of its nodes. An edit of
the built graph changes one parameter of one node. It may be moved in front of every connection, and
in front of every node but the one that it edits, and there it becomes a parameter of the script.

* `Built.edit_eq_ok_iff`, `Built.addNode_eq_ok_iff`, `Built.addConnection_eq_ok_iff`: what the steps
  do when they succeed;
* `Script.build_absorb`: a graph that is built and edited is the graph of another script;
* `Script.sound_build`: a graph that was built has not been evaluated, and remembers nothing.
-/

namespace TextureFlow

/-! ## Tables -/

section

variable {κ α : Type} [DecidableEq κ]

theorem putEntry_of_not_mem {key : κ} {es : List (κ × α)} (h : key ∉ es.map Prod.fst) (x : α) :
    putEntry key x es = es ++ [(key, x)] := by
  induction es with
  | nil => rfl
  | cons e es ih =>
    obtain ⟨hne, hes⟩ := not_or.mp (mt List.mem_cons.mpr h)
    rw [putEntry, if_neg (Ne.symm hne), ih hes]
    rfl

namespace Table

variable {t : Table κ α} {key : κ}

theorem entries_put (h : t.contains key = false) (x : α) :
    (t.put key x).entries = t.entries ++ [(key, x)] :=
  putEntry_of_not_mem (by simpa [contains, keys] using h) x

theorem keys_put_of_new (h : t.contains key = false) (x : α) :
    (t.put key x).keys = t.keys ++ [key] := by
  rw [keys, entries_put h, List.map_append]
  rfl

theorem size_put (h : t.contains key = false) (x : α) : (t.put key x).size = t.size + 1 := by
  rw [size, entries_put h, List.length_append, size]
  rfl

theorem find?_put_self (h : t.contains key = false) (x : α) : (t.put key x).find? key = some x := by
  have hnone : t.entries.find? (fun e => e.1 = key) = none := by
    refine List.find?_eq_none.mpr fun e he => ?_
    have hkey : ∀ y, (key, y) ∉ t.entries := by simpa [contains, keys] using h
    simpa using fun hek : e.1 = key => hkey e.2 (hek ▸ he)
  rw [find?, entries_put h, List.find?_append, hnone]
  simp

theorem find?_put_of_ne (h : t.contains key = false) (x : α) {other : κ} (hne : other ≠ key) :
    (t.put key x).find? other = t.find? other := by
  rw [find?, entries_put h, List.find?_append, find?]
  simp [hne.symm]

theorem mem_of_find? {x : α} (h : t.find? key = some x) : (key, x) ∈ t.entries := by
  obtain ⟨e, he, rfl⟩ := Option.map_eq_some_iff.mp h
  have hkey : e.1 = key := by simpa using List.find?_some he
  exact hkey ▸ List.mem_of_find?_eq_some he

/-- Every entry is found under its key. -/
theorem find?_of_mem {x : α} (h : (key, x) ∈ t.entries) : t.find? key = some x :=
  congrArg (Option.map Prod.snd) (find?_key_of_mem t.nodup h)

end Table

end

/-! ## Graphs -/

variable {κ : Type}

namespace Graph

theorem node?_insert_self {g : Graph κ} {id : NodeId} (h : id ∉ g.ids) (n : Node κ) :
    (g.insert id n).node? id = some { n with id } := by
  have hnone : g.nodes.find? (fun m => m.id = id) = none := node?_eq_none h
  rw [node?, insert, List.find?_append, hnone]
  simp

theorem setNode_insert_of_ne {g : Graph κ} {id : NodeId} {m : Node κ} (h : id ≠ m.id)
    (n : Node κ) : (g.insert id n).setNode m = (g.setNode m).insert id n := by
  simp [setNode, insert, h]

theorem setNode_insert_self {g : Graph κ} {id : NodeId} (h : id ∉ g.ids) (n m : Node κ) :
    (g.insert id n).setNode { m with id } = g.insert id m := by
  have hold : g.nodes.map (fun k => if k.id = id then { m with id } else k) = g.nodes := by
    refine (List.map_congr_left fun k hk => if_neg ?_).trans g.nodes.map_id
    rintro rfl
    exact h (List.mem_map_of_mem hk)
  simp [setNode, insert, hold]

/-- The ends of connections depend on the ports of nodes only. -/
theorem ends_setNode {g : Graph κ} {n m : Node κ} (hn : g.node? m.id = some n)
    (hinputs : m.inputs = n.inputs) (houtputs : m.outputs = n.outputs) (source : OutputPlace)
    (target : InputPlace) : (g.setNode m).ends source target = g.ends source target := by
  have hid : m.id = n.id := (mem_of_node? hn).2.symm
  have hnode : ∀ id, (g.setNode m).node? id = g.node? id ∨
      (g.setNode m).node? id = some m ∧ g.node? id = some n := by
    intro id
    by_cases h : id = m.id
    · subst h
      exact .inr ⟨node?_setNode_self (node?_isSome_iff.mp ⟨n, hn⟩), hn⟩
    · exact .inl (node?_setNode_of_ne g h)
  have hkind : outputKind m source.output = outputKind n source.output := by
    rw [outputKind, outputKind, houtputs, hid]
  have hport : inputPort m target.input = inputPort n target.input := by
    rw [inputPort, inputPort, hinputs, hid]
  unfold ends endpoint
  rcases hnode source.node with hs | ⟨hs, hs'⟩ <;> rcases hnode target.node with ht | ⟨ht, ht'⟩
  · rw [hs, ht]
  · rw [hs, ht, ht']
    simp only [bind, Except.bind, hport]
  · rw [hs, hs', ht]
    simp only [bind, Except.bind, hkind]
  · rw [hs, hs', ht, ht']
    simp only [bind, Except.bind, hkind, hport]

/-- Nodes with the same ports are connected alike. -/
theorem connect_setNode {g h : Graph κ} {n m : Node κ} (hn : g.node? m.id = some n)
    (hinputs : m.inputs = n.inputs) (houtputs : m.outputs = n.outputs) {id : ConnectionId}
    {source : OutputPlace} {target : InputPlace} {c : Connection}
    (hc : g.connect id source target = .ok (c, h)) :
    (g.setNode m).connect id source target = .ok (c, h.setNode m) := by
  obtain ⟨rfl, rfl, k, q, hends, ha⟩ := connect_eq_ok hc
  unfold connect
  rw [ends_setNode hn hinputs houtputs, hends]
  simp only [Except.mapError, bind, Except.bind, ha]
  rfl

end Graph

/-! ## Steps that succeed -/

namespace Built

theorem id_eq_ok_iff {b : Built κ} {key : String} {id : NodeId} :
    b.id key = .ok id ↔ b.keys.find? key = some id := by
  unfold Built.id
  cases b.keys.find? key <;> simp

theorem addConnection_eq_ok_iff {b b' : Built κ} {spec : ConnectionSpec × ConnectionId} :
    b.addConnection spec = .ok b' ↔ ∃ source target c graph,
      b.keys.find? spec.1.source = some source ∧ b.keys.find? spec.1.target = some target ∧
      b.graph.connect spec.2 ⟨source, spec.1.output⟩ ⟨target, spec.1.input⟩ = .ok (c, graph) ∧
      b' = { b with graph } := by
  unfold addConnection
  simp only [bind_eq_ok_iff, pure_eq_ok_iff, id_eq_ok_iff, mapError_eq_ok_iff, Prod.exists,
    exists_and_left]

variable [Kernel κ] {b b' : Built κ}

theorem edit_eq_ok_iff {e : EditSpec} :
    b.edit e = .ok b' ↔ ∃ id n m, b.keys.find? e.node = some id ∧ b.graph.node? id = some n ∧
      n.setParameter e.parameter e.value = .ok m ∧ b' = { b with graph := b.graph.setNode m } := by
  unfold edit
  rw [bind_eq_ok_iff]
  simp only [id_eq_ok_iff, exists_and_left]
  refine exists_congr fun id => and_congr_right fun _ => ?_
  cases b.graph.node? id with
  | none => exact ⟨fun h => (by cases h), fun ⟨_, h, _⟩ => (by cases h)⟩
  | some n =>
    simp only [bind_eq_ok_iff, pure_eq_ok_iff, mapError_eq_ok_iff, Option.some.injEq,
      exists_eq_left']

theorem addNode_eq_ok_iff {registry : Registry κ} {spec : NodeSpec} :
    b.addNode registry spec = .ok b' ↔ b.keys.contains spec.key = false ∧
      ∃ n, spec.create registry (b.issued + 1) = .ok n ∧
        b' = ⟨b.graph.insert (b.issued + 2) n, b.keys.put spec.key (b.issued + 2)⟩ := by
  unfold addNode
  cases b.keys.contains spec.key with
  | true => simp
  | false =>
    simp only [Bool.false_eq_true, if_false, bind_eq_ok_iff, pure_eq_ok_iff, true_and]

end Built

/-! ## What was built -/

/-- A registry of kinds whose outputs start without a value. -/
def Registry.Blank [Kernel κ] (registry : Registry κ) : Prop :=
  ∀ kind d, registry.draft? kind = some d → d.Blank

theorem Builtin.blank_registry : registry.Blank := fun _ d _ => blank (.add d) d rfl

/-- A graph with keys, in which no number was given that is beyond the count. -/
structure Built.Sound [Kernel κ] (b : Built κ) : Prop where
  cached : ∃ T, b.graph.Cached T
  ids : ∀ id ∈ b.graph.ids, id ≤ b.issued
  keys : ∀ e ∈ b.keys.entries, e.2 ≤ b.issued

variable [Kernel κ]

theorem NodeSpec.traced_create {registry : Registry κ} (hr : registry.Blank) {T : Stamps}
    {spec : NodeSpec} {id : NodeId} {n : Node κ} (h : spec.create registry id = .ok n) :
    n.Traced T := by
  obtain ⟨d, hd, hedits⟩ := create_eq_ok_iff.mp h
  exact foldlM_keep (I := Node.Traced T) (fun n m e _ => (Node.stable_traced T).apply e n m)
    (Node.traced_draft (d := spec.draft d) (hr _ d hd) id) hedits

namespace Built

variable {registry : Registry κ} {b b₁ b₂ : Built κ} {spec : NodeSpec} {e : EditSpec}

namespace Sound

theorem empty (name : String) : (⟨.empty name, .empty⟩ : Built κ).Sound where
  cached := ⟨⊥, .empty name⟩
  ids _ h := absurd h List.not_mem_nil
  keys _ h := absurd h List.not_mem_nil

theorem addNode (hr : registry.Blank) (hb : b.Sound) (h : b.addNode registry spec = .ok b₁) :
    b₁.Sound := by
  obtain ⟨hnew, n, hn, rfl⟩ := addNode_eq_ok_iff.mp h
  obtain ⟨T, hT⟩ := hb.cached
  have hissued : 2 * (b.keys.put spec.key (b.issued + 2)).size = b.issued + 2 := by
    rw [Table.size_put hnew, issued]
    omega
  constructor
  case cached =>
    have hlt : ∀ i ∈ b.graph.ids, i < b.issued + 2 := fun i hi =>
      Nat.lt_of_le_of_lt (hb.ids i hi) (by omega)
    exact ⟨T, hT.insert hlt (NodeSpec.traced_create hr hn)⟩
  case ids =>
    intro i hi
    simp only [Graph.ids, Graph.insert, List.map_append, List.mem_append] at hi
    rw [issued, hissued]
    rcases hi with hi | hi
    · exact (hb.ids i hi).trans (Nat.le_add_right _ 2)
    · exact (List.mem_singleton.mp hi).le
  case keys =>
    intro x hx
    rw [Table.entries_put hnew] at hx
    rw [issued, hissued]
    rcases List.mem_append.mp hx with hx | hx
    · exact (hb.keys x hx).trans (Nat.le_add_right _ 2)
    · rw [List.mem_singleton.mp hx]

theorem addConnection (hb : b.Sound) {spec : ConnectionSpec × ConnectionId}
    (h : b.addConnection spec = .ok b₁) : b₁.Sound := by
  obtain ⟨source, target, c, g, -, -, hc, rfl⟩ := addConnection_eq_ok_iff.mp h
  obtain ⟨T, hT⟩ := hb.cached
  have hids : g.ids = b.graph.ids := by rw [(Graph.connect_eq_ok hc).2.1]; rfl
  exact ⟨⟨T, hT.connect hc⟩, hids ▸ hb.ids, hb.keys⟩

theorem edit (hb : b.Sound) (h : b.edit e = .ok b₁) : b₁.Sound := by
  obtain ⟨id, n, m, -, hn, hm, rfl⟩ := edit_eq_ok_iff.mp h
  obtain ⟨T, hT⟩ := hb.cached
  refine ⟨⟨T, hT.edit (e := .parameter e.parameter e.value) (Graph.mem_of_node? hn).1 hm⟩, ?_,
    hb.keys⟩
  rw [Graph.ids_setNode]
  exact hb.ids

theorem edits (hb : b.Sound) {es : List EditSpec} (h : es.foldlM Built.edit b = .ok b₁) :
    b₁.Sound :=
  foldlM_keep (I := Sound) (fun _ _ _ _ hs => hs.edit) hb h

end Sound

/-! ## An edit in front of a step -/

/-- A connection may be made after the edit. -/
theorem edit_addConnection {spec : ConnectionSpec × ConnectionId}
    (h : b.addConnection spec = .ok b₁) (h' : b₁.edit e = .ok b₂) :
    ∃ b', b.edit e = .ok b' ∧ b'.addConnection spec = .ok b₂ := by
  obtain ⟨source, target, c, g, hs, ht, hc, rfl⟩ := addConnection_eq_ok_iff.mp h
  obtain ⟨id, n, m, hid, hn, hm, rfl⟩ := edit_eq_ok_iff.mp h'
  have hnode : b.graph.node? id = some n := by
    rw [(Graph.connect_eq_ok hc).2.1] at hn
    exact hn
  refine ⟨_, edit_eq_ok_iff.mpr ⟨id, n, m, hid, hnode, hm, rfl⟩,
    addConnection_eq_ok_iff.mpr ⟨source, target, c, g.setNode m, hs, ht, ?_, rfl⟩⟩
  obtain ⟨hmn, hinputs, houtputs⟩ := Node.ports_setParameter hm
  obtain rfl := (Graph.mem_of_node? hnode).2
  exact Graph.connect_setNode (hmn ▸ hnode) hinputs houtputs hc

/-- Another node may be added after the edit. -/
theorem edit_addNode_of_ne (hb : b.Sound) (hne : e.node ≠ spec.key)
    (h : b.addNode registry spec = .ok b₁) (h' : b₁.edit e = .ok b₂) :
    ∃ b', b.edit e = .ok b' ∧ b'.addNode registry spec = .ok b₂ := by
  obtain ⟨hnew, n, hcreate, rfl⟩ := addNode_eq_ok_iff.mp h
  obtain ⟨id, k, m, hid, hk, hm, rfl⟩ := edit_eq_ok_iff.mp h'
  rw [Table.find?_put_of_ne hnew _ hne] at hid
  -- the new node has a new number
  have hlt : id < b.issued + 2 :=
    Nat.lt_of_le_of_lt (hb.keys _ (Table.mem_of_find? hid)) (by omega)
  rw [Graph.node?_insert hlt.ne] at hk
  refine ⟨_, edit_eq_ok_iff.mpr ⟨id, k, m, hid, hk, hm, rfl⟩,
    addNode_eq_ok_iff.mpr ⟨hnew, n, hcreate, ?_⟩⟩
  have hmid : m.id = id := (Node.ports_setParameter hm).1.trans (Graph.mem_of_node? hk).2
  exact congrArg (Built.mk · _) (Graph.setNode_insert_of_ne (hmid ▸ hlt.ne') n)

/-- What is edited right after it was added may be added as it is after the edit. -/
theorem edit_addNode_self [IndependentParameters κ] (hb : b.Sound) (hkey : spec.key = e.node)
    (h : b.addNode registry spec = .ok b₁) (h' : b₁.edit e = .ok b₂) :
    b.addNode registry (spec.put e.parameter e.value) = .ok b₂ := by
  obtain ⟨hnew, n, hcreate, rfl⟩ := addNode_eq_ok_iff.mp h
  obtain ⟨id, k, m, hid, hk, hm, rfl⟩ := edit_eq_ok_iff.mp h'
  have hfresh : b.issued + 2 ∉ b.graph.ids := fun hmem =>
    absurd (hb.ids _ hmem) (Nat.not_le.mpr (Nat.lt_add_of_pos_right Nat.two_pos))
  rw [← hkey, Table.find?_put_self hnew] at hid
  obtain rfl := Option.some.inj hid
  rw [Graph.node?_insert_self hfresh] at hk
  obtain rfl := Option.some.inj hk
  obtain ⟨kernel, hset, rfl⟩ := Node.setParameter_eq_ok_iff.mp hm
  have hn : n.setParameter e.parameter e.value = .ok { n with kernel, memo := none } :=
    Node.setParameter_eq_ok_iff.mpr ⟨kernel, hset, rfl⟩
  refine addNode_eq_ok_iff.mpr ⟨hnew, _, NodeSpec.create_put hcreate hn, ?_⟩
  congr 1
  exact Graph.setNode_insert_self hfresh n { n with kernel, memo := none }

end Built

/-! ## An edit as a part of the script -/

/-- The node that starts with what an edit leaves. -/
def NodeSpec.absorb (e : EditSpec) (spec : NodeSpec) : NodeSpec :=
  if spec.key = e.node then spec.put e.parameter e.value else spec

theorem NodeSpec.map_absorb_of_not_mem {e : EditSpec} {nodes : List NodeSpec}
    (h : e.node ∉ nodes.map NodeSpec.key) : nodes.map (absorb e) = nodes := by
  refine (List.map_congr_left fun spec hspec => if_neg ?_).trans nodes.map_id
  intro hkey
  exact h (hkey ▸ List.mem_map_of_mem hspec)

namespace Script

/-- The script that starts with what an edit leaves. -/
def absorb (s : Script) (e : EditSpec) : Script :=
  { s with nodes := s.nodes.map (NodeSpec.absorb e) }

variable {registry : Registry κ} {s : Script} {e : EditSpec}

/-- Nodes are added under the keys that they have. -/
theorem keys_foldlM_addNode {nodes : List NodeSpec} {b b₁ : Built κ}
    (h : nodes.foldlM (Built.addNode registry) b = .ok b₁) :
    b₁.keys.keys = b.keys.keys ++ nodes.map NodeSpec.key := by
  have hnone : b.keys.keys = b.keys.keys ++ [].map NodeSpec.key := (List.append_nil _).symm
  refine foldlM_concat (I := fun done (b' : Built κ) =>
    b'.keys.keys = b.keys.keys ++ done.map NodeSpec.key) (fun done s s₁ spec hs hstep => ?_) hnone h
  obtain ⟨hnew, n, -, rfl⟩ := Built.addNode_eq_ok_iff.mp hstep
  rw [Table.keys_put_of_new hnew, hs, List.map_append, List.append_assoc]
  rfl

theorem foldlM_addNode_absorb [IndependentParameters κ] (hr : registry.Blank)
    {nodes : List NodeSpec} {b b₁ b₂ : Built κ} (hb : b.Sound)
    (hnone : b.keys.find? e.node = none) (h : nodes.foldlM (Built.addNode registry) b = .ok b₁)
    (h' : b₁.edit e = .ok b₂) :
    (nodes.map (NodeSpec.absorb e)).foldlM (Built.addNode registry) b = .ok b₂ := by
  -- from the last node on, for the edit comes after all of them
  induction nodes using List.reverseRecOn generalizing b₁ b₂ with
  | nil =>
    obtain rfl := Except.ok.inj h
    obtain ⟨id, n, m, hid, -⟩ := Built.edit_eq_ok_iff.mp h'
    rw [hnone] at hid
    cases hid
  | append_singleton nodes spec ih =>
    rw [List.foldlM_append] at h
    obtain ⟨t, ht, hspec⟩ := bind_eq_ok_iff.mp h
    simp only [List.foldlM_cons, List.foldlM_nil, bind_pure] at hspec
    have hsound : t.Sound := foldlM_keep (I := Built.Sound) (fun _ _ _ _ hs => hs.addNode hr) hb ht
    rw [List.map_append, List.foldlM_append, List.map_cons, List.map_nil]
    refine bind_eq_ok_iff.mpr ?_
    simp only [List.foldlM_cons, List.foldlM_nil, bind_pure]
    by_cases hkey : spec.key = e.node
    · -- no node before this one has its key
      have hnew : e.node ∉ nodes.map NodeSpec.key := by
        intro hmem
        have hused : spec.key ∈ t.keys.keys := by
          rw [keys_foldlM_addNode ht, hkey]
          exact List.mem_append_right _ hmem
        have hunused := (Built.addNode_eq_ok_iff.mp hspec).1
        simp [Table.contains, hused] at hunused
      rw [NodeSpec.map_absorb_of_not_mem hnew, NodeSpec.absorb, if_pos hkey]
      exact ⟨t, ht, Built.edit_addNode_self hsound hkey hspec h'⟩
    · rw [NodeSpec.absorb, if_neg hkey]
      obtain ⟨t', hedit, hadd⟩ := Built.edit_addNode_of_ne hsound (Ne.symm hkey) hspec h'
      exact ⟨t', ih ht hedit, hadd⟩

/-- Editing what was built is building from an edited script. -/
theorem build_absorb [IndependentParameters κ] (hr : registry.Blank) {b b' : Built κ}
    (h : s.build registry = .ok b) (h' : b.edit e = .ok b') :
    (s.absorb e).build registry = .ok b' := by
  obtain ⟨t, hnodes, hconnections⟩ := bind_eq_ok_iff.mp h
  obtain ⟨t', hedit, hconnections'⟩ := foldlM_swap (f := Built.addConnection)
    (fun b : Built κ => b.edit e) (I := fun _ => True) (fun _ _ _ _ _ _ => trivial)
    (fun _ _ _ _ _ _ => Built.edit_addConnection) trivial hconnections h'
  exact bind_eq_ok_iff.mpr
    ⟨t', foldlM_addNode_absorb hr (.empty s.name) rfl hnodes hedit, hconnections'⟩

theorem sound_build (hr : registry.Blank) {b : Built κ} (h : s.build registry = .ok b) :
    b.Sound := by
  obtain ⟨t, hnodes, hconnections⟩ := bind_eq_ok_iff.mp h
  have hsound : t.Sound :=
    foldlM_keep (I := Built.Sound) (fun _ _ _ _ hs => hs.addNode hr) (.empty s.name) hnodes
  exact foldlM_keep (I := Built.Sound) (fun _ _ _ _ hs => hs.addConnection) hsound hconnections

end Script

end TextureFlow
