import Mathlib
import TextureFlow.Proofs.Presets

/-!
# Building is exact

A script can be built exactly if it is well-formed: its keys are distinct, every part describes a
node, and every connection leads from an output of one part to an input of another that accepts its
kind. None of this depends on the order of parts or on other connections. The graph then has a node
for each part and, for each input that is mentioned, the last connection that leads to it.

* `Built.exists_foldlM_addNode_iff`, `Built.Holds.foldlM_addNode`: the nodes;
* `Built.Holds.exists_addConnection_iff`: a connection by itself;
* `Built.Links.foldlM_addConnection`: the connections in their order;
* `Script.build_exact`: the graph of a script.
-/

namespace TextureFlow

/-! ## Well-formed scripts -/

/-- Of the nodes of a script, new ones have an output and an input at the ends of a connection, and
the input accepts the kind of the output. -/
def ConnectionSpec.Joins (nodes : List NodeSpec) (c : ConnectionSpec) : Prop :=
  ∃ m ∈ nodes, ∃ n ∈ nodes, m.key = c.source ∧ n.key = c.target ∧
    ∃ d e k, Builtin.registry.draft? m.kind = some d ∧ Builtin.registry.draft? n.kind = some e ∧
      (d.node 0).Emits c.output k ∧ (e.node 0).Accepts c.input k

/-- What has to hold of a script that can be built. -/
structure Script.WellFormed (s : Script) : Prop where
  keys : (s.nodes.map NodeSpec.key).Nodup
  nodes : ∀ spec ∈ s.nodes, spec.Acceptable
  connections : ∀ c ∈ s.connections, c.Joins s.nodes

/-! ## Ports of nodes that were created -/

namespace NodeSpec.Restored

variable {spec : NodeSpec} {n : Node Builtin} {d : Draft Builtin}

/-- Outputs are those of a new node. -/
theorem emits_iff (h : spec.Restored n d) {output : Nat} {k : ValueKind} :
    n.Emits output k ↔ (d.node 0).Emits output k := by
  have houtputs : n.outputs = (d.node 0).outputs := by rw [h.node]
  rw [Node.Emits, Node.Emits, houtputs]

/-- Inputs accept what those of a new node accept, for they have the same faces. -/
theorem accepts_iff (h : spec.Restored n d) {input : Nat} {k : ValueKind} :
    n.Accepts input k ↔ (d.node 0).Accepts input k := by
  have hinputs : n.inputs = (d.node 0).inputs.mapIdx
      fun i p => (spec.fallbacks.find? i).elim p p.withFallback := by rw [h.node]
  have hface (i : Nat) (p : Port) :
      ((spec.fallbacks.find? i).elim p p.withFallback).face = p.face := by
    cases spec.fallbacks.find? i <;> rfl
  have hfaces : n.inputs.map Port.face = (d.node 0).inputs.map Port.face := by
    refine List.ext_getElem? fun i => ?_
    rw [hinputs, List.getElem?_map, List.getElem?_mapIdx, List.getElem?_map, Option.map_map]
    exact congrArg (fun f => Option.map f _) (funext (hface i))
  rw [Node.accepts_iff, Node.accepts_iff, hfaces]

end NodeSpec.Restored

/-! ## Nodes -/

namespace Built

/-- Nodes can be added exactly if their keys are new and distinct, and each part describes a
node. -/
theorem exists_foldlM_addNode_iff {nodes : List NodeSpec} {b : Built Builtin} :
    (∃ b₁, nodes.foldlM (Built.addNode Builtin.registry) b = .ok b₁) ↔
      (b.keys.keys ++ nodes.map NodeSpec.key).Nodup ∧ ∀ spec ∈ nodes, spec.Acceptable := by
  induction nodes generalizing b with
  | nil =>
    have hkeys : b.keys.keys.Nodup := b.keys.nodup
    simp [hkeys, pure, Except.pure]
  | cons spec nodes ih =>
    -- the keys are looked at from the point on at which the first one is in the table
    have hkeys (hnew : b.keys.contains spec.key = false) :
        (b.keys.put spec.key (b.issued + 2)).keys ++ nodes.map NodeSpec.key =
          b.keys.keys ++ (spec :: nodes).map NodeSpec.key := by
      rw [Table.keys_put_of_new hnew, List.append_assoc]
      rfl
    rw [List.forall_mem_cons]
    constructor
    · rintro ⟨b₁, h⟩
      rw [List.foldlM_cons] at h
      obtain ⟨t, ht, hrest⟩ := bind_eq_ok_iff.mp h
      obtain ⟨hnew, n, hn, rfl⟩ := addNode_eq_ok_iff.mp ht
      obtain ⟨hnodup, hall⟩ := ih.mp ⟨b₁, hrest⟩
      exact ⟨hkeys hnew ▸ hnodup, NodeSpec.exists_create_iff.mp ⟨n, hn⟩, hall⟩
    · rintro ⟨hnodup, hspec, hall⟩
      have hnew : b.keys.contains spec.key = false := by
        have hnot : spec.key ∉ b.keys.keys := fun hmem =>
          List.disjoint_of_nodup_append hnodup hmem List.mem_cons_self
        simpa [Table.contains] using hnot
      obtain ⟨n, hn⟩ := NodeSpec.exists_create_iff.mpr hspec
      have ht := addNode_eq_ok_iff.mpr ⟨hnew, n, hn, rfl⟩
      have hnodup' : ((b.keys.put spec.key (b.issued + 2)).keys ++
          nodes.map NodeSpec.key).Nodup := (hkeys hnew).symm ▸ hnodup
      obtain ⟨b₁, hrest⟩ := (ih (b := ⟨b.graph.insert (b.issued + 2) n,
        b.keys.put spec.key (b.issued + 2)⟩)).mpr ⟨hnodup', hall⟩
      refine ⟨b₁, ?_⟩
      rw [List.foldlM_cons]
      exact bind_eq_ok_iff.mpr ⟨_, ht, hrest⟩

/-- The nodes of a graph are those of parts of a script, in their order and each under its key. -/
structure Holds (parts : List NodeSpec) (b : Built Builtin) : Prop where
  sound : b.Sound
  nodes : List.Forall₂ (fun spec n => ∃ d, spec.Restored n d) parts b.graph.nodes
  keys : b.keys.entries = (parts.zip b.graph.nodes).map fun e => (e.1.key, e.2.id)

namespace Holds

variable {parts : List NodeSpec} {b b₁ : Built Builtin}

theorem empty (name : String) : Holds [] ⟨.empty name, .empty⟩ where
  sound := .empty name
  nodes := .nil
  keys := rfl

theorem addNode (h : Holds parts b) {spec : NodeSpec}
    (hadd : b.addNode Builtin.registry spec = .ok b₁) : Holds (parts ++ [spec]) b₁ := by
  have hsound := h.sound.addNode Builtin.blank_registry hadd
  obtain ⟨hnew, n, hn, rfl⟩ := addNode_eq_ok_iff.mp hadd
  have hrestored := NodeSpec.restored_create hn (b.issued + 2)
  refine ⟨hsound, List.rel_append h.nodes (.cons hrestored .nil), ?_⟩
  rw [Table.entries_put hnew, h.keys, Graph.insert, List.zip_append h.nodes.length_eq,
    List.map_append]
  rfl

/-- Every part that is added becomes the next node. -/
theorem foldlM_addNode {more : List NodeSpec} (h : Holds parts b)
    (hadd : more.foldlM (Built.addNode Builtin.registry) b = .ok b₁) :
    Holds (parts ++ more) b₁ :=
  foldlM_concat (I := Holds) (fun _ _ _ _ hs hstep => hs.addNode hstep) h hadd

theorem nodup_ids (h : Holds parts b) : b.graph.ids.Nodup := by
  obtain ⟨T, hT⟩ := h.sound.cached
  exact hT.wellFormed.nodup

/-- No two keys have one number. -/
theorem key_unique (h : Holds parts b) {key other : String} {id : NodeId}
    (hkey : b.keys.find? key = some id) (hother : b.keys.find? other = some id) : key = other := by
  have hids : b.keys.entries.map Prod.snd = b.graph.ids := by
    have hsnd : (parts.zip b.graph.nodes).map Prod.snd = b.graph.nodes :=
      List.map_snd_zip h.nodes.length_eq.ge
    rw [h.keys, List.map_map, Graph.ids]
    conv_rhs => rw [← hsnd, List.map_map]
    rfl
  have hnodup : (b.keys.entries.map Prod.snd).Nodup := hids ▸ h.nodup_ids
  exact congrArg Prod.fst (List.inj_on_of_nodup_map hnodup (Table.mem_of_find? hkey)
    (Table.mem_of_find? hother) rfl)

/-- The node of a key is the node of the part with this key. -/
theorem find?_iff (h : Holds parts b) {key : String} {n : Node Builtin} :
    (∃ id, b.keys.find? key = some id ∧ b.graph.node? id = some n) ↔
      ∃ spec, (spec, n) ∈ parts.zip b.graph.nodes ∧ spec.key = key := by
  constructor
  · rintro ⟨id, hid, hn⟩
    have hentry := Table.mem_of_find? hid
    rw [h.keys] at hentry
    obtain ⟨⟨spec, m⟩, hmem, he⟩ := List.mem_map.mp hentry
    obtain ⟨rfl, rfl⟩ := Prod.mk.inj he
    have hm := Graph.node?_of_mem h.nodup_ids (List.of_mem_zip hmem).2
    obtain rfl := Option.some.inj (hm.symm.trans hn)
    exact ⟨spec, hmem, rfl⟩
  · rintro ⟨spec, hmem, rfl⟩
    have hentry : (spec.key, n.id) ∈ b.keys.entries := by
      rw [h.keys]
      exact List.mem_map.mpr ⟨(spec, n), hmem, rfl⟩
    exact ⟨n.id, Table.find?_of_mem hentry,
      Graph.node?_of_mem h.nodup_ids (List.of_mem_zip hmem).2⟩

/-- Every part has a node. -/
theorem exists_node (h : Holds parts b) {spec : NodeSpec} (hspec : spec ∈ parts) :
    ∃ n, (spec, n) ∈ parts.zip b.graph.nodes := by
  have hfst : (parts.zip b.graph.nodes).map Prod.fst = parts :=
    List.map_fst_zip h.nodes.length_eq.le
  rw [← hfst] at hspec
  obtain ⟨⟨_, n⟩, hmem, rfl⟩ := List.mem_map.mp hspec
  exact ⟨n, hmem⟩

/-! ## One connection -/

/-- Whether a connection can be made depends on the nodes only. -/
theorem exists_addConnection_iff (h : Holds parts b) {c : ConnectionSpec × ConnectionId} :
    (∃ b₁, b.addConnection c = .ok b₁) ↔ c.1.Joins parts := by
  simp only [addConnection_eq_ok_iff]
  constructor
  · rintro ⟨_, source, target, d, g, hsource, htarget, hc, -⟩
    obtain ⟨m, n, k, hm, hn, hemits, haccepts⟩ := Graph.exists_connect_iff.mp ⟨d, g, hc⟩
    obtain ⟨spec, hspec, hkey⟩ := h.find?_iff.mp ⟨source, hsource, hm⟩
    obtain ⟨spec', hspec', hkey'⟩ := h.find?_iff.mp ⟨target, htarget, hn⟩
    obtain ⟨x, hx⟩ := List.forall₂_zip h.nodes hspec
    obtain ⟨y, hy⟩ := List.forall₂_zip h.nodes hspec'
    exact ⟨spec, (List.of_mem_zip hspec).1, spec', (List.of_mem_zip hspec').1, hkey, hkey',
      x, y, k, hx.fresh, hy.fresh, hx.emits_iff.mp hemits, hy.accepts_iff.mp haccepts⟩
  · rintro ⟨spec, hspec, spec', hspec', hkey, hkey', x, y, k, hx, hy, hemits, haccepts⟩
    obtain ⟨m, hm⟩ := h.exists_node hspec
    obtain ⟨n, hn⟩ := h.exists_node hspec'
    obtain ⟨x', hx'⟩ := List.forall₂_zip h.nodes hm
    obtain ⟨y', hy'⟩ := List.forall₂_zip h.nodes hn
    obtain rfl := Option.some.inj (hx.symm.trans hx'.fresh)
    obtain rfl := Option.some.inj (hy.symm.trans hy'.fresh)
    obtain ⟨source, hsource, hm⟩ := h.find?_iff.mpr ⟨spec, hm, hkey⟩
    obtain ⟨target, htarget, hn⟩ := h.find?_iff.mpr ⟨spec', hn, hkey'⟩
    have hconnect : ∃ d g, b.graph.connect c.2 ⟨source, c.1.output⟩ ⟨target, c.1.input⟩ =
        .ok (d, g) :=
      Graph.exists_connect_iff.mpr
        ⟨m, n, k, hm, hn, hx'.emits_iff.mpr hemits, hy'.accepts_iff.mpr haccepts⟩
    obtain ⟨d, g, hc⟩ := hconnect
    exact ⟨_, source, target, d, g, hsource, htarget, hc, rfl⟩

theorem addConnection (h : Holds parts b) {c : ConnectionSpec × ConnectionId}
    (hc : b.addConnection c = .ok b₁) : Holds parts b₁ := by
  have hsound := h.sound.addConnection hc
  obtain ⟨source, target, d, g, -, -, hconnect, rfl⟩ := addConnection_eq_ok_iff.mp hc
  obtain ⟨-, rfl, -⟩ := Graph.connect_eq_ok hconnect
  exact ⟨hsound, h.nodes, h.keys⟩

/-- Connections can be made exactly if each of them can be made by itself. -/
theorem exists_foldlM_addConnection_iff (h : Holds parts b)
    {cs : List (ConnectionSpec × ConnectionId)} :
    (∃ b₁, cs.foldlM Built.addConnection b = .ok b₁) ↔ ∀ c ∈ cs, c.1.Joins parts :=
  exists_foldlM_iff (f := Built.addConnection) (I := Holds parts) (P := fun c => c.1.Joins parts)
    (fun _ _ hs => hs.exists_addConnection_iff) (fun _ _ _ hs hc => hs.addConnection hc) h cs

end Holds

end Built

/-! ## Connections in their order -/

/-- Where connections are listed by what they feed, a new one feeds its own place from then on. It
stands where the one stood that fed the place before, or else at the end. -/
theorem Graph.map_some_placed {α : Type} {d : Connection} {cs : List Connection}
    {places : List α} {feed feed' : α → Option Connection} {own : α} [Decidable (own ∈ places)]
    (hcs : cs.map some = places.map feed)
    (htarget : ∀ place x, feed place = some x → (x.target = d.target ↔ place = own))
    (hown : feed' own = some d) (hother : ∀ place, place ≠ own → feed' place = feed place) :
    (placed d cs).map some = (if own ∈ places then places else places ++ [own]).map feed' := by
  have hfed : ∀ place ∈ places, ∃ x ∈ cs, feed place = some x := by
    intro place hplace
    have hmem : feed place ∈ cs.map some := hcs ▸ List.mem_map_of_mem hplace
    obtain ⟨x, hx, heq⟩ := List.mem_map.mp hmem
    exact ⟨x, hx, heq.symm⟩
  have hany : cs.any (fun x => x.target = d.target) = true ↔ own ∈ places := by
    simp only [List.any_eq_true, decide_eq_true_iff]
    constructor
    · rintro ⟨x, hx, heq⟩
      have hmem : some x ∈ places.map feed := hcs ▸ List.mem_map_of_mem hx
      obtain ⟨place, hplace, hfeed⟩ := List.mem_map.mp hmem
      exact (htarget place x hfeed).mp heq ▸ hplace
    · intro hmem
      obtain ⟨x, hx, hfeed⟩ := hfed own hmem
      exact ⟨x, hx, (htarget own x hfeed).mpr rfl⟩
  rw [placed]
  simp only [hany]
  split
  · let turn (x : Connection) : Connection := if x.target = d.target then d else x
    have hturn : ∀ place ∈ places, (feed place).map turn = feed' place := by
      intro place hplace
      obtain ⟨x, -, hfeed⟩ := hfed place hplace
      rw [hfeed, Option.map_some]
      by_cases heq : place = own
      · rw [heq, hown]
        exact congrArg some (if_pos ((htarget place x hfeed).mpr heq))
      · rw [hother place heq, hfeed]
        exact congrArg some (if_neg (mt (htarget place x hfeed).mp heq))
    calc (cs.map turn).map some
        = (cs.map some).map (Option.map turn) := by
          rw [List.map_map, List.map_map]
          rfl
      _ = places.map (Option.map turn ∘ feed) := by rw [hcs, List.map_map]
      _ = places.map feed' := List.map_congr_left hturn
  · next hnew =>
    have hold : places.map feed = places.map feed' :=
      List.map_congr_left fun place hplace => (hother place fun heq => hnew (heq ▸ hplace)).symm
    rw [List.map_append, List.map_append, List.map_singleton, List.map_singleton, hcs, hold, hown]

/-- The input that a connection of a script leads to. -/
def ConnectionSpec.place (c : ConnectionSpec) : String × Nat :=
  (c.target, c.input)

/-- The inputs that connections lead to, in the order in which they are first mentioned. -/
def fedPlaces (cs : List (ConnectionSpec × ConnectionId)) : List (String × Nat) :=
  (cs.map fun c => c.1.place).eraseDups

/-- The last connection that leads to an input. -/
def lastTo? (cs : List (ConnectionSpec × ConnectionId)) (place : String × Nat) :
    Option (ConnectionSpec × ConnectionId) :=
  (cs.filter fun c => c.1.place = place).getLast?

section

variable {cs : List (ConnectionSpec × ConnectionId)} {c : ConnectionSpec × ConnectionId}
  {place : String × Nat}

/-- An input is listed where it is first mentioned. -/
theorem fedPlaces_concat : fedPlaces (cs ++ [c]) =
    if c.1.place ∈ fedPlaces cs then fedPlaces cs else fedPlaces cs ++ [c.1.place] := by
  rw [fedPlaces, List.map_append, List.eraseDups_append, List.map_singleton]
  split
  · next h =>
    have hmem : c.1.place ∈ cs.map fun c => c.1.place := List.mem_eraseDups.mp h
    have hnone : [c.1.place].removeAll (cs.map fun c => c.1.place) = [] := by
      simpa [List.removeAll] using hmem
    rw [hnone]
    exact List.append_nil _
  · next h =>
    have hmem : c.1.place ∉ cs.map fun c => c.1.place := mt List.mem_eraseDups.mpr h
    have hone : [c.1.place].removeAll (cs.map fun c => c.1.place) = [c.1.place] := by
      simpa [List.removeAll] using hmem
    rw [hone]
    rfl

theorem lastTo?_concat_self : lastTo? (cs ++ [c]) c.1.place = some c := by
  simp [lastTo?]

theorem lastTo?_concat_of_ne (h : place ≠ c.1.place) :
    lastTo? (cs ++ [c]) place = lastTo? cs place := by
  simp [lastTo?, h.symm]

theorem place_of_lastTo? (h : lastTo? cs place = some c) : c.1.place = place := by
  simpa using (List.mem_filter.mp (List.mem_of_getLast? h)).2

end

namespace Built

/-- A connection of a script with the numbers of its nodes. -/
def wire? {κ : Type} (b : Built κ) (c : ConnectionSpec × ConnectionId) : Option Connection := do
  let source ← b.keys.find? c.1.source
  let target ← b.keys.find? c.1.target
  return ⟨c.2, ⟨source, c.1.output⟩, ⟨target, c.1.input⟩⟩

/-- The connection that feeds an input after some connections of a script. -/
def feed? {κ : Type} (b : Built κ) (cs : List (ConnectionSpec × ConnectionId))
    (place : String × Nat) : Option Connection :=
  (lastTo? cs place).bind b.wire?

/-- A graph has the last connection into every input that is mentioned. -/
def Links {κ : Type} (cs : List (ConnectionSpec × ConnectionId)) (b : Built κ) : Prop :=
  b.graph.connections.map some = (fedPlaces cs).map (b.feed? cs)

section

variable {parts : List NodeSpec} {b b₁ : Built Builtin}
  {cs : List (ConnectionSpec × ConnectionId)} {c : ConnectionSpec × ConnectionId}

theorem wire?_eq_some_iff {κ : Type} {b : Built κ} {d : Connection} : b.wire? c = some d ↔
    ∃ source target, b.keys.find? c.1.source = some source ∧
      b.keys.find? c.1.target = some target ∧
      d = ⟨c.2, ⟨source, c.1.output⟩, ⟨target, c.1.input⟩⟩ := by
  unfold wire?
  cases b.keys.find? c.1.source <;> cases b.keys.find? c.1.target <;> simp [eq_comm]

/-- What is fed by the connections of different inputs is different. -/
theorem Holds.target_eq_iff (h : Holds parts b) {place : String × Nat} {x d : Connection}
    (hx : b.feed? cs place = some x) (hd : b.wire? c = some d) :
    x.target = d.target ↔ place = c.1.place := by
  obtain ⟨last, hlast, hwire⟩ := Option.bind_eq_some_iff.mp hx
  obtain ⟨_, id, -, hid, rfl⟩ := wire?_eq_some_iff.mp hwire
  obtain ⟨_, id', -, hid', rfl⟩ := wire?_eq_some_iff.mp hd
  rw [← place_of_lastTo? hlast]
  constructor
  · intro heq
    obtain ⟨rfl, hinput⟩ := InputPlace.mk.inj heq
    exact Prod.ext (h.key_unique hid hid') hinput
  · intro heq
    obtain ⟨htarget, hinput⟩ := Prod.mk.inj heq
    rw [← htarget, hid] at hid'
    rw [Option.some.inj hid', hinput]

/-- A connection feeds its input from then on, and no other. -/
theorem Links.addConnection (hl : Links cs b) (h : Holds parts b)
    (hc : b.addConnection c = .ok b₁) : Links (cs ++ [c]) b₁ := by
  obtain ⟨source, target, d, g, hsource, htarget, hconnect, rfl⟩ := addConnection_eq_ok_iff.mp hc
  obtain ⟨hd, rfl, -⟩ := Graph.connect_eq_ok hconnect
  have hwire : b.wire? c = some d := wire?_eq_some_iff.mpr ⟨source, target, hsource, htarget, hd⟩
  have hself : b.feed? (cs ++ [c]) c.1.place = some d := by
    rw [feed?, lastTo?_concat_self, Option.bind_some, hwire]
  have hother : ∀ place, place ≠ c.1.place → b.feed? (cs ++ [c]) place = b.feed? cs place := by
    intro place hne
    rw [feed?, feed?, lastTo?_concat_of_ne hne]
  rw [Links, fedPlaces_concat]
  exact Graph.map_some_placed hl (fun _ _ hx => h.target_eq_iff hx hwire) hself hother

/-- Connections that are made one after the other. -/
theorem Links.foldlM_addConnection {more : List (ConnectionSpec × ConnectionId)}
    (hl : Links cs b) (h : Holds parts b) (hc : more.foldlM Built.addConnection b = .ok b₁) :
    Links (cs ++ more) b₁ ∧ Holds parts b₁ :=
  foldlM_concat (f := Built.addConnection) (I := fun done b => Links done b ∧ Holds parts b)
    (fun _ _ _ _ hs hstep => ⟨hs.1.addConnection hs.2 hstep, hs.2.addConnection hstep⟩)
    ⟨hl, h⟩ hc

end

end Built

/-! ## Scripts -/

namespace Script

variable {s : Script} {b : Built Builtin}

/-- The graph of a script: its nodes in their order, a number of its own for every key, and for each
input that is mentioned the last connection into it, in the order of first mention. -/
structure Restored (s : Script) (b : Built Builtin) : Prop where
  name : b.graph.name = s.name
  nodes : List.Forall₂ (fun spec n => ∃ d, spec.Restored n d) s.nodes b.graph.nodes
  ids : b.graph.ids.Nodup
  keys : b.keys.entries = (s.nodes.zip b.graph.nodes).map fun e => (e.1.key, e.2.id)
  connections : b.graph.connections.map some =
    (fedPlaces s.connections.zipIdx).map (b.feed? s.connections.zipIdx)

/-- The nodes come first, and then the connections between them. -/
theorem build_eq_ok_iff : s.build Builtin.registry = .ok b ↔
    ∃ t, s.nodes.foldlM (Built.addNode Builtin.registry) ⟨.empty s.name, .empty⟩ = .ok t ∧
      t.Holds s.nodes ∧ s.connections.zipIdx.foldlM Built.addConnection t = .ok b := by
  rw [build, bind_eq_ok_iff]
  exact exists_congr fun t => and_congr_right fun ht =>
    (and_iff_right ((Built.Holds.empty s.name).foldlM_addNode ht)).symm

/-- A script can be built exactly if it is well-formed. -/
theorem exists_build_iff : (∃ b, s.build Builtin.registry = .ok b) ↔ s.WellFormed := by
  have hnodes : (∃ t, s.nodes.foldlM (Built.addNode Builtin.registry) ⟨.empty s.name, .empty⟩ =
      .ok t) ↔ (s.nodes.map NodeSpec.key).Nodup ∧ ∀ spec ∈ s.nodes, spec.Acceptable :=
    Built.exists_foldlM_addNode_iff
  have hconnections {t : Built Builtin} (ht : t.Holds s.nodes) :
      (∃ b, s.connections.zipIdx.foldlM Built.addConnection t = .ok b) ↔
        ∀ c ∈ s.connections, c.Joins s.nodes := by
    rw [ht.exists_foldlM_addConnection_iff]
    conv_rhs => rw [← List.zipIdx_map_fst 0 s.connections, List.forall_mem_map]
  simp only [build_eq_ok_iff]
  constructor
  · rintro ⟨b, t, ht, hholds, hb⟩
    obtain ⟨hkeys, hparts⟩ := hnodes.mp ⟨t, ht⟩
    exact ⟨hkeys, hparts, (hconnections hholds).mp ⟨b, hb⟩⟩
  · rintro ⟨hkeys, hparts, hjoins⟩
    obtain ⟨t, ht⟩ := hnodes.mpr ⟨hkeys, hparts⟩
    have hholds := (Built.Holds.empty s.name).foldlM_addNode ht
    obtain ⟨b, hb⟩ := (hconnections hholds).mpr hjoins
    exact ⟨b, t, ht, hholds, hb⟩

/-- Connections are made one by one, so each may be tried without the others. -/
theorem wellFormed_iff_separately : s.WellFormed ↔
    { s with connections := [] }.WellFormed ∧
      ∀ c ∈ s.connections, { s with connections := [c] }.WellFormed := by
  constructor
  · intro h
    exact ⟨⟨h.keys, h.nodes, List.forall_mem_nil _⟩,
      fun c hc => ⟨h.keys, h.nodes, List.forall_mem_singleton.mpr (h.connections c hc)⟩⟩
  · rintro ⟨h, hsingle⟩
    exact ⟨h.keys, h.nodes, fun c hc => (hsingle c hc).connections c List.mem_cons_self⟩

/-- What is built from a script is what the script says. -/
theorem restored_build (h : s.build Builtin.registry = .ok b) : s.Restored b := by
  obtain ⟨t, ht, hholds, hb⟩ := build_eq_ok_iff.mp h
  -- nodes are added to a graph without connections, and no step renames it
  obtain ⟨hname, hnone⟩ : t.graph.name = s.name ∧ t.graph.connections = [] := by
    refine foldlM_keep (I := fun b : Built Builtin => b.graph.name = s.name ∧
      b.graph.connections = []) (fun b b₁ _ _ hs h => ?_) ⟨rfl, rfl⟩ ht
    obtain ⟨-, n, -, rfl⟩ := Built.addNode_eq_ok_iff.mp h
    exact hs
  have hname' : b.graph.name = s.name := by
    refine foldlM_keep (I := fun b : Built Builtin => b.graph.name = s.name)
      (fun b b₁ _ _ hs h => ?_) hname hb
    obtain ⟨_, _, _, _, -, -, hconnect, rfl⟩ := Built.addConnection_eq_ok_iff.mp h
    obtain ⟨-, rfl, -⟩ := Graph.connect_eq_ok hconnect
    exact hs
  have hempty : Built.Links [] t := by
    rw [Built.Links, hnone]
    rfl
  obtain ⟨hlinks, hholds'⟩ := hempty.foldlM_addConnection hholds hb
  exact ⟨hname', hholds'.nodes, hholds'.nodup_ids, hholds'.keys, hlinks⟩

/-- A script can be built exactly if its keys are distinct, every part describes a node and every
connection may be made between new nodes; whether it may does not depend on the other connections.
The graph is what the script says: a node for each part, in their order and with what is asked for,
a number of its own for every key, and for each input that is mentioned the last connection into
it, in the order of first mention. -/
theorem build_exact (s : Script) :
    ((∃ b, s.build Builtin.registry = .ok b) ↔ s.WellFormed) ∧
    ((∃ b, s.build Builtin.registry = .ok b) ↔
      (∃ b, { s with connections := [] }.build Builtin.registry = .ok b) ∧
      ∀ c ∈ s.connections, ∃ b, { s with connections := [c] }.build Builtin.registry = .ok b) ∧
    ∀ b, s.build Builtin.registry = .ok b → s.Restored b := by
  refine ⟨exists_build_iff, ?_, fun _ => restored_build⟩
  simp only [exists_build_iff]
  exact wellFormed_iff_separately

/-- Two numbers are added. The first one is connected with both inputs of the sum, and then the
second one takes its place at one of them. -/
def rewired : Script where
  version := currentVersion
  name := "rewired"
  nodes := [
    ⟨"low", "scalar", none, .ofList [("value", .scalar 1)], .empty⟩,
    ⟨"high", "scalar", some .eager, .ofList [("value", .scalar 2)], .empty⟩,
    ⟨"sum", "math", none, .empty, .ofList [(1, .scalar 3)]⟩]
  connections := [⟨"low", 0, "sum", 0⟩, ⟨"low", 0, "sum", 1⟩, ⟨"high", 0, "sum", 0⟩]
  edits := []
  passes := 1
  exports := ["sum"]

/-- The sum adds the second number to the first one. No number takes a sum as its input. -/
theorem build_exact_rewired :
    (∃ b, rewired.build Builtin.registry = .ok b ∧ rewired.Restored b ∧
      b.graph.connections = [⟨2, ⟨4, 0⟩, ⟨6, 0⟩⟩, ⟨1, ⟨2, 0⟩, ⟨6, 1⟩⟩]) ∧
    ¬ { rewired with connections := [⟨"sum", 0, "low", 0⟩] }.WellFormed := by
  obtain ⟨-, -, hrestored⟩ := build_exact rewired
  constructor
  · have hconnections : (rewired.build Builtin.registry).toOption.map
        (fun b => b.graph.connections) = some [⟨2, ⟨4, 0⟩, ⟨6, 0⟩⟩, ⟨1, ⟨2, 0⟩, ⟨6, 1⟩⟩] := by
      decide +kernel
    cases hb : rewired.build Builtin.registry with
    | error e => rw [hb] at hconnections; cases hconnections
    | ok b =>
      rw [hb] at hconnections
      exact ⟨b, rfl, hrestored b hb, Option.some.inj hconnections⟩
  · rw [← (build_exact { rewired with connections := [⟨"sum", 0, "low", 0⟩] }).1]
    rintro ⟨b, hb⟩
    have hno : ({ rewired with connections := [⟨"sum", 0, "low", 0⟩] }.build
        Builtin.registry).isOk = false := by
      decide +kernel
    rw [hb] at hno
    cases hno

end Script

end TextureFlow
