import Mathlib
import TextureFlow.Proofs.Building

/-!
# Runs without a history

A run of several passes leaves its graph with all that was computed on the way: values of earlier
passes, zeros of nodes that failed, memos. A *twin* of the graph got the same edits and no pass. It
has the same keys, connections and bare nodes, and it is what a script with all edits folded into
its nodes builds. So a clean last pass shows what the only pass over the twin shows.

* `Built.Twins.edit`, `Built.Twins.evaluate`: edits and passes keep twins;
* `Built.Twins.clean`: a pass over a twin shows what a clean pass shows;
* `Script.run_eq_ok_iff`: the parts of a run that succeeds;
* `Script.exists_run_folded`: a run that ends with a clean pass exports what a run of the folded
  script does, for every family of kernels with independent parameters;
* `Script.run_folded`: the same for the catalogue.
-/

namespace TextureFlow

variable {κ : Type}

/-! ## Bare nodes -/

namespace Graph

theorem map_bare_setNode (g : Graph κ) (n : Node κ) :
    (g.setNode n).nodes.map Node.bare =
      (g.nodes.map Node.bare).map fun m => if m.id = n.bare.id then n.bare else m := by
  simp only [setNode, List.map_map]
  refine List.map_congr_left fun m _ => ?_
  have hid : ∀ n : Node κ, n.bare.id = n.id := fun _ => rfl
  by_cases h : m.id = n.id <;> simp [hid, h]

end Graph

/-- A parameter is set on nodes of the same bare form alike. -/
theorem Node.exists_setParameter [Kernel κ] {n m k : Node κ} (h : m.bare = n.bare) {name : String}
    {v : ParamValue} (hk : n.setParameter name v = .ok k) :
    ∃ k', m.setParameter name v = .ok k' ∧ k'.bare = k.bare := by
  obtain ⟨kernel, hset, rfl⟩ := setParameter_eq_ok_iff.mp hk
  have hkernel : m.kernel = n.kernel := (congrArg Node.kernel h :)
  exact ⟨_, setParameter_eq_ok_iff.mpr ⟨kernel, hkernel ▸ hset, rfl⟩,
    congrArg (fun n : Node κ => { n with kernel }) h⟩

/-! ## Twins -/

namespace Built

/-- Graphs that differ in what passes leave only. -/
structure Twins (b b' : Built κ) : Prop where
  keys : b'.keys = b.keys
  bare : b'.graph.nodes.map Node.bare = b.graph.nodes.map Node.bare
  connections : b'.graph.connections = b.graph.connections

theorem Twins.refl (b : Built κ) : b.Twins b :=
  ⟨rfl, rfl, rfl⟩

variable {b b' b₁ : Built κ} {settings : Settings} {g : Graph κ} {r : Report}

theorem readExport_congr (hk : b'.keys = b.keys) (ho : ∀ id, b'.outputs id = b.outputs id) :
    b'.readExport = b.readExport := by
  have hid : b'.id = b.id := by
    funext key
    rw [Built.id, hk, Built.id]
  funext others key
  simp only [readExport, hid, ho]

variable [Kernel κ]

theorem Sound.exists_passed (hb : b.Sound) (he : b.graph.evaluate settings = .ok (g, r)) :
    ∃ T verdict base top, b.graph.Cached T ∧
      Graph.Passed settings b.graph g r verdict base top := by
  obtain ⟨T, hT⟩ := hb.cached
  obtain ⟨verdict, base, top, hp⟩ := Graph.evaluate_spec hT.wellFormed he
  exact ⟨T, verdict, base, top, hT, hp⟩

/-- A pass keeps what was built sound. -/
theorem Sound.evaluate (hb : b.Sound) (he : b.graph.evaluate settings = .ok (g, r)) :
    Sound { b with graph := g } := by
  obtain ⟨T, verdict, base, top, hT, hp⟩ := hb.exists_passed he
  exact ⟨⟨_, hT.passed hp⟩, hp.ids.symm ▸ hb.ids, hb.keys⟩

namespace Twins

/-- An edit that succeeds on a graph succeeds on its twin. -/
theorem edit (h : b.Twins b') {e : EditSpec} (he : b.edit e = .ok b₁) :
    ∃ b₁', b'.edit e = .ok b₁' ∧ b₁.Twins b₁' := by
  obtain ⟨id, n, k, hid, hn, hk, rfl⟩ := edit_eq_ok_iff.mp he
  obtain ⟨m, hm, hmn⟩ := Graph.exists_of_map_bare h.bare hn
  obtain ⟨k', hk', hbare⟩ := Node.exists_setParameter hmn hk
  refine ⟨_, edit_eq_ok_iff.mpr ⟨id, m, k', h.keys ▸ hid, hm, hk', rfl⟩, h.keys, ?_,
    h.connections⟩
  rw [Graph.map_bare_setNode, Graph.map_bare_setNode, h.bare, hbare]

theorem edits (h : b.Twins b') {es : List EditSpec} (he : es.foldlM Built.edit b = .ok b₁) :
    ∃ b₁', es.foldlM Built.edit b' = .ok b₁' ∧ b₁.Twins b₁' :=
  foldlM_sim (fun _ _ _ _ h he => h.edit he) h he

/-- A pass makes no difference to twins. -/
theorem evaluate (h : b.Twins b') (hb : b.Sound) (he : b.graph.evaluate settings = .ok (g, r)) :
    Twins { b with graph := g } b' := by
  obtain ⟨T, verdict, base, top, hT, hp⟩ := hb.exists_passed he
  exact ⟨h.keys, h.bare.trans hp.map_bare.symm, h.connections.trans hp.connections.symm⟩

/-- A pass over a twin shows what a clean pass shows, and is clean. -/
theorem clean (h : b.Twins b') (hb : b.Sound) (hb' : b'.Sound)
    (he : b.graph.evaluate settings = .ok (g, r)) (hr : r.clean = true) :
    ∃ g' r', b'.graph.evaluate settings = .ok (g', r') ∧ r'.clean = true ∧
      ∀ id, outputs { b' with graph := g' } id = outputs { b with graph := g } id := by
  obtain ⟨T, verdict, base, top, hT, hp⟩ := hb.exists_passed he
  obtain ⟨T', hT'⟩ := hb'.cached
  -- whether a pass is refused depends on the connections only
  have ha : Acyclic b'.graph.Leads := by
    rw [Graph.leads_of_connections h.connections]
    exact (Graph.findCycle?_eq_none_iff hT.wellFormed).mp (Graph.evaluate_eq_ok he).1
  obtain ⟨_, -, he'⟩ := Graph.evaluate_of_acyclic hT'.wellFormed ha settings
  obtain ⟨verdict', base', top', hp'⟩ := Graph.evaluate_spec hT'.wellFormed he'
  have hvalues : ∀ id ∈ b.graph.ids, _ := fun id hid =>
    hp.values_eq hp' h.bare h.connections (hT.honest hp) (hT'.honest hp') hr hid
  refine ⟨_, _, he', hp'.clean_iff.mpr fun n hn => ?_, fun id => ?_⟩
  · have hid : n.id ∈ b.graph.ids :=
      Graph.ids_of_map_bare h.bare ▸ List.mem_map_of_mem hn
    obtain ⟨-, -, -, -, -, herror⟩ := hvalues n.id hid
    exact herror
  · by_cases hid : id ∈ b.graph.ids
    · obtain ⟨n, m, hn, hm, hsame, -⟩ := hvalues id hid
      simp only [outputs, hn, hm, Option.elim_some, hsame]
    · have hg : id ∉ g.ids := hp.ids.symm ▸ hid
      have hg' : id ∉ _ := hp'.ids.symm ▸ Graph.ids_of_map_bare h.bare ▸ hid
      simp only [outputs, Graph.node?_eq_none hg, Graph.node?_eq_none hg']

end Twins

end Built

/-! ## Parts of a run -/

variable [Kernel κ]

namespace Built

variable {s : Script} {settings : Settings} {pass : Nat}

@[simp] theorem result_editBefore (b : Built κ) (e : EditSpec) :
    (editBefore pass b e).result = b.edit e := by
  unfold editBefore
  simp only [Recorded.result_bind, Recorded.result_ofResult, Recorded.result_log,
    Recorded.result_pure]
  cases b.edit e <;> rfl

theorem evaluate_eq_ok_iff {b b' : Built κ} {r : Report} :
    (b.evaluate settings pass).result = .ok (b', r) ↔
      ∃ g, b.graph.evaluate settings = .ok (g, r) ∧ b' = { b with graph := g } := by
  unfold Built.evaluate
  cases b.graph.evaluate settings with
  | error e => simp
  | ok gr =>
    obtain ⟨g, r'⟩ := gr
    simp only [Except.ok.injEq, Prod.mk.injEq]
    constructor
    · rintro ⟨rfl, rfl⟩
      exact ⟨g, ⟨rfl, rfl⟩, rfl⟩
    · rintro ⟨_, ⟨rfl, rfl⟩, rfl⟩
      exact ⟨rfl, rfl⟩

/-- A turn of a run makes the edits before a pass and does the pass. -/
theorem runNext_eq_ok_iff {done done' : Built κ × List Report} :
    (runNext s settings pass done).result = .ok done' ↔
      ∃ b g r, (s.editsBefore pass).foldlM Built.edit done.1 = .ok b ∧
        b.graph.evaluate settings = .ok (g, r) ∧ done' = ({ b with graph := g }, r :: done.2) := by
  unfold runNext runPass
  simp only [Recorded.result_bind, Recorded.result_foldlM, Recorded.result_pure,
    result_editBefore, bind_eq_ok_iff, Except.ok.injEq, Prod.exists, evaluate_eq_ok_iff]
  constructor
  · rintro ⟨_, r, ⟨b, hb, g, hg, rfl⟩, rfl⟩
    exact ⟨b, g, r, hb, hg, rfl⟩
  · rintro ⟨b, g, r, hb, hg, rfl⟩
    exact ⟨_, r, ⟨b, hb, g, hg, rfl⟩, rfl⟩

/-- Earlier edits and passes keep a graph and its twin, which gets the edits only. -/
theorem Twins.passes {b b' : Built κ} {reports : List Report} {passes : List Nat}
    {done : Built κ × List Report} (h : b.Twins b') (hb : b.Sound)
    (hdone : passes.foldlM (fun done pass => (runNext s settings pass done).result) (b, reports) =
      .ok done) :
    ∃ b₁', passes.foldlM (fun b pass => (s.editsBefore pass).foldlM Built.edit b) b' = .ok b₁' ∧
      done.1.Twins b₁' ∧ done.1.Sound := by
  refine foldlM_sim (R := fun (done : Built κ × List Report) b => done.1.Twins b ∧ done.1.Sound)
    ?_ ⟨h, hb⟩ hdone
  intro done done' b' pass ⟨h, hb⟩ hnext
  obtain ⟨t, g, r, hedits, he, rfl⟩ := runNext_eq_ok_iff.mp hnext
  obtain ⟨t', hedits', ht⟩ := h.edits hedits
  have hsound := hb.edits hedits
  exact ⟨t', hedits', ht.evaluate hsound he, hsound.evaluate he⟩

end Built

namespace Script

variable {registry : Registry κ} {settings : Settings} {s : Script}

/-- The parts of a run that succeeds: the graph that is built, the passes, and the exports. -/
theorem run_eq_ok_iff {summary : Summary} :
    (s.run registry settings).result = .ok summary ↔ ∃ b done exports,
      s.build registry = .ok b ∧
      (List.range' 1 s.passes).foldlM (fun done pass => (Built.runNext s settings pass done).result)
        (b, []) = .ok done ∧
      (s.exports.foldlM done.1.readExport []).result = .ok exports ∧
      summary = ⟨done.2.reverse, exports.reverse⟩ := by
  unfold run Built.finish Built.runPasses
  simp only [Recorded.result_bind, Recorded.result_ofResult, Recorded.result_steps,
    Recorded.result_pure, bind_eq_ok_iff, Except.ok.injEq]
  constructor
  · rintro ⟨b, hb, done, hdone, exports, hexports, rfl⟩
    exact ⟨b, done, exports, hb, hdone, hexports, rfl⟩
  · rintro ⟨b, done, exports, hb, hdone, hexports, rfl⟩
    exact ⟨b, hb, done, hdone, exports, hexports, rfl⟩

/-! ## Folding -/

/-- The edits that a run makes, in order. -/
def scheduled (s : Script) : List EditSpec :=
  (List.range' 1 s.passes).flatMap s.editsBefore

/-- The script that starts with what all edits leave, and has one pass. -/
def folded (s : Script) : Script :=
  { s.scheduled.foldl absorb s with edits := [], passes := 1 }

theorem foldlM_scheduled (passes : List Nat) (b : Built κ) :
    (passes.flatMap s.editsBefore).foldlM Built.edit b =
      passes.foldlM (fun b pass => (s.editsBefore pass).foldlM Built.edit b) b := by
  induction passes generalizing b with
  | nil => rfl
  | cons pass passes ih =>
    rw [List.flatMap_cons, List.foldlM_append, List.foldlM_cons]
    exact congrArg _ (funext ih)

/-- Folding builds what the edits make of the graph that was built. -/
theorem build_foldl_absorb [IndependentParameters κ] (hr : registry.Blank) {es : List EditSpec}
    {b b' : Built κ} (h : s.build registry = .ok b) (h' : es.foldlM Built.edit b = .ok b') :
    (es.foldl absorb s).build registry = .ok b' := by
  induction es generalizing s b with
  | nil =>
    obtain rfl := Except.ok.inj h'
    exact h
  | cons e es ih =>
    rw [List.foldlM_cons] at h'
    obtain ⟨t, ht, hrest⟩ := bind_eq_ok_iff.mp h'
    exact ih (build_absorb hr h ht) hrest

theorem exports_foldl_absorb (es : List EditSpec) (s : Script) :
    (es.foldl absorb s).exports = s.exports := by
  induction es generalizing s with
  | nil => rfl
  | cons e es ih => exact ih (s.absorb e)

/-- A run that ends with a clean pass exports what a run of the folded script does. -/
theorem exists_run_folded [IndependentParameters κ] (hr : registry.Blank) (hpasses : 1 ≤ s.passes)
    {summary : Summary} (hrun : (s.run registry settings).result = .ok summary) {r : Report}
    (hlast : summary.reports.getLast? = some r) (hclean : r.clean = true) :
    ∃ r', (s.folded.run registry settings).result = .ok ⟨[r'], summary.exports⟩ ∧
      r'.clean = true := by
  obtain ⟨b, done, exports, hbuild, hdone, hexports, rfl⟩ := run_eq_ok_iff.mp hrun
  obtain ⟨passes, hp⟩ := Nat.exists_eq_add_of_le' hpasses
  rw [hp, List.range'_1_concat, List.foldlM_append] at hdone
  obtain ⟨done₁, hfirst, hsecond⟩ := bind_eq_ok_iff.mp hdone
  simp only [List.foldlM_cons, List.foldlM_nil, bind_pure] at hsecond
  obtain ⟨b₁, hedits₁, htwins, hsound⟩ := (Built.Twins.refl b).passes (sound_build hr hbuild) hfirst
  obtain ⟨t, g, r₀, hedits, he, rfl⟩ := Built.runNext_eq_ok_iff.mp hsecond
  obtain ⟨b₂, hedits₂, htwins⟩ := htwins.edits hedits
  obtain rfl : r₀ = r := by simpa using hlast
  have hscheduled : s.scheduled.foldlM Built.edit b = .ok b₂ := by
    rw [scheduled, foldlM_scheduled, hp, List.range'_1_concat, List.foldlM_append]
    refine bind_eq_ok_iff.mpr ⟨b₁, hedits₁, ?_⟩
    simpa only [List.foldlM_cons, List.foldlM_nil, bind_pure] using hedits₂
  have hfolded : s.folded.build registry = .ok b₂ := build_foldl_absorb hr hbuild hscheduled
  obtain ⟨g', r', he', hclean', houtputs⟩ :=
    htwins.clean (hsound.edits hedits) (sound_build hr hfolded) he hclean
  have hpass : (List.range' 1 s.folded.passes).foldlM
      (fun done pass => (Built.runNext s.folded settings pass done).result) (b₂, []) =
        .ok ({ b₂ with graph := g' }, [r']) :=
    bind_eq_ok_iff.mpr ⟨_, Built.runNext_eq_ok_iff.mpr ⟨b₂, g', r', rfl, he', rfl⟩, rfl⟩
  refine ⟨r', run_eq_ok_iff.mpr ⟨b₂, _, exports, hfolded, hpass, ?_, rfl⟩, hclean'⟩
  have hread : Built.readExport { b₂ with graph := g' } = Built.readExport { t with graph := g } :=
    Built.readExport_congr htwins.keys houtputs
  have hkeys : s.folded.exports = s.exports := exports_foldl_absorb s.scheduled s
  simp only [hread, hkeys]
  exact hexports

/-- A run over the catalogue that ends with a clean pass exports what one pass over the script does
into which all edits up to that pass were folded, and this pass is clean too. -/
theorem run_folded (hpasses : 1 ≤ s.passes) {summary : Summary}
    (hrun : (s.run Builtin.registry settings).result = .ok summary) {r : Report}
    (hlast : summary.reports.getLast? = some r) (hclean : r.clean = true) :
    ∃ r', (s.folded.run Builtin.registry settings).result = .ok ⟨[r'], summary.exports⟩ ∧
      r'.clean = true :=
  exists_run_folded Builtin.blank_registry hpasses hrun hlast hclean

/-- Bytes of two pixels are read as an image of one pixel, until the width is set, and set again. -/
def widening : Script where
  version := currentVersion
  name := "widening"
  nodes := [
    ⟨"source", "solid_color", none, .ofList [("width", .integer 2), ("height", .integer 1)],
      .empty⟩,
    ⟨"bytes", "image_to_bytes", none, .empty, .empty⟩,
    ⟨"image", "image_from_bytes", none, .empty, .empty⟩,
    ⟨"out", "output", none, .empty, .empty⟩]
  connections := [⟨"source", 0, "bytes", 0⟩, ⟨"bytes", 0, "image", 0⟩, ⟨"image", 0, "out", 0⟩]
  edits := [
    ⟨4, "source", "width", .integer 5⟩,
    ⟨3, "image", "width", .integer 2⟩,
    ⟨2, "image", "width", .integer 3⟩]
  passes := 3
  exports := ["out"]

/-- The first two passes fail, and the third shows what the folded script shows at once. -/
theorem run_folded_widening : ∃ summary r',
    (widening.run Builtin.registry .standard).result = .ok summary ∧
    summary.reports.map Report.clean = [false, false, true] ∧
    summary.exports.map (fun e => e.outputs.map fun v => (v.bind Value.image?).map Image.size) =
      [[some ⟨2, 1⟩]] ∧
    widening.folded.nodes.map (fun spec => spec.parameters.entries) =
      [[("width", .integer 2), ("height", .integer 1)], [], [("width", .integer 2)], []] ∧
    (widening.folded.run Builtin.registry .standard).result = .ok ⟨[r'], summary.exports⟩ ∧
    r'.clean = true := by
  have hread : (widening.run Builtin.registry .standard).result.toOption.map (fun summary =>
      (summary.reports.map Report.clean,
        summary.exports.map fun e => e.outputs.map fun v => (v.bind Value.image?).map Image.size)) =
        some ([false, false, true], [[some ⟨2, 1⟩]]) := by
    decide +kernel
  cases hrun : (widening.run Builtin.registry .standard).result with
  | error e => rw [hrun] at hread; cases hread
  | ok summary =>
    rw [hrun] at hread
    obtain ⟨hclean, hsize⟩ := Prod.mk.inj (Option.some.inj hread)
    have hlast := congrArg List.getLast? hclean
    rw [List.getLast?_map] at hlast
    obtain ⟨r, hr, hcleanr⟩ := Option.map_eq_some_iff.mp hlast
    obtain ⟨r', hfolded, hclean'⟩ := run_folded (by decide) hrun hr hcleanr
    exact ⟨summary, r', rfl, hclean, hsize, rfl, hfolded, hclean'⟩

end Script

end TextureFlow
