import Mathlib
import TextureFlow.Proofs.Folding

/-!
# When edits are made

A run looks at its edits one pass at a time. So it does not matter where an edit stands among those
for other passes, and an edit for a pass that is not run is not looked at, be it well-formed or not.
What a pass does is settled before the next one begins, so a shorter run is the beginning of a
longer one.

* `Recorded.stepsFrom_congr`: numbered steps, of which only those that are done matter;
* `Script.run_of_editsBefore`: edits that are the same for every pass that is run;
* `Script.editsBefore_reordered`: reordering edits of different passes;
* `Built.exists_of_passes`: a report is added for each pass, and keys are kept;
* `Script.run_scheduled`: all three ways to change a script, for every family of kernels.
-/

namespace TextureFlow

/-! ## Numbered steps -/

/-- Steps that are not done do not matter. -/
theorem Recorded.stepsFrom_congr {ν ε α : Type} {f g : Nat → α → Recorded ν ε α}
    {done left : Nat} (h : ∀ k, done < k → k ≤ done + left → f k = g k) (a : α) :
    stepsFrom f done a left = stepsFrom g done a left := by
  induction left generalizing done a with
  | zero => rfl
  | succ left ih =>
    have hfirst : f (done + 1) = g (done + 1) := h (done + 1) (by omega) (by omega)
    have hrest : ∀ k, done + 1 < k → k ≤ done + 1 + left → f k = g k := fun k hlt hle =>
      h k (by omega) (by omega)
    rw [stepsFrom_succ, stepsFrom_succ, hfirst]
    exact congrArg _ (funext fun b => ih hrest b)

variable {κ : Type} [Kernel κ]

/-! ## Edits by passes -/

namespace Script

variable {registry : Registry κ} {settings : Settings} {s : Script}

/-- A run looks at the edits before each of its passes, and at no others. -/
theorem run_of_editsBefore {es : List EditSpec}
    (h : ∀ pass, 1 ≤ pass → pass ≤ s.passes →
      { s with edits := es }.editsBefore pass = s.editsBefore pass) :
    { s with edits := es }.run registry settings = s.run registry settings := by
  have hnext : ∀ pass, 0 < pass → pass ≤ 0 + s.passes →
      Built.runNext (κ := κ) { s with edits := es } settings pass =
        Built.runNext s settings pass := by
    intro pass hlow hhigh
    funext done
    unfold Built.runNext Built.runPass
    rw [h pass hlow (by omega)]
  have hpasses : ∀ b : Built κ, b.runPasses { s with edits := es } settings s.passes =
      b.runPasses s settings s.passes := fun b => Recorded.stepsFrom_congr hnext (b, [])
  have hfinish : ∀ b : Built κ, b.finish { s with edits := es } settings = b.finish s settings := by
    intro b
    unfold Built.finish
    rw [hpasses]
  unfold run
  rw [funext hfinish]
  rfl

/-- The script with its edits in another order. -/
def reordered (s : Script) (σ : Equiv.Perm (Fin s.edits.length)) : Script :=
  { s with edits := List.ofFn fun i => s.edits[σ i] }

/-- Edits before the same pass stand in their old order. -/
def KeepsOrder (s : Script) (σ : Equiv.Perm (Fin s.edits.length)) : Prop :=
  ∀ i j, i < j → s.edits[σ i].beforePass = s.edits[σ j].beforePass → σ i < σ j

instance (σ : Equiv.Perm (Fin s.edits.length)) : Decidable (s.KeepsOrder σ) :=
  inferInstanceAs (Decidable (∀ _ _, _))

/-- Each pass finds the edits before it in their old order. -/
theorem editsBefore_reordered {σ : Equiv.Perm (Fin s.edits.length)} (h : s.KeepsOrder σ)
    (pass : Nat) : (s.reordered σ).editsBefore pass = s.editsBefore pass := by
  let edit (i : Fin s.edits.length) : EditSpec := s.edits[i]
  let before (e : EditSpec) : Bool := e.beforePass = pass
  -- the positions of these edits are the same in both lists, and ascend both times
  have hpositions : ((List.finRange s.edits.length).map σ).filter (before ∘ edit) =
      (List.finRange s.edits.length).filter (before ∘ edit) := by
    have hasymm : ∀ i j : Fin s.edits.length, i < j → j < i → i = j := fun _ _ hij hji =>
      absurd hij hji.asymm
    refine List.Perm.eq_of_pairwise (fun i j _ _ => hasymm i j) ?_ ?_ ?_
    · rw [List.pairwise_filter, List.pairwise_map]
      refine (List.pairwise_lt_finRange _).imp fun {i j} hij hi hj => h i j hij ?_
      exact (of_decide_eq_true hi).trans (of_decide_eq_true hj).symm
    · exact (List.pairwise_lt_finRange _).filter _
    · exact (Equiv.Perm.map_finRange_perm σ).filter _
  have hold : (List.finRange s.edits.length).map edit = s.edits := by
    rw [← List.ofFn_eq_map]
    exact List.ofFn_getElem
  have hnew : ((List.finRange s.edits.length).map σ).map edit = (s.reordered σ).edits := by
    rw [List.map_map]
    exact List.ofFn_eq_map.symm
  calc (s.reordered σ).edits.filter before
      = (((List.finRange s.edits.length).map σ).filter (before ∘ edit)).map edit := by
        rw [← hnew, List.filter_map]
    _ = ((List.finRange s.edits.length).map edit).filter before := by
        rw [hpositions, List.filter_map]
    _ = s.edits.filter before := by rw [hold]

/-- The script without edits for passes that are not run. -/
def pruned (s : Script) : Script :=
  { s with edits := s.edits.filter fun e => 1 ≤ e.beforePass ∧ e.beforePass ≤ s.passes }

theorem editsBefore_pruned {pass : Nat} (hlow : 1 ≤ pass) (hhigh : pass ≤ s.passes) :
    s.pruned.editsBefore pass = s.editsBefore pass := by
  unfold editsBefore pruned
  rw [List.filter_filter]
  refine List.filter_congr fun e _ => ?_
  rw [Bool.eq_iff_iff, Bool.and_eq_true, decide_eq_true_iff, decide_eq_true_iff]
  omega

end Script

/-! ## Passes -/

namespace Built

variable {s : Script} {settings : Settings}

theorem keys_edits {b b' : Built κ} {es : List EditSpec} (h : es.foldlM Built.edit b = .ok b') :
    b'.keys = b.keys := by
  refine foldlM_keep (I := fun t : Built κ => t.keys = b.keys) (fun t t' e _ ht he => ?_) rfl h
  obtain ⟨id, n, m, -, -, -, rfl⟩ := edit_eq_ok_iff.mp he
  exact ht

/-- Each pass adds its report to those of earlier passes, and none changes the keys. -/
theorem exists_of_passes {passes : List Nat} {done done' : Built κ × List Report}
    (h : passes.foldlM (fun done pass => (runNext s settings pass done).result) done = .ok done') :
    done'.1.keys = done.1.keys ∧
      ∃ reports, done'.2 = reports ++ done.2 ∧ reports.length = passes.length := by
  induction passes generalizing done with
  | nil =>
    obtain rfl := Except.ok.inj h
    exact ⟨rfl, [], rfl, rfl⟩
  | cons pass passes ih =>
    rw [List.foldlM_cons] at h
    obtain ⟨between, hnext, hrest⟩ := bind_eq_ok_iff.mp h
    obtain ⟨b, g, r, hedits, -, rfl⟩ := runNext_eq_ok_iff.mp hnext
    obtain ⟨hkeys, reports, hreports, hlength⟩ := ih hrest
    have hsame : b.keys = done.1.keys := keys_edits hedits
    refine ⟨hkeys.trans hsame, reports ++ [r], ?_, ?_⟩
    · rw [hreports, List.append_assoc]
      rfl
    · rw [List.length_append, hlength]
      rfl

/-! ## Exports -/

omit [Kernel κ] in
theorem readExport_eq_ok_iff {b : Built κ} {others exports : List Export} {key : String} :
    (b.readExport others key).result = .ok exports ↔
      ∃ id, b.keys.find? key = some id ∧ exports = ⟨key, b.outputs id⟩ :: others := by
  unfold readExport
  simp only [Recorded.result_bind, Recorded.result_ofResult, Recorded.result_log,
    Recorded.result_pure, bind_eq_ok_iff, id_eq_ok_iff]
  refine exists_congr fun id => and_congr_right fun _ => ?_
  constructor
  · rintro ⟨_, _, h⟩
    exact (Except.ok.inj h).symm
  · intro h
    exact ⟨(), trivial, congrArg _ h.symm⟩

omit [Kernel κ] in
/-- Exports are read exactly if their keys are known. -/
theorem exists_exports_iff {b : Built κ} {keys : List String} {others : List Export} :
    (∃ exports, (keys.foldlM b.readExport others).result = .ok exports) ↔
      ∀ key ∈ keys, ∃ id, b.keys.find? key = some id := by
  rw [Recorded.result_foldlM]
  refine exists_foldlM_iff (I := fun _ => True) (fun others key _ => ?_)
    (fun _ _ _ _ _ => trivial) trivial keys
  simp only [readExport_eq_ok_iff]
  constructor
  · rintro ⟨_, id, hid, -⟩
    exact ⟨id, hid⟩
  · rintro ⟨id, hid⟩
    exact ⟨_, id, hid, rfl⟩

end Built

/-! ## Runs -/

namespace Script

variable {registry : Registry κ} {settings : Settings} {s : Script}

/-- A run of fewer passes is the beginning of a longer run. -/
theorem exists_run_take {n m : Nat} (hnm : n ≤ m) {summary : Summary}
    (h : ({ s with passes := m }.run registry settings).result = .ok summary) :
    summary.reports.length = m ∧ ∃ first,
      ({ s with passes := n }.run registry settings).result = .ok first ∧
      first.reports = summary.reports.take n := by
  obtain ⟨b, done, exports, hbuild, hdone, hexports, rfl⟩ := run_eq_ok_iff.mp h
  -- the passes of the shorter run, and those that follow
  have hsplit : List.range' 1 m = List.range' 1 n ++ List.range' (1 + n) (m - n) := by
    rw [List.range'_append_1]
    congr
    omega
  change (List.range' 1 m).foldlM _ _ = _ at hdone
  rw [hsplit, List.foldlM_append] at hdone
  obtain ⟨between, hfirst, hrest⟩ := bind_eq_ok_iff.mp hdone
  obtain ⟨-, early, hearly, hn⟩ := Built.exists_of_passes hfirst
  obtain ⟨hkeys, late, hlate, hm⟩ := Built.exists_of_passes hrest
  rw [List.length_range'] at hn hm
  rw [List.append_nil] at hearly
  obtain ⟨others, hothers⟩ : ∃ others,
      (s.exports.foldlM between.1.readExport []).result = .ok others :=
    Built.exists_exports_iff.mpr (hkeys ▸ Built.exists_exports_iff.mp ⟨exports, hexports⟩)
  have hreverse : done.2.reverse = between.2.reverse ++ late.reverse := by
    rw [hlate, List.reverse_append]
  have hbetween : between.2.reverse.length = n := by
    rw [List.length_reverse, hearly, hn]
  refine ⟨?_, _, run_eq_ok_iff.mpr ⟨b, between, others, hbuild, hfirst, hothers, rfl⟩, ?_⟩
  · rw [hreverse, List.length_append, hbetween, List.length_reverse, hm]
    omega
  · exact (hreverse ▸ List.take_left' hbetween).symm

/-- A run of fewer passes reports what a longer run reports at first. The edits of a script may be
put in any order that keeps those before the same pass in their order, and those before no pass that
is run may be left out, whatever they say: the run is the same, with all that happens in it. -/
theorem run_scheduled (registry : Registry κ) (settings : Settings) (s : Script) :
    (∀ n m summary, n ≤ m → ({ s with passes := m }.run registry settings).result = .ok summary →
      summary.reports.length = m ∧ ∃ first,
        ({ s with passes := n }.run registry settings).result = .ok first ∧
        first.reports = summary.reports.take n) ∧
    (∀ σ, s.KeepsOrder σ → (s.reordered σ).run registry settings = s.run registry settings) ∧
    s.pruned.run registry settings = s.run registry settings :=
  ⟨fun _ _ _ hnm => exists_run_take hnm,
    fun _ hσ => run_of_editsBefore fun pass _ _ => editsBefore_reordered hσ pass,
    run_of_editsBefore fun _ => editsBefore_pruned⟩

/-- A number is set before each of two passes, in the wrong order. Two edits are never made: one has
no node, the other no parameter. -/
def dawdling : Script where
  version := currentVersion
  name := "dawdling"
  nodes := [⟨"number", "scalar", none, .empty, .empty⟩]
  connections := []
  edits := [
    ⟨2, "number", "value", .scalar 2⟩,
    ⟨1, "number", "value", .scalar 1⟩,
    ⟨0, "nobody", "value", .scalar 0⟩,
    ⟨9, "number", "colour", .scalar 9⟩]
  passes := 2
  exports := ["number"]

/-- The first two edits may change places, and the last two may be left out. -/
theorem run_scheduled_dawdling :
    (∃ summary first,
      ({ dawdling with passes := 2 }.run Builtin.registry .standard).result = .ok summary ∧
      summary.reports.length = 2 ∧
      ({ dawdling with passes := 1 }.run Builtin.registry .standard).result = .ok first ∧
      first.reports = summary.reports.take 1) ∧
    (∃ σ, dawdling.KeepsOrder σ ∧
      (dawdling.reordered σ).edits.map EditSpec.beforePass = [1, 2, 0, 9] ∧
      (dawdling.reordered σ).run Builtin.registry .standard =
        dawdling.run Builtin.registry .standard) ∧
    dawdling.pruned.edits.map EditSpec.beforePass = [2, 1] ∧
    dawdling.pruned.run Builtin.registry .standard = dawdling.run Builtin.registry .standard := by
  obtain ⟨hshorter, hreordered, hpruned⟩ := run_scheduled Builtin.registry .standard dawdling
  have hkeeps : dawdling.KeepsOrder (.swap ⟨0, by decide⟩ ⟨1, by decide⟩) := by decide +kernel
  refine ⟨?shorter, ⟨_, hkeeps, by decide +kernel, hreordered _ hkeeps⟩, by decide, hpruned⟩
  case shorter =>
    have hok : ({ dawdling with passes := 2 }.run Builtin.registry .standard).result.isOk =
        true := by
      decide +kernel
    cases hrun : ({ dawdling with passes := 2 }.run Builtin.registry .standard).result with
    | error e => rw [hrun] at hok; cases hok
    | ok summary =>
      obtain ⟨hlength, first, hfirst, htake⟩ := hshorter 1 2 summary (by decide) hrun
      exact ⟨summary, first, rfl, hlength, hfirst, htake⟩

end Script

end TextureFlow
