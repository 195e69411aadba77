import Mathlib
import TextureFlow.Catalogue.Basic
import TextureFlow.Proofs.Fate

/-!
# What a pass writes

In a session on one graph the clock of the graph is ahead of every generation that a node bears, on
its ports or in its memo. A turn takes its numbers from the clock, so a number that a pass writes is
newer than all that was there, and along the order the numbers ascend. What is written, and where,
depends on the verdict: a computation writes every output, and a failure writes zeros to outputs
without a value, if at all.

* `Port.Written.pairwise_stamps`: the numbers that a turn writes ascend;
* `Session.upTo_run`: no generation is ahead of the clock;
* `Graph.Passed.wrote`: what a pass makes of every output;
* `Session.evaluate_wrote`: the same for sessions on one graph, where an output that holds a value
  always holds one.
-/

namespace TextureFlow

variable {κ : Type}

/-! ## Drafts -/

/-- A draft whose kernel lists its ports as they are built, at generation `0`. -/
def Draft.Unstamped [Kernel κ] (d : Draft κ) : Prop :=
  ∀ p ∈ (Kernel.layout d.kernel).inputs ++ (Kernel.layout d.kernel).outputs, p.generation = 0

/-- An edit that creates no node, or one whose ports were never written. -/
def Edit.Unstamped [Kernel κ] (e : Edit κ) : Prop :=
  ∀ d, e.draft? = some d → d.Unstamped

namespace Port

@[simp] theorem generation_input (name : String) (a : Accepted) : (input name a).generation = 0 :=
  rfl

@[simp] theorem generation_output (name : String) (k : ValueKind) :
    (output name k).generation = 0 := rfl

@[simp] theorem generation_required (p : Port) : p.required.generation = p.generation := rfl

@[simp] theorem generation_withFallback (p : Port) (v : Value) :
    (p.withFallback v).generation = p.generation := rfl

end Port

/-- No kernel of the catalogue declares a port that was written. -/
theorem Builtin.unstamped_draft (d : Draft Builtin) : d.Unstamped := by
  have hall : ∀ k : Builtin, ∀ p ∈ k.layout.inputs ++ k.layout.outputs, p.generation = 0 := by
    intro k
    cases k with
    | combineVector arity =>
      refine List.forall_mem_append.mpr ⟨fun p hp => ?_, by simp [layout]⟩
      obtain ⟨name, -, rfl⟩ := List.mem_map.mp hp
      rfl
    | _ =>
      simp [layout, imageResult, componentNames, scalarInput, vectorInput, imageInput, colorInput]
  exact hall d.kernel

theorem Builtin.unstamped (e : Edit Builtin) : e.Unstamped :=
  fun d _ => unstamped_draft d

/-! ## The outputs of a turn -/

namespace Port

/-- The numbers on the ports that changed from one list to the other. A port that gets a new number
changes. -/
def stamps (ps qs : List Port) : List Nat :=
  ((ps.zip qs).filter fun pq => pq.1 ≠ pq.2).map fun pq => pq.2.generation

theorem stamps_cons_self (p : Port) (ps qs : List Port) :
    stamps (p :: ps) (p :: qs) = stamps ps qs := by
  simp [stamps]

theorem stamps_cons_of_ne {p q : Port} (h : p ≠ q) (ps qs : List Port) :
    stamps (p :: ps) (q :: qs) = q.generation :: stamps ps qs := by
  simp [stamps, h]

namespace Written

variable {writes : Port → Prop} {lo hi : Nat} {ps qs : List Port}

/-- The numbers that are written come after the first revision and not after the second. -/
theorem within_stamps (h : Written writes lo ps hi qs) : ∀ γ ∈ stamps ps qs, lo < γ ∧ γ ≤ hi := by
  induction h with
  | nil => exact fun γ hγ => absurd hγ List.not_mem_nil
  | @keep lo mid hi p ps qs _ le _ ih =>
    intro γ hγ
    rw [stamps_cons_self] at hγ
    exact ⟨le.trans_lt (ih γ hγ).1, (ih γ hγ).2⟩
  | @write lo hi p ps qs v _ rest ih =>
    intro γ hγ
    have hlater : γ ∈ stamps ps qs → lo < γ ∧ γ ≤ hi := fun hγ =>
      ⟨(Nat.lt_succ_self lo).trans (ih γ hγ).1, (ih γ hγ).2⟩
    by_cases hp : p = p.write v (lo + 1)
    · rw [← hp, stamps_cons_self] at hγ
      exact hlater hγ
    · rw [stamps_cons_of_ne hp, List.mem_cons] at hγ
      rcases hγ with rfl | hγ
      · exact ⟨Nat.lt_succ_self lo, rest.le⟩
      · exact hlater hγ

/-- The numbers that are written ascend. -/
theorem pairwise_stamps (h : Written writes lo ps hi qs) : (stamps ps qs).Pairwise (· < ·) := by
  induction h with
  | nil => exact .nil
  | keep _ _ _ ih => rwa [stamps_cons_self]
  | @write lo hi p ps qs v _ rest ih =>
    by_cases hp : p = p.write v (lo + 1)
    · rw [← hp, stamps_cons_self]
      exact ih
    · rw [stamps_cons_of_ne hp]
      exact List.pairwise_cons.mpr ⟨fun γ hγ => (rest.within_stamps γ hγ).1, ih⟩

/-- Where no port was ahead of the first revision, none is ahead of the second. -/
theorem generation_le (h : Written writes lo ps hi qs) (hps : ∀ p ∈ ps, p.generation ≤ lo) :
    ∀ q ∈ qs, q.generation ≤ hi := by
  induction h with
  | nil => exact fun q hq => absurd hq List.not_mem_nil
  | keep _ le rest ih =>
    obtain ⟨hp, hps⟩ := List.forall_mem_cons.mp hps
    exact List.forall_mem_cons.mpr
      ⟨hp.trans (le.trans rest.le), ih fun q hq => (hps q hq).trans le⟩
  | write v _ rest ih =>
    obtain ⟨-, hps⟩ := List.forall_mem_cons.mp hps
    exact List.forall_mem_cons.mpr ⟨rest.le, ih fun q hq => (hps q hq).trans (Nat.le_succ _)⟩

/-- A port that holds a value never loses it. -/
theorem lasts (h : Written writes lo ps hi qs) :
    List.Forall₂ (fun p q => Option.isSome (value p) → Option.isSome (value q)) ps qs := by
  induction h with
  | nil => exact .nil
  | keep _ _ _ ih => exact .cons id ih
  | write _ _ _ ih => exact .cons (fun _ => rfl) ih

end Written

/-- A computation writes every output. -/
theorem forall₂_writeAll (revision : Nat) {ports : List Port} {values : List Value}
    (hl : values.length = ports.length) :
    List.Forall₂ (fun p q => ∃ v γ, revision < γ ∧ q = p.write v γ) ports
      (writeAll revision ports values) := by
  induction ports generalizing revision values with
  | nil =>
    obtain rfl := List.length_eq_zero_iff.mp hl
    exact .nil
  | cons p ports ih =>
    cases values with
    | nil => cases hl
    | cons v values =>
      refine .cons ⟨v, revision + 1, Nat.lt_succ_self _, rfl⟩ ?_
      refine (ih (revision + 1) (Nat.succ.inj hl)).imp ?_
      rintro q q' ⟨w, γ, hlt, rfl⟩
      exact ⟨w, γ, (Nat.lt_succ_self _).trans hlt, rfl⟩

/-- What filling makes of an output, from a revision on. -/
inductive Filled (revision : Nat) (p : Port) : Port → Prop where
  | kept (spared : ∀ k, p.value = none → p.emits? ≠ some k) : Filled revision p p
  | zero {k : ValueKind} {γ : Nat} (empty : p.value = none) (emits : p.emits? = some k)
      (lt : revision < γ) : Filled revision p (p.write k.zero γ)

theorem Filled.of_succ {revision : Nat} {p q : Port} (h : p.Filled (revision + 1) q) :
    p.Filled revision q := by
  cases h with
  | kept spared => exact .kept spared
  | zero empty emits lt => exact .zero empty emits ((Nat.lt_succ_self _).trans lt)

theorem forall₂_fillZeros (revision : Nat) (ports : List Port) :
    List.Forall₂ (Filled revision) ports (fillZeros revision ports) := by
  induction ports generalizing revision with
  | nil => exact .nil
  | cons p ports ih =>
    -- where a value is missing a number is taken, whether it is written or not
    have hrest := (ih (revision + 1)).imp fun _ _ => Filled.of_succ
    cases hv : p.value with
    | some v =>
      rw [fillZeros, hv]
      exact .cons (.kept fun _ hnone => by rw [hv] at hnone; cases hnone) (ih revision)
    | none =>
      rw [fillZeros, hv]
      cases hk : p.emits? with
      | none => exact .cons (.kept fun k _ => by simp [hk]) hrest
      | some k => exact .cons (.zero hv hk (Nat.lt_succ_self revision)) hrest

end Port

/-! ## Generations and the clock -/

namespace Node

/-- The generations that a node bears: those of its ports and those in its memo. -/
def generations (n : Node κ) : List Nat :=
  n.ports.map Port.generation ++ n.memo.getD []

/-- A node that bears no generation ahead of a revision. -/
structure UpTo (revision : Nat) (n : Node κ) : Prop where
  inputs : ∀ p ∈ n.inputs, p.generation ≤ revision
  outputs : ∀ p ∈ n.outputs, p.generation ≤ revision
  memo : ∀ γs, n.memo = some γs → ∀ γ ∈ γs, γ ≤ revision

namespace UpTo

variable {n : Node κ} {revision later : Nat}

theorem mono (h : n.UpTo revision) (hle : revision ≤ later) : n.UpTo later where
  inputs p hp := (h.inputs p hp).trans hle
  outputs p hp := (h.outputs p hp).trans hle
  memo γs hm γ hγ := (h.memo γs hm γ hγ).trans hle

theorem le (h : n.UpTo revision) {γ : Nat} (hγ : γ ∈ n.generations) : γ ≤ revision := by
  rw [generations, ports, List.map_append, List.mem_append, List.mem_append, List.mem_map,
    List.mem_map] at hγ
  rcases hγ with (⟨p, hp, rfl⟩ | ⟨p, hp, rfl⟩) | hγ
  · exact h.inputs p hp
  · exact h.outputs p hp
  · cases hm : n.memo with
    | none =>
      rw [hm] at hγ
      exact absurd hγ List.not_mem_nil
    | some γs =>
      rw [hm] at hγ
      exact h.memo γs hm γ hγ

end UpTo

variable [Kernel κ]

/-- A new node bears the number `0` only. -/
theorem upTo_draft {d : Draft κ} (hd : d.Unstamped) (id : NodeId) (revision : Nat) :
    (d.node id).UpTo revision := by
  have hports := List.forall_mem_append.mp hd
  obtain ⟨name, strategy, hnode⟩ := exists_node_eq d id
  rw [hnode]
  constructor
  case inputs =>
    intro p hp
    obtain ⟨q, hq, rfl⟩ := List.mem_map.mp hp
    exact (hports.1 q hq).le.trans (Nat.zero_le _)
  case outputs =>
    intro p hp
    obtain ⟨q, hq, rfl⟩ := List.mem_map.mp hp
    exact (hports.2 q hq).le.trans (Nat.zero_le _)
  case memo => exact fun γs hm => by cases hm

theorem stable_upTo (revision : Nat) : Node.Stable (κ := κ) (Node.UpTo revision) where
  renumber _ _ h := ⟨h.inputs, h.outputs, h.memo⟩
  apply e n m h he := by
    have hmemo : ∀ γs, m.memo = some γs → ∀ γ ∈ γs, γ ≤ revision := by
      rw [(apply_eq_ok he).1]
      exact nofun
    refine ⟨?_, (apply_eq_ok he).2 ▸ h.outputs, hmemo⟩
    cases edited_of_apply he with
    | @fallback index v p q place _ edit =>
      intro x hx
      rcases List.mem_or_eq_of_mem_set hx with hx | rfl
      · exact h.inputs x hx
      · -- the edited input bears the number that it bore, or `0`
        rcases edit with rfl | rfl
        · exact h.inputs p (List.mem_of_getElem? place)
        · exact Nat.zero_le revision
    | _ => exact h.inputs

end Node

namespace Graph

/-- Newer than every generation that a node of the graph bears. -/
def Newer (g : Graph κ) (γ : Nat) : Prop :=
  ∀ n ∈ g.nodes, ∀ old ∈ n.generations, old < γ

namespace Passed

variable [Kernel κ] {settings : Settings} {g h : Graph κ} {r : Report} {verdict : NodeId → Verdict}
  {base top : NodeId → Nat} {n : Node κ}

/-- If no output is ahead of the clock before a pass, none is after it. -/
theorem outputs_le (hp : Passed settings g h r verdict base top)
    (hup : ∀ n ∈ g.nodes, n.UpTo g.revision) :
    ∀ n ∈ h.nodes, ∀ p ∈ n.outputs, p.generation ≤ h.revision := by
  intro n hn p hpn
  obtain ⟨m, hm, -, rfl⟩ := hp.exists_turned hn
  obtain ⟨hbase, htop⟩ := hp.ran.within _ (hp.mem_order hm)
  have hold : ∀ p ∈ m.outputs, p.generation ≤ base m.id := fun p hpm =>
    ((hup m hm).outputs p hpm).trans hbase
  exact ((hp.written hm).generation_le hold p hpn).trans htop

/-- If no generation is ahead of the clock before a pass, none is after it. -/
theorem upTo (hp : Passed settings g h r verdict base top)
    (hup : ∀ n ∈ g.nodes, n.UpTo g.revision) : ∀ n ∈ h.nodes, n.UpTo h.revision := by
  intro n hn
  have houtputs := hp.outputs_le hup
  obtain ⟨m, hm, -, rfl⟩ := hp.exists_turned hn
  have hinputs : ∀ p ∈ (h.fed m.restart).inputs, p.generation ≤ h.revision := by
    intro p hpm
    obtain ⟨i, hi, rfl⟩ := List.mem_mapIdx.mp hpm
    show (m.restart.inputs[i].resolve (h.feed? ⟨m.restart.id, i⟩)).generation ≤ h.revision
    cases hf : h.feed? ⟨m.restart.id, i⟩ with
    | none => exact Nat.zero_le _
    | some q =>
      obtain ⟨u, hu, hqu⟩ := mem_of_feed? hf
      exact houtputs u hu q hqu
  constructor
  case inputs =>
    rw [inputs_turned]
    exact hinputs
  case outputs => exact houtputs _ hn
  case memo =>
    have hold : ∀ γs, m.memo = some γs → ∀ γ ∈ γs, γ ≤ h.revision := fun γs hγs γ hγ =>
      ((hup m hm).memo γs hγs γ hγ).trans hp.ran.forward
    rw [turned]
    cases (h.fed m.restart).judge settings.memoization with
    | computed outs =>
      intro γs hγs γ hγ
      obtain rfl := Option.some.inj hγs
      obtain ⟨p, hpm, rfl⟩ := List.mem_map.mp hγ
      exact hinputs p hpm
    | reused => exact hold
    | failed e => exact hold

end Passed

end Graph

/-! ## What a pass makes of an output -/

/-- The outputs that a pass writes: all of a node that computed, and those of a failed node that
hold nothing and declare one kind, if failed outputs are filled. -/
def Report.Rewrites (settings : Settings) (r : Report) (id : NodeId) (p : Port) : Prop :=
  id ∈ r.computed ∨
    (∃ e, (id, e) ∈ r.failures) ∧ settings.zeroFill = true ∧ p.value = none ∧ ∃ k, p.emits? = some k

/-- What a pass over a graph makes of an output of a node. -/
inductive Port.Left (settings : Settings) (g : Graph κ) (r : Report) (id : NodeId) (p : Port) :
    Port → Prop where
  | kept (spared : ¬ r.Rewrites settings id p) : Left settings g r id p p
  | computed {v : Value} {γ : Nat} (mem : id ∈ r.computed) (new : g.Newer γ) :
      Left settings g r id p (p.write v γ)
  | zeroed {e : ComputeError} {k : ValueKind} {γ : Nat} (failed : (id, e) ∈ r.failures)
      (filled : settings.zeroFill = true) (empty : p.value = none) (emits : p.emits? = some k)
      (new : g.Newer γ) : Left settings g r id p (p.write k.zero γ)

namespace Port.Left

variable {settings : Settings} {g : Graph κ} {r : Report} {id : NodeId} {p q : Port}

/-- An output that holds a value is left alone unless its node computes. -/
theorem eq_of_not_mem (h : p.Left settings g r id q) (hid : id ∉ r.computed)
    (hv : p.value.isSome) : q = p := by
  cases h with
  | kept _ => rfl
  | computed mem _ => exact absurd mem hid
  | zeroed _ _ empty _ _ =>
    rw [empty] at hv
    cases hv

end Port.Left

/-- Every output that holds a value in `n` holds one in `m`. -/
def Node.Lasts (n m : Node κ) : Prop :=
  List.Forall₂ (fun p q => Option.isSome (Port.value p) → Option.isSome (Port.value q))
    n.outputs m.outputs

namespace Node.Lasts

variable {n m k : Node κ}

theorem of_eq (h : n.outputs = m.outputs) : n.Lasts m := by
  rw [Lasts, h]
  exact List.forall₂_same.mpr fun _ _ hv => hv

theorem trans (h : n.Lasts m) (hk : m.Lasts k) : n.Lasts k := by
  obtain ⟨hl, hv⟩ := List.forall₂_iff_get.mp h
  obtain ⟨hl', hv'⟩ := List.forall₂_iff_get.mp hk
  exact List.forall₂_iff_get.mpr ⟨hl.trans hl', fun i hi hi' hp =>
    hv' i (hl ▸ hi) hi' (hv i hi (hl ▸ hi) hp)⟩

end Node.Lasts

/-- What a pass over a graph writes to a node, and what it leaves alone. -/
structure Node.Left (settings : Settings) (g : Graph κ) (r : Report) (n m : Node κ) : Prop where
  outputs : List.Forall₂ (Port.Left settings g r n.id) n.outputs m.outputs
  lasts : n.Lasts m
  /-- A node that fails keeps its memo and the outputs that hold a value. -/
  failed : ∀ e, (n.id, e) ∈ r.failures → m.memo = n.memo ∧
    List.Forall₂ (fun p q => Option.isSome (Port.value p) → q = p) n.outputs m.outputs

namespace Graph

/-- The numbers on the outputs that changed from `g` to `h`, in the order of the nodes and of the
outputs of a node. -/
def stampsTo (g h : Graph κ) (order : List NodeId) : List Nat :=
  order.flatMap fun id =>
    ((g.node? id).bind fun n => (h.node? id).map fun m => Port.stamps n.outputs m.outputs).getD []

/-- What a pass from `g` to `h` wrote, and what it left alone. -/
structure Wrote (settings : Settings) (g h : Graph κ) (r : Report) : Prop where
  nodes : ∀ n ∈ g.nodes, ∃ m, h.node? n.id = some m ∧ n.Left settings g r m
  /-- No number is written twice, and later turns and later outputs get greater ones. -/
  ascending : (g.stampsTo h r.order).Pairwise (· < ·)

namespace Passed

variable [Kernel κ] {settings : Settings} {g h : Graph κ} {r : Report} {verdict : NodeId → Verdict}
  {base top : NodeId → Nat} {n : Node κ}

/-- A number that is drawn in a pass is newer than what was there. -/
theorem newer (hp : Passed settings g h r verdict base top) (hup : ∀ n ∈ g.nodes, n.UpTo g.revision)
    (hn : n ∈ g.nodes) {γ : Nat} (hγ : base n.id < γ) : g.Newer γ := fun m hm _ hold =>
  ((hup m hm).le hold).trans_lt ((hp.ran.within _ (hp.mem_order hn)).1.trans_lt hγ)

/-- The verdict on a node decides which of its outputs are rewritten. -/
theorem rewrites_iff (hp : Passed settings g h r verdict base top) (hn : n ∈ g.nodes) {p : Port} :
    r.Rewrites settings n.id p ↔ (verdict n.id).isComputed = true ∨
      (∃ e, (verdict n.id).error? = some e) ∧ settings.zeroFill = true ∧ p.value = none ∧
        ∃ k, p.emits? = some k := by
  simp only [Report.Rewrites, hp.mem_computed hn, hp.mem_failures hn]

/-- What a turn makes of the outputs of its node. -/
theorem left (hp : Passed settings g h r verdict base top) (hup : ∀ n ∈ g.nodes, n.UpTo g.revision)
    (hn : n ∈ g.nodes) : List.Forall₂ (Port.Left settings g r n.id) n.outputs
      (h.turned settings (base n.id) n.restart).outputs := by
  have hrewrites (p : Port) := hp.rewrites_iff (p := p) hn
  rw [turned, ← hp.verdict_eq hn]
  cases hv : verdict n.id with
  | computed outs =>
    have hres := Node.result_of_computed ((hp.verdict_eq hn).symm.trans hv)
    have hl : outs.length = n.outputs.length :=
      Node.length_of_result (n := h.fed n.restart) hres
    refine (Port.forall₂_writeAll (base n.id) hl).imp ?_
    rintro p q ⟨v, γ, hlt, rfl⟩
    exact .computed ((hp.mem_computed hn).mpr (by rw [hv]; rfl)) (hp.newer hup hn hlt)
  | reused =>
    refine List.forall₂_same.mpr fun p _ => .kept ?_
    simp [hrewrites, hv, Verdict.isComputed, Verdict.error?]
  | failed e =>
    cases hfill : settings.zeroFill with
    | false =>
      refine List.forall₂_same.mpr fun p _ => .kept ?_
      simp [hrewrites, hv, hfill, Verdict.isComputed]
    | true =>
      have hfailed : (n.id, e) ∈ r.failures := (hp.mem_failures hn).mpr (by rw [hv]; rfl)
      refine (Port.forall₂_fillZeros (base n.id) n.outputs).imp fun p q hpq => ?_
      cases hpq with
      | kept spared =>
        refine .kept ?_
        rw [hrewrites, hv]
        rintro (hno | ⟨-, -, hempty, k, hk⟩)
        · cases hno
        · exact spared k hempty hk
      | zero empty emits lt => exact .zeroed hfailed hfill empty emits (hp.newer hup hn lt)

/-- The numbers that the turn of a node writes. -/
theorem stampsTo_eq (hp : Passed settings g h r verdict base top) :
    g.stampsTo h r.order = r.order.flatMap fun id => ((g.node? id).map fun n =>
      Port.stamps n.outputs (h.turned settings (base n.id) n.restart).outputs).getD [] := by
  rw [stampsTo, List.flatMap_def, List.flatMap_def]
  congr 1
  refine List.map_congr_left fun id _ => ?_
  cases hn : g.node? id with
  | none => rfl
  | some n =>
    obtain ⟨hm, rfl⟩ := mem_of_node? hn
    rw [Option.bind_some, hp.node_eq hm, Option.map_some, Option.map_some]

/-- The numbers of a turn lie between those of the turns before and after it. -/
theorem within_stamps (hp : Passed settings g h r verdict base top) {id : NodeId} {γ : Nat}
    (hγ : γ ∈ ((g.node? id).map fun n =>
      Port.stamps n.outputs (h.turned settings (base n.id) n.restart).outputs).getD []) :
    base id < γ ∧ γ ≤ top id := by
  cases hn : g.node? id with
  | none =>
    rw [hn] at hγ
    exact absurd hγ List.not_mem_nil
  | some n =>
    obtain ⟨hm, rfl⟩ := mem_of_node? hn
    rw [hn] at hγ
    exact (hp.written hm).within_stamps γ hγ

/-- What a pass writes. -/
theorem wrote (hp : Passed settings g h r verdict base top)
    (hup : ∀ n ∈ g.nodes, n.UpTo g.revision) : Wrote settings g h r := by
  constructor
  case nodes =>
    intro n hn
    have hleft := hp.left hup hn
    refine ⟨_, hp.node_eq hn, hleft, (hp.written hn).lasts, fun e he => ?_⟩
    have hnot := hp.not_mem_computed (.inr ⟨e, he⟩)
    have hverdict := Verdict.error?_eq_some_iff.mp ((hp.mem_failures hn).mp he)
    refine ⟨?_, hleft.imp fun _ _ hpq => hpq.eq_of_not_mem hnot⟩
    rw [turned, ← hp.verdict_eq hn, hverdict]
    rfl
  case ascending =>
    rw [hp.stampsTo_eq]
    refine List.pairwise_flatMap.mpr ⟨fun id _ => ?_, hp.ran.apart.imp fun hapart γ hγ δ hδ => ?_⟩
    · cases hn : g.node? id with
      | none => exact .nil
      | some n =>
        obtain ⟨hm, rfl⟩ := mem_of_node? hn
        exact (hp.written hm).pairwise_stamps
    · -- the later turn takes its numbers from where the earlier one has left off
      have htop := (hp.within_stamps hγ).2
      have hbase := (hp.within_stamps hδ).1
      exact htop.trans_lt (hapart.trans_lt hbase)

end Passed

end Graph

/-- No edit takes a value from an output. -/
theorem Node.lasting_lasts [Kernel κ] : Node.Lasting (fun _ => True) (Node.Lasts (κ := κ)) where
  refl _ := .of_eq rfl
  trans := Node.Lasts.trans
  apply _ happlied := .of_eq (Node.apply_eq_ok happlied).2.symm

/-- Nor does a pass. -/
theorem Node.lastsTurns_lasts [Kernel κ] : Node.LastsTurns (Node.Lasts (κ := κ)) :=
  fun _ _ _ _ _ _ _ _ hp hn => (hp.written hn).lasts

/-! ## Sessions on one graph -/

namespace Session

variable [Kernel κ] {s : Session κ}

/-- An edit that is not a pass leaves the clock alone. -/
theorem revision_step (h : s.WellFormed) (hl : s.graphs.length = 1) {e : Edit κ}
    (hone : e.OnOneGraph) (he : ¬ e.IsPass) : (s.step e).2.graph.revision = s.graph.revision := by
  have hcurrent : ∀ {t : Session κ}, t.WellFormed → t.graphs.length = 1 →
      t.revisions[0]? = some t.graph.revision := by
    intro t ht htl
    have hzero : t.current = 0 := by
      have := ht.current
      omega
    rw [← hzero, revisions_current ht.current]
  have hafter := hcurrent (wellFormed_step h e) (length_graphs_step hl hone)
  have hlen : 0 < s.revisions.length := by
    rw [length_revisions, hl]
    exact Nat.one_pos
  rw [revisions_step s he, List.getElem?_append_left hlen, hcurrent h hl] at hafter
  exact (Option.some.inj hafter).symm

/-- No generation is ahead of the clock after an edit if none was before it. -/
theorem upTo_step (h : s.WellFormed) (hl : s.graphs.length = 1)
    (hup : s.Everywhere (Node.UpTo s.graph.revision)) {e : Edit κ} (hone : e.OnOneGraph)
    (hun : e.Unstamped) : (s.step e).2.Everywhere (Node.UpTo (s.step e).2.graph.revision) := by
  by_cases he : e.IsPass
  · obtain ⟨settings, rfl⟩ := he
    simp only [step, evaluate]
    cases hg : s.graph.evaluate settings with
    | error err => exact hup
    | ok gr =>
      obtain ⟨verdict, base, top, hp⟩ := Graph.evaluate_spec h.graph hg
      simp only [graph_setGraph h.current]
      -- the clock went forward, for the nodes that are held as well
      exact (hup.mono fun n hn => hn.mono hp.ran.forward).setGraph (hp.upTo hup.graph)
  · rw [revision_step h hl hone he]
    exact hup.step (Node.stable_upTo _) he fun d id hd => Node.upTo_draft (hun d hd) id _

/-- In a session on one graph no generation is ahead of the clock. -/
theorem upTo_run (h : s.WellFormed) (hl : s.graphs.length = 1)
    (hup : s.Everywhere (Node.UpTo s.graph.revision)) {es : List (Edit κ)}
    (hone : ∀ e ∈ es, e.OnOneGraph) (hun : ∀ e ∈ es, e.Unstamped) :
    (s.run es).Everywhere (Node.UpTo (s.run es).graph.revision) := by
  induction es generalizing s with
  | nil => exact hup
  | cons e es ih =>
    obtain ⟨hone, hones⟩ := List.forall_mem_cons.mp hone
    obtain ⟨hun, huns⟩ := List.forall_mem_cons.mp hun
    exact ih (wellFormed_step h e) (length_graphs_step hl hone) (upTo_step h hl hup hone hun) hones
      huns

/-- What a pass of a session on one graph writes: all outputs of nodes that compute and, if failed
outputs are filled, empty outputs of nodes that fail, with numbers that ascend and that are newer
than all in the graph. So whatever else is done, an output that holds a value never loses it. -/
theorem evaluate_wrote (name : String) {es : List (Edit κ)} (hone : ∀ e ∈ es, e.OnOneGraph)
    (hun : ∀ e ∈ es, e.Unstamped) {settings : Settings} {g : Graph κ} {r : Report}
    (he : ((start name).run es).graph.evaluate settings = .ok (g, r)) :
    Graph.Wrote settings ((start name).run es).graph g r ∧
    ∀ later : List (Edit κ), (∀ e ∈ later, e.OnOneGraph) → ∀ n ∈ ((start name).run es).graph.nodes,
      ∀ m, (((start name).run es).run later).graph.node? n.id = some m → n.Lasts m := by
  have hw := wellFormed_run (.start (κ := κ) name) es
  have hl := length_graphs_run (s := start name) rfl hone
  constructor
  · have hup := upTo_run (.start name) rfl (.start name) hone hun
    obtain ⟨verdict, base, top, hp⟩ := Graph.evaluate_spec hw.graph he
    exact hp.wrote hup.graph
  · intro later hlater n hn m hm
    have hid := hw.issued _ hw.graph_mem _ (List.mem_map_of_mem hn)
    obtain ⟨n', hn', hlasts⟩ := lasting_run Node.lasting_lasts hw hl hlater
      (.inr Node.lastsTurns_lasts) (fun _ _ => trivial) hid hm
    rw [Graph.node?_of_mem hw.graph.nodup hn] at hn'
    exact Option.some.inj hn' ▸ hlasts

/-- A colour feeds an image, a sum falls back on zeros, and a source has lost its pixels. After a
pass the colour is to be computed again. -/
def refreshing : List (Edit Builtin) := [
  .add (.ofKernel (.colorConstant .white)), .add (.ofKernel (.solidColorOf 1 1)),
  .add (.ofKernel (.math .add)), .add (.ofKernel (.imageSource ⟨⟨1, 1⟩, []⟩)),
  .connect ⟨2, 0⟩ ⟨4, 0⟩, .evaluate .standard, .node (.node 2) .invalidate]

/-- The first pass wrote four numbers, one of them to the source that fails, with a zero image. The
second pass writes three, and leaves the source alone. -/
theorem evaluate_wrote_refreshing : ∃ g r,
    ((start "refreshing").run refreshing).graph.evaluate .standard = .ok (g, r) ∧
    ((start "refreshing").run refreshing).graph.revision = 4 ∧
    ((start "refreshing").run refreshing).graph.stampsTo g r.order = [5, 6, 7] ∧
    r.failures.map Prod.fst = [8] ∧
    Graph.Wrote .standard ((start "refreshing").run refreshing).graph g r := by
  have hread : (((start "refreshing").run refreshing).graph.evaluate .standard).toOption.map
      (fun gr => (((start "refreshing").run refreshing).graph.revision,
        ((start "refreshing").run refreshing).graph.stampsTo gr.1 gr.2.order,
          gr.2.failures.map Prod.fst)) = some (4, [5, 6, 7], [8]) := by
    decide +kernel
  obtain ⟨g, r, he, hr⟩ := Graph.exists_of_evaluate hread
  simp only [Prod.mk.injEq] at hr
  refine ⟨g, r, he, hr.1, hr.2.1, hr.2.2, (evaluate_wrote "refreshing" ?_ ?_ he).1⟩
  · simp [refreshing, Edit.OnOneGraph]
  · exact fun e _ => Builtin.unstamped e

end Session

end TextureFlow
