import Mathlib
import TextureFlow.Proofs.Memo

/-!
# Why a node fails

The errors of a pass, stated apart from the evaluator. `Node.Fault` says by positions which input is
the first to be refused, and which output is the first of a wrong kind; between the two stand the
kernel's own errors and the count of its outputs.

* `Node.fault_iff`: the faults of a node are what computing gives.
-/

namespace TextureFlow

/-! ## Faults -/

namespace Port

/-- Whether an input holds a value that it accepts. -/
def Ready (p : Port) : Prop :=
  ∃ v, p.value = some v ∧ p.accepts v.kind = true

/-- Why an input is refused at a position. -/
inductive Refuses (index : Nat) (p : Port) : ComputeError → Prop where
  | missing (empty : p.value = none) : Refuses index p (.missingInput index p.name)
  | kind {v : Value} (held : p.value = some v) (strange : p.accepts v.kind = false) :
      Refuses index p (.inputKind index (.accepted p.accepted) v.kind)

theorem gather_cons_of_refuses {index : Nat} {p : Port} {ports : List Port} {e : ComputeError}
    (h : p.Refuses index e) : gather index (p :: ports) = .error e := by
  cases h with
  | missing empty => rw [gather, empty]
  | kind held strange => simp only [gather, held, strange, Bool.false_eq_true, if_false]

theorem gather_cons_of_ready {index : Nat} {p : Port} {ports : List Port} {v : Value}
    (hv : p.value = some v) (ha : p.accepts v.kind = true) :
    gather index (p :: ports) = (v :: ·) <$> gather (index + 1) ports := by
  simp only [gather, hv, ha, if_true]

theorem ready_or_refuses (index : Nat) (p : Port) : p.Ready ∨ ∃ e, p.Refuses index e := by
  cases hv : p.value with
  | none => exact .inr ⟨_, .missing hv⟩
  | some v =>
    cases ha : p.accepts v.kind with
    | true => exact .inl ⟨v, hv, ha⟩
    | false => exact .inr ⟨_, .kind hv ha⟩

/-- Gathering succeeds exactly when every input is ready. -/
theorem gather_eq_ok_iff {index : Nat} {ports : List Port} {values : List Value} :
    gather index ports = .ok values ↔
      (∀ p ∈ ports, p.Ready) ∧ ports.map value = values.map some := by
  constructor
  · refine fun h => ⟨?_, map_value_of_gather h⟩
    induction ports generalizing index values with
    | nil => exact fun p hp => absurd hp List.not_mem_nil
    | cons p ports ih =>
      obtain ⟨v, rest, hv, ha, hg, -⟩ := gather_cons_eq_ok h
      exact List.forall_mem_cons.mpr ⟨⟨v, hv, ha⟩, ih hg⟩
  · rintro ⟨hr, hm⟩
    induction ports generalizing index values with
    | nil =>
      obtain rfl := List.map_eq_nil_iff.mp hm.symm
      rfl
    | cons p ports ih =>
      obtain ⟨⟨v, hv, ha⟩, hrest⟩ := List.forall_mem_cons.mp hr
      cases values with
      | nil => cases hm
      | cons w values =>
        obtain ⟨hw, hms⟩ := List.cons.inj hm
        rw [hv] at hw
        obtain rfl := Option.some.inj hw
        rw [gather_cons_of_ready hv ha, ih hrest hms]
        rfl

/-- Gathering fails at the first input that is not ready. -/
theorem gather_eq_error_iff {index : Nat} {ports : List Port} {e : ComputeError} :
    gather index ports = .error e ↔
      ∃ i p, ports[i]? = some p ∧ (∀ q ∈ ports.take i, q.Ready) ∧ p.Refuses (index + i) e := by
  induction ports generalizing index with
  | nil => simp [gather]
  | cons p ports ih =>
    constructor
    · intro h
      rcases ready_or_refuses index p with ⟨v, hv, ha⟩ | ⟨e', he'⟩
      · rw [gather_cons_of_ready hv ha] at h
        have hrest : gather (index + 1) ports = .error e := by
          cases hg : gather (index + 1) ports with
          | ok values => rw [hg] at h; cases h
          | error e' => rw [hg] at h; cases h; rfl
        obtain ⟨i, q, hq, hbefore, hr⟩ := ih.mp hrest
        refine ⟨i + 1, q, hq, ?_, by rwa [← Nat.add_assoc, Nat.add_right_comm]⟩
        exact List.forall_mem_cons.mpr ⟨⟨v, hv, ha⟩, hbefore⟩
      · rw [gather_cons_of_refuses he'] at h
        cases h
        exact ⟨0, p, rfl, fun q hq => absurd hq List.not_mem_nil, he'⟩
    · rintro ⟨i, q, hq, hbefore, hr⟩
      cases i with
      | zero =>
        obtain rfl := Option.some.inj hq
        exact gather_cons_of_refuses hr
      | succ i =>
        obtain ⟨⟨v, hv, ha⟩, hbefore⟩ := List.forall_mem_cons.mp hbefore
        rw [← Nat.add_assoc, Nat.add_right_comm] at hr
        rw [gather_cons_of_ready hv ha, ih.mpr ⟨i, q, hq, hbefore, hr⟩]
        rfl

/-- Whether a value is of the kind that an output declares. -/
def Fit (p : Port) (v : Value) : Prop :=
  ∀ k, p.emits? = some k → v.kind = k

theorem mismatch?_cons_of_fit {index : Nat} {p : Port} {ports : List Port} {v : Value}
    {values : List Value} (h : p.Fit v) :
    mismatch? index (p :: ports) (v :: values) = mismatch? (index + 1) ports values := by
  cases hk : p.emits? with
  | none => simp only [mismatch?, hk]
  | some k => simp only [mismatch?, hk, h k hk, if_true]

theorem mismatch?_cons_of_ne {index : Nat} {p : Port} {ports : List Port} {v : Value}
    {values : List Value} {k : ValueKind} (hk : p.emits? = some k) (hne : v.kind ≠ k) :
    mismatch? index (p :: ports) (v :: values) = some (.outputKind index k v.kind) := by
  simp only [mismatch?, hk, hne, if_false]

/-- A mismatch is the first value that does not fit its output. -/
theorem mismatch?_eq_some_iff {index : Nat} {ports : List Port} {values : List Value}
    {e : ComputeError} :
    mismatch? index ports values = some e ↔
      ∃ i p v k, (ports.zip values)[i]? = some (p, v) ∧
        (∀ qw ∈ (ports.zip values).take i, qw.1.Fit qw.2) ∧ p.emits? = some k ∧ v.kind ≠ k ∧
        e = .outputKind (index + i) k v.kind := by
  induction ports generalizing index values with
  | nil => simp [mismatch?]
  | cons p ports ih =>
    cases values with
    | nil => simp [mismatch?]
    | cons v values =>
      constructor
      · intro h
        by_cases hf : p.Fit v
        · rw [mismatch?_cons_of_fit hf] at h
          obtain ⟨i, q, w, k, hq, hbefore, hk, hne, he⟩ := ih.mp h
          refine ⟨i + 1, q, w, k, hq, List.forall_mem_cons.mpr ⟨hf, hbefore⟩, hk, hne, ?_⟩
          rw [he, Nat.add_right_comm, Nat.add_assoc]
        · obtain ⟨k, hk, hne⟩ : ∃ k, p.emits? = some k ∧ v.kind ≠ k := by
            simpa [Fit] using hf
          rw [mismatch?_cons_of_ne hk hne] at h
          exact ⟨0, p, v, k, rfl, fun q hq => absurd hq List.not_mem_nil, hk, hne,
            (Option.some.inj h).symm⟩
      · rintro ⟨i, q, w, k, hq, hbefore, hk, hne, rfl⟩
        cases i with
        | zero =>
          obtain ⟨rfl, rfl⟩ := Prod.mk.inj (Option.some.inj hq)
          exact mismatch?_cons_of_ne hk hne
        | succ i =>
          obtain ⟨hf, hbefore⟩ := List.forall_mem_cons.mp hbefore
          rw [mismatch?_cons_of_fit hf]
          refine ih.mpr ⟨i, q, w, k, hq, hbefore, hk, hne, ?_⟩
          rw [Nat.add_right_comm, Nat.add_assoc]

end Port

namespace Node

variable {κ : Type} [Kernel κ] {n : Node κ}

/-- The values that the inputs hold, when all of them are ready. -/
def Feeds (n : Node κ) (values : List Value) : Prop :=
  (∀ p ∈ n.inputs, p.Ready) ∧ n.inputs.map Port.value = values.map some

/-- Why a node cannot compute on the values that its inputs hold. -/
inductive Fault (n : Node κ) : ComputeError → Prop where
  /-- The first input that is not ready. -/
  | input {i : Nat} {p : Port} {e : ComputeError} (place : n.inputs[i]? = some p)
      (before : ∀ q ∈ n.inputs.take i, q.Ready) (refuses : p.Refuses i e) : Fault n e
  /-- The kernel itself fails. -/
  | compute {values : List Value} {e : ComputeError} (feeds : n.Feeds values)
      (fails : Kernel.compute n.kernel values = .error e) : Fault n e
  /-- The kernel gives too few values or too many. -/
  | count {values outs : List Value} (feeds : n.Feeds values)
      (gives : Kernel.compute n.kernel values = .ok outs)
      (strange : outs.length ≠ n.outputs.length) :
      Fault n (.outputCount n.outputs.length outs.length)
  /-- The first value that is not of the kind its output declares. -/
  | kind {values outs : List Value} {i : Nat} {p : Port} {v : Value} {k : ValueKind}
      (feeds : n.Feeds values) (gives : Kernel.compute n.kernel values = .ok outs)
      (count : outs.length = n.outputs.length) (place : (n.outputs.zip outs)[i]? = some (p, v))
      (before : ∀ qw ∈ (n.outputs.zip outs).take i, qw.1.Fit qw.2) (emits : p.emits? = some k)
      (strange : v.kind ≠ k) : Fault n (.outputKind i k v.kind)

omit [Kernel κ] in
theorem checkOutputs_eq_error_iff {outs : List Value} {e : ComputeError} :
    n.checkOutputs outs = .error e ↔
      (outs.length ≠ n.outputs.length ∧ e = .outputCount n.outputs.length outs.length) ∨
        (outs.length = n.outputs.length ∧ Port.mismatch? 0 n.outputs outs = some e) := by
  unfold checkOutputs
  by_cases hl : outs.length = n.outputs.length
  · rw [if_neg (not_not.mpr hl)]
    cases hm : Port.mismatch? 0 n.outputs outs with
    | none => simp [hl]
    | some e' => simp [hl]
  · rw [if_pos hl]
    simp [hl, eq_comm]

omit [Kernel κ] in
theorem feeds_iff {values : List Value} :
    n.Feeds values ↔ Port.gather 0 n.inputs = .ok values :=
  Port.gather_eq_ok_iff.symm

/-- Computing on the inputs of a node gives the fault that it has. -/
theorem Fault.result {e : ComputeError} (h : n.Fault e) : n.result = .error e := by
  cases h with
  | input place before refuses =>
    have hg : Port.gather 0 n.inputs = .error e :=
      Port.gather_eq_error_iff.mpr ⟨_, _, place, before, (Nat.zero_add _).symm ▸ refuses⟩
    rw [Node.result, hg]
    rfl
  | compute feeds fails =>
    rw [Node.result, feeds_iff.mp feeds]
    simp only [bind, Except.bind, outcome, fails]
  | count feeds gives strange =>
    rw [Node.result, feeds_iff.mp feeds]
    simp only [bind, Except.bind, outcome, gives]
    exact checkOutputs_eq_error_iff.mpr (.inl ⟨strange, rfl⟩)
  | kind feeds gives count place before emits strange =>
    rw [Node.result, feeds_iff.mp feeds]
    simp only [bind, Except.bind, outcome, gives]
    refine checkOutputs_eq_error_iff.mpr (.inr ⟨count, Port.mismatch?_eq_some_iff.mpr ?_⟩)
    exact ⟨_, _, _, _, place, before, emits, strange, by rw [Nat.zero_add]⟩

/-- Whatever error computing gives is a fault of the node. -/
theorem fault_of_result {e : ComputeError} (h : n.result = .error e) : n.Fault e := by
  cases hg : Port.gather 0 n.inputs with
  | error e' =>
    rw [result, hg] at h
    cases h
    obtain ⟨i, p, hp, hbefore, hr⟩ := Port.gather_eq_error_iff.mp hg
    exact .input hp hbefore (Nat.zero_add i ▸ hr)
  | ok values =>
    have hf := feeds_iff.mpr hg
    simp only [result, hg, bind, Except.bind, outcome] at h
    cases hc : Kernel.compute n.kernel values with
    | error e' =>
      rw [hc] at h
      cases h
      exact .compute hf hc
    | ok outs =>
      rw [hc] at h
      -- the kernel is content, so one of the two checks of its outputs is not
      rcases checkOutputs_eq_error_iff.mp h with ⟨hl, rfl⟩ | ⟨hl, hm⟩
      · exact .count hf hc hl
      · obtain ⟨i, p, v, k, hp, hbefore, hk, hne, rfl⟩ := Port.mismatch?_eq_some_iff.mp hm
        rw [Nat.zero_add]
        exact .kind hf hc hl hp hbefore hk hne

/-- The faults of a node are what computing gives. -/
theorem fault_iff {e : ComputeError} : n.Fault e ↔ n.result = .error e :=
  ⟨Fault.result, fault_of_result⟩

end Node

end TextureFlow
