import Mathlib
import TextureFlow.Proofs.Everywhere
import TextureFlow.Proofs.Pass

/-!
# What memos and generations stand for

A memo is a list of bare numbers. What it stands for is stated against the values that numbers were
given to: `T γ v` says that the value `v` was stamped with the generation `γ`. A node is `Traced`
when each of its outputs holds a value that was stamped with its generation, and when its memo, read
through `T` and through the fallbacks for `0`, names inputs from which its kernel computes the
outputs that it holds.

* `Port.Written.fresh`, `Port.Written.stamped`: the numbers that a turn writes are new and distinct;
* `Node.exists_of_reused`: the outputs that a node keeps were computed from remembered inputs, and
  the present inputs have the same generations;
* `Node.Traced.conclude`: a turn keeps nodes traced;
* `Node.honest_judge`: where no number was given to two values, memos change no verdict.
-/

namespace TextureFlow

/-! ## Stamps -/

/-- Which values were stamped with a generation. -/
abbrev Stamps := Nat → Value → Prop

namespace Stamps

/-- No generation was given to two values. -/
def Single (T : Stamps) : Prop :=
  ∀ γ v w, T γ v → T γ w → v = w

/-- Every generation comes after the first revision and not after the second, and was given to one
value. -/
structure Fresh (lo hi : Nat) (T : Stamps) : Prop where
  above : ∀ γ v, T γ v → lo < γ
  upTo : ∀ γ v, T γ v → γ ≤ hi
  single : T.Single

theorem Fresh.mono {lo lo' hi hi' : Nat} {T : Stamps} (h : Fresh lo hi T) (hl : lo' ≤ lo)
    (hh : hi ≤ hi') : Fresh lo' hi' T :=
  ⟨fun γ v ht => hl.trans_lt (h.above γ v ht), fun γ v ht => (h.upTo γ v ht).trans hh, h.single⟩

/-- Later generations do not meet earlier ones. -/
theorem Single.sup {lo hi : Nat} {T U : Stamps} (hT : T.Single) (hlo : ∀ γ v, T γ v → γ ≤ lo)
    (hU : Fresh lo hi U) : (T ⊔ U).Single := by
  rintro γ v w (hv | hv) (hw | hw)
  · exact hT γ v w hv hw
  · exact absurd (hlo γ v hv) (Nat.not_le.mpr (hU.above γ w hw))
  · exact absurd (hlo γ w hw) (Nat.not_le.mpr (hU.above γ v hv))
  · exact hU.single γ v w hv hw

end Stamps

/-! ## Outputs -/

namespace Port

/-- What an output holds was stamped with its generation, which is not `0`. -/
def Stamped (T : Stamps) (p : Port) : Prop :=
  ∀ v, p.value = some v → p.generation ≠ 0 ∧ T p.generation v

theorem Stamped.mono {T U : Stamps} (hT : T ≤ U) {p : Port} (h : p.Stamped T) : p.Stamped U :=
  fun v hv => ⟨(h v hv).1, hT _ _ (h v hv).2⟩

/-- The stamps on those ports of a list that are written, where `qs` are the ports after it. -/
def puts (writes : Port → Prop) (ps qs : List Port) : Stamps :=
  fun γ v => ∃ pq ∈ ps.zip qs, writes pq.1 ∧ pq.2.generation = γ ∧ pq.2.value = some v

theorem puts_cons {writes : Port → Prop} {p q : Port} {ps qs : List Port} {γ : Nat} {v : Value} :
    puts writes (p :: ps) (q :: qs) γ v ↔
      (writes p ∧ q.generation = γ ∧ q.value = some v) ∨ puts writes ps qs γ v := by
  simp only [puts, List.zip_cons_cons, List.mem_cons, exists_eq_or_imp]

/-- Writing along a list of ports, from one revision to another. A port that is not written holds
nothing, or is not one of those that may be written. -/
inductive Written (writes : Port → Prop) : Nat → List Port → Nat → List Port → Prop where
  | nil (revision : Nat) : Written writes revision [] revision []
  | keep {lo mid hi : Nat} {p : Port} {ps qs : List Port} (empty : writes p → p.value = none)
      (le : lo ≤ mid) (rest : Written writes mid ps hi qs) :
      Written writes lo (p :: ps) hi (p :: qs)
  | write {lo hi : Nat} {p : Port} {ps qs : List Port} (v : Value) (may : writes p)
      (rest : Written writes (lo + 1) ps hi qs) :
      Written writes lo (p :: ps) hi (p.write v (lo + 1) :: qs)

namespace Written

variable {writes : Port → Prop} {lo hi : Nat} {ps qs : List Port}

theorem le (h : Written writes lo ps hi qs) : lo ≤ hi := by
  induction h with
  | nil => exact le_rfl
  | keep _ le _ ih => exact le.trans ih
  | write _ _ _ ih => exact (Nat.le_succ _).trans ih

/-- Writing gives every number to one value. -/
theorem fresh (h : Written writes lo ps hi qs) : Stamps.Fresh lo hi (puts writes ps qs) := by
  induction h with
  | nil => exact ⟨by simp [puts], by simp [puts], by simp [Stamps.Single, puts]⟩
  | @keep lo mid hi p ps qs empty le rest ih =>
    -- a port that is kept adds no stamp
    have hp : puts writes (p :: ps) (p :: qs) = puts writes ps qs := by
      funext γ v
      refine propext (puts_cons.trans (or_iff_right ?_))
      rintro ⟨hw, -, hv⟩
      rw [empty hw] at hv
      cases hv
    rw [hp]
    exact ih.mono le le_rfl
  | @write lo hi p ps qs v may rest ih =>
    -- a stamp is the first number with its value, or one of the later numbers
    have hcases : ∀ γ w, puts writes (p :: ps) (p.write v (lo + 1) :: qs) γ w →
        (γ = lo + 1 ∧ w = v) ∨ puts writes ps qs γ w := fun γ w hw =>
      (puts_cons.mp hw).imp_left fun h => ⟨h.2.1.symm, (Option.some.inj h.2.2).symm⟩
    constructor
    case above =>
      intro γ w hw
      obtain ⟨rfl, -⟩ | hw := hcases γ w hw
      · exact Nat.lt_succ_self lo
      · exact (Nat.lt_succ_self lo).trans (ih.above γ w hw)
    case upTo =>
      intro γ w hw
      obtain ⟨rfl, -⟩ | hw := hcases γ w hw
      · exact rest.le
      · exact ih.upTo γ w hw
    case single =>
      intro γ w w' hw hw'
      obtain ⟨rfl, rfl⟩ | hs := hcases γ w hw <;> obtain ⟨he, rfl⟩ | hs' := hcases _ w' hw'
      · rfl
      · exact absurd (ih.above _ _ hs') (Nat.lt_irrefl _)
      · exact absurd (he ▸ ih.above _ _ hs) (Nat.lt_irrefl _)
      · exact ih.single γ w w' hs hs'

/-- After writing, a port is one of those before, or all that it holds was put there. -/
theorem mem_cases (h : Written writes lo ps hi qs) {q : Port} (hq : q ∈ qs) :
    q ∈ ps ∨ q.generation ≠ 0 ∧ ∀ v, q.value = some v → puts writes ps qs q.generation v := by
  induction h with
  | nil => exact absurd hq List.not_mem_nil
  | keep _ _ _ ih =>
    rcases List.mem_cons.mp hq with rfl | hq
    · exact .inl List.mem_cons_self
    · exact (ih hq).imp (List.mem_cons_of_mem _)
        fun ⟨hne, hput⟩ => ⟨hne, fun v hv => puts_cons.mpr (.inr (hput v hv))⟩
  | @write lo hi p ps qs v may _ ih =>
    rcases List.mem_cons.mp hq with rfl | hq
    · exact .inr ⟨Nat.succ_ne_zero lo, fun w hw => puts_cons.mpr (.inl ⟨may, rfl, hw⟩)⟩
    · exact (ih hq).imp (List.mem_cons_of_mem _)
        fun ⟨hne, hput⟩ => ⟨hne, fun v hv => puts_cons.mpr (.inr (hput v hv))⟩

/-- After writing, every port holds what it held before or what was put there. -/
theorem stamped {T : Stamps} (h : Written writes lo ps hi qs) (hp : ∀ p ∈ ps, p.Stamped T) :
    ∀ q ∈ qs, q.Stamped (T ⊔ puts writes ps qs) := by
  intro q hq
  rcases h.mem_cases hq with hold | ⟨hne, hput⟩
  · exact (hp q hold).mono le_sup_left
  · exact fun v hv => ⟨hne, .inr (hput v hv)⟩

/-- A port that holds something is written exactly if it may be, with a number that comes after the
first revision. -/
theorem getElem?_of_holds (h : Written writes lo ps hi qs) {j : Nat} {p : Port}
    (hp : ps[j]? = some p) (hv : p.value ≠ none) :
    (¬ writes p ∧ qs[j]? = some p) ∨
      (writes p ∧ ∃ q, qs[j]? = some q ∧ lo < q.generation) := by
  induction h generalizing j with
  | nil => cases hp
  | keep empty le rest ih =>
    cases j with
    | zero =>
      obtain rfl := Option.some.inj hp
      exact .inl ⟨fun hw => hv (empty hw), rfl⟩
    | succ j =>
      refine (ih hp).imp_right fun ⟨hw, q, hq, hlt⟩ => ⟨hw, q, hq, le.trans_lt hlt⟩
  | @write lo hi p' ps qs v may rest ih =>
    cases j with
    | zero =>
      obtain rfl := Option.some.inj hp
      exact .inr ⟨may, _, rfl, Nat.lt_succ_self lo⟩
    | succ j =>
      refine (ih hp).imp_right fun ⟨hw, q, hq, hlt⟩ => ⟨hw, q, hq, (Nat.lt_succ_self lo).trans hlt⟩

/-- Ports that hold something, or may not be written, may all be kept. -/
theorem refl (revision : Nat) (h : ∀ p ∈ ps, writes p → p.value = none) :
    Written writes revision ps revision ps := by
  induction ps with
  | nil => exact .nil revision
  | cons p ps ih =>
    exact .keep (h p List.mem_cons_self) le_rfl
      (ih fun q hq => h q (List.mem_cons_of_mem _ hq))

end Written

/-- New values are written to all outputs. -/
theorem written_writeAll {writes : Port → Prop} (hw : ∀ p, writes p) (revision : Nat)
    {ports : List Port} {values : List Value} (hl : values.length = ports.length) :
    Written writes revision ports (revision + values.length) (writeAll revision ports values) := by
  induction ports generalizing revision values with
  | nil =>
    obtain rfl := List.length_eq_zero_iff.mp hl
    exact .nil revision
  | cons p ports ih =>
    cases values with
    | nil => cases hl
    | cons v values =>
      have h := ih (revision + 1) (Nat.succ.inj hl)
      rw [Nat.add_right_comm] at h
      exact .write v (hw p) h

/-- Zeros are written to outputs without a value. -/
theorem written_fillZeros {writes : Port → Prop} (hw : ∀ p, writes p ↔ p.value = none)
    (revision : Nat) (ports : List Port) :
    Written writes revision ports (revision + missing ports) (fillZeros revision ports) := by
  induction ports generalizing revision with
  | nil => exact .nil revision
  | cons p ports ih =>
    cases hv : p.value with
    | some v =>
      have hm : missing (p :: ports) = missing ports := by simp [missing, hv]
      rw [hm, fillZeros, hv]
      exact .keep (hw p).mp le_rfl (ih revision)
    | none =>
      have hm : revision + missing (p :: ports) = revision + 1 + missing ports := by
        simp only [missing, List.countP_cons, hv, Option.isNone_none, if_true]
        omega
      rw [hm, fillZeros, hv]
      cases hk : p.emits? with
      | none => exact .keep (hw p).mp (Nat.le_succ _) (ih (revision + 1))
      | some k => exact .write k.zero ((hw p).mpr hv) (ih (revision + 1))

theorem map_value_writeAll (revision : Nat) {ports : List Port} {values : List Value}
    (hl : values.length = ports.length) :
    (writeAll revision ports values).map value = values.map some := by
  induction ports generalizing revision values with
  | nil =>
    obtain rfl := List.length_eq_zero_iff.mp hl
    rfl
  | cons p ports ih =>
    cases values with
    | nil => cases hl
    | cons v values =>
      rw [writeAll, List.map_cons, ih (revision + 1) (Nat.succ.inj hl)]
      rfl

/-- There is nothing to fill where every output holds a value. -/
theorem fillZeros_of_full (revision : Nat) {ports : List Port} {values : List Value}
    (h : ports.map value = values.map some) : fillZeros revision ports = ports := by
  induction ports generalizing values with
  | nil => rfl
  | cons p ports ih =>
    cases values with
    | nil => cases h
    | cons v values =>
      obtain ⟨hv, hrest⟩ := List.cons.inj h
      simp only [fillZeros, hv, ih hrest]

/-! ## Inputs -/

/-- Gathering goes on where an input holds a value that it accepts. -/
theorem gather_cons_eq_ok {index : Nat} {p : Port} {ports : List Port} {values : List Value}
    (h : gather index (p :: ports) = .ok values) :
    ∃ v rest, p.value = some v ∧ p.accepts v.kind = true ∧ gather (index + 1) ports = .ok rest ∧
      values = v :: rest := by
  unfold gather at h
  cases hv : p.value with
  | none => simp [hv] at h
  | some v =>
    by_cases ha : p.accepts v.kind = true
    · cases hg : gather (index + 1) ports with
      | error e => simp [hv, ha, hg] at h
      | ok rest =>
        simp only [hv, ha, hg, if_true, Except.map_ok, Except.ok.injEq] at h
        exact ⟨v, rest, rfl, ha, rfl, h.symm⟩
    · simp [hv, ha] at h

/-- What is gathered is what the inputs hold. -/
theorem map_value_of_gather {index : Nat} {ports : List Port} {values : List Value}
    (h : gather index ports = .ok values) : ports.map value = values.map some := by
  induction ports generalizing index values with
  | nil =>
    cases h
    rfl
  | cons p ports ih =>
    obtain ⟨v, rest, hv, -, hg, rfl⟩ := gather_cons_eq_ok h
    rw [List.map_cons, List.map_cons, hv, ih hg]

/-- Inputs that a computation cannot tell apart. -/
structure Matches (p q : Port) : Prop where
  name : q.name = p.name
  accepted : q.accepted = p.accepted
  value : q.value = p.value

theorem forall₂_value_iff {ports ports' : List Port} :
    List.Forall₂ (fun p q => q.value = p.value) ports ports' ↔
      ports'.map value = ports.map value := by
  rw [← List.forall₂_eq_eq_eq, List.forall₂_map_left_iff, List.forall₂_map_right_iff]
  exact ⟨fun h => h.flip, fun h => h.flip⟩

theorem gather_congr {ports ports' : List Port} (h : List.Forall₂ Matches ports ports')
    (index : Nat) : gather index ports' = gather index ports := by
  induction h generalizing index with
  | nil => rfl
  | @cons p q ports ports' hpq _ ih =>
    have haccepts : q.accepts = p.accepts := by
      funext k
      rw [accepts, accepts, hpq.accepted]
    rw [gather, gather, hpq.value, hpq.name, hpq.accepted, haccepts, ih]

/-- A generation may stand for a value at an input: for the fallback if it is `0`, and otherwise for
a value that was stamped with it. -/
def Explains (T : Stamps) (p : Port) (γ : Nat) (v : Value) : Prop :=
  (γ = 0 ∧ p.fallback = some v) ∨ (γ ≠ 0 ∧ T γ v)

namespace Explains

variable {T U : Stamps} {p q : Port} {γ : Nat} {v w : Value}

theorem mono (hT : T ≤ U) (h : p.Explains T γ v) : p.Explains U γ v :=
  h.imp_right (And.imp_right (hT γ v))

/-- `0` stands for the fallback and no other generation does. So where inputs with one fallback have
a generation that stands for two values, it was given to both. -/
theorem conflict (hv : p.Explains T γ v) (hw : q.Explains T γ w) (hf : q.fallback = p.fallback)
    (hne : v ≠ w) : T γ v ∧ T γ w := by
  rcases hv with ⟨rfl, hv⟩ | ⟨h0, hv⟩ <;> rcases hw with ⟨h0', hw⟩ | ⟨h0', hw⟩
  · exact absurd (Option.some.inj (hv.symm.trans (hf.symm.trans hw))) hne
  · exact absurd rfl h0'
  · exact absurd h0' h0
  · exact ⟨hv, hw⟩

/-- If no generation was given to two values, a generation stands for at most one. -/
theorem unique (hT : T.Single) (hv : p.Explains T γ v) (hw : q.Explains T γ w)
    (hf : q.fallback = p.fallback) : v = w := by
  by_contra hne
  obtain ⟨hTv, hTw⟩ := hv.conflict hw hf hne
  exact hne (hT γ v w hTv hTw)

end Explains

/-- Generations that may stand for values, input by input. -/
inductive Explained (T : Stamps) : List Port → List Nat → List Value → Prop where
  | nil : Explained T [] [] []
  | cons {p : Port} {ports : List Port} {γ : Nat} {γs : List Nat} {v : Value} {vs : List Value}
      (first : p.Explains T γ v) (rest : Explained T ports γs vs) :
      Explained T (p :: ports) (γ :: γs) (v :: vs)

namespace Explained

variable {T U : Stamps} {ports : List Port} {γs : List Nat} {vs ws : List Value}

theorem mono (hT : T ≤ U) (h : Explained T ports γs vs) : Explained U ports γs vs := by
  induction h with
  | nil => exact .nil
  | cons first _ ih => exact .cons (first.mono hT) ih

/-- Only the fallbacks of the inputs matter. -/
theorem of_fallbacks {qs : List Port} (h : Explained T ports γs vs)
    (hq : qs.map fallback = ports.map fallback) : Explained T qs γs vs := by
  induction h generalizing qs with
  | nil =>
    obtain rfl := List.map_eq_nil_iff.mp hq
    exact .nil
  | @cons p ports γ γs v vs first rest ih =>
    obtain ⟨q, qs, rfl, hp, hrest⟩ := List.map_eq_cons_iff.mp hq
    refine .cons ?_ (ih hrest)
    rwa [Explains, hp]

/-- If no generation was given to two values, generations stand for at most one list of values. -/
theorem unique (hT : T.Single) (hv : Explained T ports γs vs) (hw : Explained T ports γs ws) :
    vs = ws := by
  induction hv generalizing ws with
  | nil =>
    cases hw
    rfl
  | cons first _ ih =>
    cases hw with
    | cons first' rest' => rw [ih rest', first.unique hT first' rfl]

/-- Where generations stand for two values at an input, one of them was given to both. -/
theorem conflict (hv : Explained T ports γs vs) (hw : Explained T ports γs ws) {i : Nat}
    {v w : Value} (hvi : vs[i]? = some v) (hwi : ws[i]? = some w) (hne : v ≠ w) :
    ∃ γ, γs[i]? = some γ ∧ T γ v ∧ T γ w := by
  induction hv generalizing ws i with
  | nil => cases hvi
  | @cons p ports γ γs v' vs first rest ih =>
    cases hw with
    | cons first' rest' =>
      cases i with
      | succ i => exact ih rest' hvi hwi
      | zero =>
        obtain rfl := Option.some.inj hvi
        obtain rfl := Option.some.inj hwi
        exact ⟨γ, rfl, first.conflict first' rfl hne⟩

theorem lengths (h : Explained T ports γs vs) :
    γs.length = ports.length ∧ vs.length = ports.length := by
  induction h with
  | nil => exact ⟨rfl, rfl⟩
  | cons _ _ ih => exact ⟨congrArg (· + 1) ih.1, congrArg (· + 1) ih.2⟩

end Explained

/-- What is gathered is explained where every input is. -/
theorem explained_of_gather {T : Stamps} {index : Nat} {ports : List Port} {values : List Value}
    (hp : ∀ p ∈ ports, ∀ v, p.value = some v → p.Explains T p.generation v)
    (h : gather index ports = .ok values) :
    Explained T ports (ports.map generation) values := by
  induction ports generalizing index values with
  | nil =>
    cases h
    exact .nil
  | cons p ports ih =>
    obtain ⟨v, rest, hv, -, hg, rfl⟩ := gather_cons_eq_ok h
    exact .cons (hp p List.mem_cons_self v hv)
      (ih (fun q hq => hp q (List.mem_cons_of_mem _ hq)) hg)

/-- A resolved input is explained by its own generation. -/
theorem explains_resolve {T : Stamps} (p : Port) {feed : Option Port}
    (hf : ∀ q, feed = some q → q.Stamped T) {v : Value} (hv : (p.resolve feed).value = some v) :
    (p.resolve feed).Explains T (p.resolve feed).generation v := by
  cases feed with
  | none => exact .inl ⟨rfl, hv⟩
  | some q => exact .inr (hf q rfl v hv)

theorem mismatch?_congr {index : Nat} {ps qs : List Port} (h : qs.map face = ps.map face)
    (values : List Value) : mismatch? index qs values = mismatch? index ps values := by
  induction ps generalizing qs index values with
  | nil =>
    obtain rfl := List.map_eq_nil_iff.mp h
    rfl
  | cons p ps ih =>
    obtain ⟨q, qs, rfl, hq, hrest⟩ := List.map_eq_cons_iff.mp h
    cases values with
    | nil => rfl
    | cons v values => simp only [mismatch?, emits?_of_face hq, ih hrest]

end Port

/-! ## Nodes -/

namespace Verdict

/-- The outputs that a turn may write: all of a node that computed, and those without a value of any
other. -/
def writes (v : Verdict) (p : Port) : Prop :=
  v.isComputed = true ∨ p.value = none

end Verdict

namespace Node

variable {κ : Type} [Kernel κ] {T U : Stamps} {n m : Node κ}

/-- What the kernel makes of input values, after the check of its outputs. -/
def outcome (n : Node κ) (values : List Value) : Except ComputeError (List Value) :=
  Kernel.compute n.kernel values >>= n.checkOutputs

/-- What computing gives on the values that the inputs hold. -/
def result (n : Node κ) : Except ComputeError (List Value) :=
  Port.gather 0 n.inputs >>= n.outcome

theorem outcome_eq_ok {values outs : List Value} (h : n.outcome values = .ok outs) :
    Kernel.compute n.kernel values = .ok outs ∧ outs.length = n.outputs.length := by
  unfold outcome at h
  cases hc : Kernel.compute n.kernel values with
  | error e => rw [hc] at h; cases h
  | ok outs' =>
    rw [hc] at h
    simp only [bind, Except.bind, checkOutputs] at h
    split at h
    · cases h
    · next hl =>
      split at h
      · cases h
      · cases h
        exact ⟨rfl, not_not.mp hl⟩

/-- What the kernel makes of values depends on the kernel and on the faces of the outputs. -/
theorem outcome_congr (hk : m.kernel = n.kernel)
    (ho : m.outputs.map Port.face = n.outputs.map Port.face) (values : List Value) :
    m.outcome values = n.outcome values := by
  have hl : m.outputs.length = n.outputs.length := by simpa using congrArg List.length ho
  have hc : m.checkOutputs = n.checkOutputs := by
    funext outs
    rw [checkOutputs, checkOutputs, hl, Port.mismatch?_congr ho]
  rw [outcome, outcome, hk, hc]

/-- What computing gives depends on what the inputs hold, besides. -/
theorem result_congr (hk : m.kernel = n.kernel)
    (ho : m.outputs.map Port.face = n.outputs.map Port.face)
    (hi : List.Forall₂ Port.Matches n.inputs m.inputs) : m.result = n.result := by
  rw [result, result, Port.gather_congr hi]
  congr 1
  funext values
  exact outcome_congr hk ho values

/-- Computing does not look at what the outputs hold. -/
theorem result_of_inputs (hk : m.kernel = n.kernel) (hi : m.inputs = n.inputs)
    (ho : m.outputs.map Port.face = n.outputs.map Port.face) : m.result = n.result := by
  rw [result, result, hi]
  congr 1
  funext values
  exact outcome_congr hk ho values

/-- Remembered generations stand for inputs from which the kernel computes what the outputs hold. -/
def Remembers (T : Stamps) (n : Node κ) (γs : List Nat) : Prop :=
  ∃ past outs, Port.Explained T n.inputs γs past ∧ n.outcome past = .ok outs ∧
    n.outputs.map Port.value = outs.map some

/-- What outputs hold was stamped, and the memo stands for inputs from which they were computed. -/
structure Traced (T : Stamps) (n : Node κ) : Prop where
  outputs : ∀ p ∈ n.outputs, p.Stamped T
  memo : ∀ γs, n.memo = some γs → n.Remembers T γs

namespace Traced

theorem mono (hT : T ≤ U) (h : n.Traced T) : n.Traced U where
  outputs p hp := (h.outputs p hp).mono hT
  memo γs hm := by
    obtain ⟨past, outs, he, hc, ho⟩ := h.memo γs hm
    exact ⟨past, outs, he.mono hT, hc, ho⟩

/-- Name, number, strategy and state do not matter. -/
theorem congr (h : n.Traced T) (hk : m.kernel = n.kernel) (hi : m.inputs = n.inputs)
    (ho : m.outputs = n.outputs) (hm : m.memo = n.memo) : m.Traced T where
  outputs := ho ▸ h.outputs
  memo γs hγ := by
    obtain ⟨past, outs, he, hc, hv⟩ := h.memo γs (hm ▸ hγ)
    exact ⟨past, outs, hi ▸ he, (outcome_congr hk (by rw [ho]) past).trans hc, ho ▸ hv⟩

/-- Without a memo only the outputs matter. -/
theorem forget (h : n.Traced T) (hm : m.memo = none) (ho : m.outputs = n.outputs) :
    m.Traced T where
  outputs := ho ▸ h.outputs
  memo γs hγ := by
    rw [hm] at hγ
    cases hγ

end Traced

/-! ## Edits of a node -/

/-- Every edit of a node drops the memo and leaves the outputs alone. -/
theorem apply_eq_ok {e : NodeEdit} (h : e.apply n = .ok m) :
    m.memo = none ∧ m.outputs = n.outputs := by
  cases edited_of_apply h <;> exact ⟨rfl, rfl⟩

/-- A new node has no memo, and holds nothing on its outputs. -/
theorem traced_draft {d : Draft κ} (hd : d.Blank) (id : NodeId) : (d.node id).Traced T := by
  have hnew : (Node.create id d.kernel : Node κ).Traced T := by
    refine ⟨fun p hp v hv => ?_, fun γs hγ => by cases hγ⟩
    obtain ⟨q, hq, rfl⟩ := List.mem_map.mp hp
    rw [hd q hq] at hv
    cases hv
  obtain ⟨name, strategy, h⟩ := exists_node_eq d id
  exact h ▸ hnew.congr rfl rfl rfl rfl

/-! ## A turn of a node -/

omit [Kernel κ] in
theorem map_fallback_resolve (n : Node κ) (feed : Nat → Option Port) :
    (n.resolve feed).inputs.map Port.fallback = n.inputs.map Port.fallback := by
  refine List.ext_getElem (by simp [resolve]) fun i hi hi' => ?_
  simp only [resolve, List.getElem_map, List.getElem_mapIdx]
  cases feed i <;> rfl

/-- Taking over the values of feeding outputs keeps a node traced. -/
theorem Traced.resolve (h : n.Traced T) (feed : Nat → Option Port) :
    (n.resolve feed).Traced T where
  outputs := h.outputs
  memo γs hm := by
    obtain ⟨past, outs, he, hc, ho⟩ := h.memo γs hm
    exact ⟨past, outs, he.of_fallbacks (map_fallback_resolve n feed), hc, ho⟩

/-- An input is explained by what it shows. -/
def Resolved (T : Stamps) (n : Node κ) : Prop :=
  ∀ p ∈ n.inputs, ∀ v, p.value = some v → p.Explains T p.generation v

omit [Kernel κ] in
theorem resolved_resolve {feed : Nat → Option Port} (hf : ∀ i q, feed i = some q → q.Stamped T)
    (n : Node κ) : (n.resolve feed).Resolved T := by
  intro p hp v hv
  obtain ⟨i, hi, rfl⟩ := List.mem_mapIdx.mp hp
  exact Port.explains_resolve _ (hf i) hv

theorem result_of_computed {memoization : Bool} {outs : List Value}
    (h : n.judge memoization = .computed outs) : n.result = .ok outs := by
  unfold judge at h
  unfold result
  cases hg : Port.gather 0 n.inputs with
  | error e => rw [hg] at h; cases h
  | ok values =>
    rw [hg] at h
    simp only at h
    split at h
    · cases h
    · split at h
      · next hc => cases h; exact hc
      · cases h

theorem result_of_failed {memoization : Bool} {e : ComputeError}
    (h : n.judge memoization = .failed e) : n.result = .error e := by
  unfold judge at h
  unfold result
  cases hg : Port.gather 0 n.inputs with
  | error e' =>
    rw [hg] at h
    cases h
    rfl
  | ok values =>
    rw [hg] at h
    simp only at h
    split at h
    · cases h
    · split at h
      · cases h
      · next hc => cases h; exact hc

/-- A node that keeps its outputs gathered its inputs, and their generations are its memo. -/
theorem memo_of_reused {memoization : Bool} (h : n.judge memoization = .reused) :
    (∃ now, Port.gather 0 n.inputs = .ok now) ∧ n.memo = some n.inputGenerations := by
  unfold judge at h
  cases hg : Port.gather 0 n.inputs with
  | error e => rw [hg] at h; cases h
  | ok values =>
    rw [hg] at h
    simp only at h
    split at h
    · next hr =>
      simp only [reusable, Bool.and_eq_true, decide_eq_true_eq] at hr
      exact ⟨⟨values, rfl⟩, hr.2⟩
    · split at h <;> cases h

/-- The outputs that a node keeps were computed from remembered inputs, for which the generations of
the present inputs stand as well. -/
theorem exists_of_reused {memoization : Bool} (ht : n.Traced T) (hr : n.Resolved T)
    (h : n.judge memoization = .reused) :
    ∃ now past outs, Port.gather 0 n.inputs = .ok now ∧
      Port.Explained T n.inputs n.inputGenerations now ∧
      Port.Explained T n.inputs n.inputGenerations past ∧ n.outcome past = .ok outs ∧
      n.outputs.map Port.value = outs.map some := by
  obtain ⟨⟨now, hg⟩, hm⟩ := memo_of_reused h
  obtain ⟨past, outs, he, hc, ho⟩ := ht.memo _ hm
  exact ⟨now, past, outs, hg, Port.explained_of_gather hr hg, he, hc, ho⟩

/-- If no generation was given to two values, the outputs that a node keeps are what computing
gives. -/
theorem result_of_reused {memoization : Bool} (hT : T.Single) (ht : n.Traced T)
    (hr : n.Resolved T) (h : n.judge memoization = .reused) :
    ∃ outs, n.result = .ok outs ∧ n.outputs.map Port.value = outs.map some := by
  obtain ⟨now, past, outs, hg, hn, hp, hc, ho⟩ := exists_of_reused ht hr h
  obtain rfl := hn.unique hT hp
  exact ⟨outs, by rw [result, hg]; exact hc, ho⟩

/-- Where computing gives outputs, every input holds a value. -/
theorem exists_of_result {outs : List Value} (h : n.result = .ok outs) :
    ∃ ins, n.inputs.map Port.value = ins.map some ∧ Kernel.compute n.kernel ins = .ok outs ∧
      outs.length = n.outputs.length := by
  unfold result at h
  cases hg : Port.gather 0 n.inputs with
  | error e => rw [hg] at h; cases h
  | ok ins =>
    rw [hg] at h
    exact ⟨ins, Port.map_value_of_gather hg, outcome_eq_ok h⟩

theorem length_of_result {outs : List Value} (h : n.result = .ok outs) :
    outs.length = n.outputs.length := by
  obtain ⟨-, -, -, hl⟩ := exists_of_result h
  exact hl

omit [Kernel κ] in
/-- What a turn writes, and the generations it takes for it. -/
theorem written_conclude (zeroFill : Bool) (revision : Nat) (ran : Bool) {v : Verdict}
    (hv : ∀ outs, v = .computed outs → outs.length = n.outputs.length) :
    Port.Written v.writes revision n.outputs (revision + n.stamps zeroFill v)
      (n.conclude zeroFill revision ran v).outputs := by
  cases v with
  | computed outs => exact Port.written_writeAll (fun p => .inl rfl) revision (hv outs rfl)
  | reused => exact .refl revision fun p _ h => h.resolve_left Bool.false_ne_true
  | failed e =>
    cases zeroFill with
    | false => exact .refl revision fun p _ h => h.resolve_left Bool.false_ne_true
    | true =>
      exact Port.written_fillZeros (fun p => or_iff_right Bool.false_ne_true) revision n.outputs

/-- A node that computed remembers the generations of its inputs. -/
theorem remembers_of_computed {memoization : Bool} {outs : List Value} (hr : n.Resolved T)
    (hj : n.judge memoization = .computed outs) (zeroFill : Bool) (revision : Nat) (ran : Bool) :
    (n.conclude zeroFill revision ran (.computed outs)).Remembers T n.inputGenerations := by
  have hres := result_of_computed hj
  have hkernel : (n.conclude zeroFill revision ran (.computed outs)).kernel = n.kernel := rfl
  have hface : (n.conclude zeroFill revision ran (.computed outs)).outputs.map Port.face =
      n.outputs.map Port.face := Port.map_face_writeAll revision n.outputs outs
  have hvalue := Port.map_value_writeAll revision (length_of_result hres)
  unfold result at hres
  cases hg : Port.gather 0 n.inputs with
  | error e => rw [hg] at hres; cases hres
  | ok values =>
    rw [hg] at hres
    refine ⟨values, outs, Port.explained_of_gather hr hg, ?_, hvalue⟩
    rw [outcome_congr hkernel hface]
    exact hres

/-- A node that remembers something is full, so a failure leaves its outputs as they are. -/
theorem outputs_conclude_failed {γs : List Nat} (h : n.Remembers T γs) (zeroFill : Bool)
    (revision : Nat) (ran : Bool) (e : ComputeError) :
    (n.conclude zeroFill revision ran (.failed e)).outputs = n.outputs := by
  obtain ⟨-, outs, -, -, ho⟩ := h
  cases zeroFill with
  | false => rfl
  | true => exact Port.fillZeros_of_full revision ho

/-- A turn keeps a node traced, with the stamps it takes. -/
theorem Traced.conclude {memoization zeroFill ran : Bool} {revision : Nat} (ht : n.Traced T)
    (hr : n.Resolved T)
    (hput : Port.puts (n.judge memoization).writes n.outputs
      (n.conclude zeroFill revision ran (n.judge memoization)).outputs ≤ T) :
    (n.conclude zeroFill revision ran (n.judge memoization)).Traced T := by
  have hw := written_conclude zeroFill revision ran (n := n) (v := n.judge memoization)
    fun outs hj => length_of_result (result_of_computed hj)
  refine ⟨fun p hp => (hw.stamped ht.outputs p hp).mono (sup_le le_rfl hput), fun γs hγ => ?_⟩
  cases hj : n.judge memoization with
  | computed outs =>
    rw [hj] at hγ
    -- the memo lists what the node was fed just now
    obtain rfl := Option.some.inj hγ
    exact remembers_of_computed hr hj zeroFill revision ran
  | reused =>
    rw [hj] at hγ
    -- neither the memo nor the outputs change
    exact ht.memo γs hγ
  | failed e =>
    rw [hj] at hγ
    -- the memo stays, and what it stands for must not be filled with zeros
    have hkeep := outputs_conclude_failed (ht.memo γs hγ) zeroFill revision ran e
    have hfailed := ht.congr (m := n.conclude zeroFill revision ran (.failed e)) rfl rfl hkeep rfl
    exact hfailed.memo γs hγ

/-- A node that holds what its kernel makes of what its inputs hold. -/
def Current (n : Node κ) : Prop :=
  ∃ ins outs, n.inputs.map Port.value = ins.map some ∧ Kernel.compute n.kernel ins = .ok outs ∧
    n.outputs.map Port.value = outs.map some

/-- Where the values of the ports are known, the kernel decides whether the node is current. -/
theorem current_iff {ins outs : List Value} (hi : n.inputs.map Port.value = ins.map some)
    (ho : n.outputs.map Port.value = outs.map some) :
    n.Current ↔ Kernel.compute n.kernel ins = .ok outs := by
  have hinj : Function.Injective (List.map (some : Value → Option Value)) :=
    List.map_injective_iff.mpr (Option.some_injective Value)
  constructor
  · rintro ⟨ins', outs', hi', hc, ho'⟩
    obtain rfl := hinj (hi'.symm.trans hi)
    obtain rfl := hinj (ho'.symm.trans ho)
    exact hc
  · intro hc
    exact ⟨ins, outs, hi, hc, ho⟩

/-! ## Honest verdicts -/

/-- A verdict that agrees with computing on the values that the inputs hold. -/
def Honest (n : Node κ) : Verdict → Prop
  | .computed outs => n.result = .ok outs
  | .reused => ∃ outs, n.result = .ok outs ∧ n.outputs.map Port.value = outs.map some
  | .failed e => n.result = .error e

/-- If no generation was given to two values, verdicts are honest. -/
theorem honest_judge (hT : T.Single) (ht : n.Traced T) (hr : n.Resolved T) (memoization : Bool) :
    n.Honest (n.judge memoization) := by
  cases hj : n.judge memoization with
  | computed outs => exact result_of_computed hj
  | reused => exact result_of_reused hT ht hr hj
  | failed e => exact result_of_failed hj

/-- An honest verdict on a node whose computing fails is that failure. -/
theorem Honest.eq_failed {v : Verdict} (h : n.Honest v) {e : ComputeError}
    (hr : n.result = .error e) : v = .failed e := by
  cases v with
  | computed outs => cases h.symm.trans hr
  | reused =>
    obtain ⟨outs, hout, -⟩ := h
    cases hout.symm.trans hr
  | failed e' =>
    cases h.symm.trans hr
    rfl

theorem Honest.exists_result {v : Verdict} (h : n.Honest v) (hv : v.error? = none) :
    ∃ outs, n.result = .ok outs := by
  cases v with
  | computed outs => exact ⟨outs, h⟩
  | reused => exact ⟨h.choose, h.choose_spec.1⟩
  | failed e => cases hv

theorem Honest.error?_eq_none {v : Verdict} (h : n.Honest v) {outs : List Value}
    (hr : n.result = .ok outs) : v.error? = none := by
  cases v with
  | computed outs' => rfl
  | reused => rfl
  | failed e => cases h.symm.trans hr

/-- After an honest verdict a node holds what computing gives, whether it computed or not. -/
theorem Honest.map_value_conclude {v : Verdict} (h : n.Honest v) {outs : List Value}
    (hr : n.result = .ok outs) (zeroFill : Bool) (revision : Nat) (ran : Bool) :
    (n.conclude zeroFill revision ran v).outputs.map Port.value = outs.map some := by
  cases v with
  | computed outs' =>
    cases h.symm.trans hr
    exact Port.map_value_writeAll revision (length_of_result hr)
  | reused =>
    obtain ⟨outs', hout, ho⟩ := h
    cases hout.symm.trans hr
    exact ho
  | failed e => cases h.symm.trans hr

/-- A turn changes neither the kernel nor the inputs that it resolved, so computing gives the same
after it. -/
theorem result_conclude (zeroFill : Bool) (revision : Nat) (ran : Bool) (n : Node κ)
    (v : Verdict) : (n.conclude zeroFill revision ran v).result = n.result := by
  have ho : (n.conclude zeroFill revision ran v).outputs.map Port.face =
      n.outputs.map Port.face :=
    congrArg Frame.outputs (frame_conclude zeroFill revision ran n v)
  exact result_of_inputs (kernel_conclude ..) (inputs_conclude ..) ho

end Node

end TextureFlow
