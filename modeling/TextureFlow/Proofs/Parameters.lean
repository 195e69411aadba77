import Mathlib
import TextureFlow.Catalogue.Registry
import TextureFlow.Proofs.CatalogueKinds
import TextureFlow.Script.Build

/-!
# Parameters are independent of each other

Setting a parameter forgets what it was set to before and leaves the other parameters alone. So an
edit of a parameter may be moved to where the node is created: it replaces the value that the node
starts with, or is one more.
-/

namespace TextureFlow

/-! ## Folds that may fail -/

/-- What every step keeps, all of them keep. -/
theorem foldlM_keep {ε α σ : Type} {f : σ → α → Except ε σ} {I : σ → Prop} {as : List α}
    (keep : ∀ s s₁, ∀ a ∈ as, I s → f s a = .ok s₁ → I s₁) {s s₁ : σ} (hs : I s)
    (h : as.foldlM f s = .ok s₁) : I s₁ := by
  induction as generalizing s with
  | nil => exact Except.ok.inj h ▸ hs
  | cons a as ih =>
    rw [List.foldlM_cons] at h
    obtain ⟨t, ht, hrest⟩ := bind_eq_ok_iff.mp h
    exact ih (fun s s₁ b hb => keep s s₁ b (List.mem_cons_of_mem a hb))
      (keep s t a List.mem_cons_self hs ht) hrest

/-- What is said of the steps that were done, is said of all of them at the end. -/
theorem foldlM_concat {ε α σ : Type} {f : σ → α → Except ε σ} {I : List α → σ → Prop}
    (step : ∀ done s s₁ a, I done s → f s a = .ok s₁ → I (done ++ [a]) s₁) {done as : List α}
    {s s₁ : σ} (hs : I done s) (h : as.foldlM f s = .ok s₁) : I (done ++ as) s₁ := by
  induction as generalizing done s with
  | nil =>
    rw [List.append_nil]
    exact Except.ok.inj h ▸ hs
  | cons a as ih =>
    rw [List.foldlM_cons] at h
    obtain ⟨t, ht, hrest⟩ := bind_eq_ok_iff.mp h
    have hall := ih (step done s t a hs ht) hrest
    rwa [List.append_assoc] at hall

/-- What two folds have in common after every step, they have in common at the end. -/
theorem foldlM_sim {ε α σ τ : Type} {f : σ → α → Except ε σ} {f' : τ → α → Except ε τ}
    {R : σ → τ → Prop}
    (step : ∀ s s₁ t a, R s t → f s a = .ok s₁ → ∃ t₁, f' t a = .ok t₁ ∧ R s₁ t₁)
    {as : List α} {s s₁ : σ} {t : τ} (hR : R s t) (h : as.foldlM f s = .ok s₁) :
    ∃ t₁, as.foldlM f' t = .ok t₁ ∧ R s₁ t₁ := by
  induction as generalizing s t with
  | nil =>
    obtain rfl := Except.ok.inj h
    exact ⟨t, rfl, hR⟩
  | cons a as ih =>
    rw [List.foldlM_cons] at h
    obtain ⟨u, hu, hrest⟩ := bind_eq_ok_iff.mp h
    obtain ⟨v, hv, hR⟩ := step s u t a hR hu
    obtain ⟨t₁, hrest', hR⟩ := ih hR hrest
    exact ⟨t₁, by rw [List.foldlM_cons]; exact bind_eq_ok_iff.mpr ⟨v, hv, hrest'⟩, hR⟩

/-- Where it does not depend on the steps before whether a step succeeds, all of them do exactly if
each of them does. -/
theorem exists_foldlM_iff {ε α σ : Type} {f : σ → α → Except ε σ} {I : σ → Prop} {P : α → Prop}
    (accepts : ∀ s a, I s → ((∃ s₁, f s a = .ok s₁) ↔ P a))
    (keep : ∀ s s₁ a, I s → f s a = .ok s₁ → I s₁) {s : σ} (hs : I s) (as : List α) :
    (∃ s₁, as.foldlM f s = .ok s₁) ↔ ∀ a ∈ as, P a := by
  induction as generalizing s with
  | nil => exact ⟨fun _ => List.forall_mem_nil P, fun _ => ⟨s, rfl⟩⟩
  | cons a as ih =>
    rw [List.forall_mem_cons]
    constructor
    · rintro ⟨s₁, h⟩
      rw [List.foldlM_cons] at h
      obtain ⟨t, ht, hrest⟩ := bind_eq_ok_iff.mp h
      exact ⟨(accepts s a hs).mp ⟨t, ht⟩, (ih (keep s t a hs ht)).mp ⟨s₁, hrest⟩⟩
    · rintro ⟨ha, has⟩
      obtain ⟨t, ht⟩ := (accepts s a hs).mpr ha
      obtain ⟨s₁, hrest⟩ := (ih (keep s t a hs ht)).mpr has
      refine ⟨s₁, ?_⟩
      rw [List.foldlM_cons]
      exact bind_eq_ok_iff.mpr ⟨t, ht, hrest⟩

/-- A step that may be done before each single step of a fold may be done before all of them. -/
theorem foldlM_swap {ε α σ : Type} {f : σ → α → Except ε σ} (step : σ → Except ε σ)
    {I : σ → Prop} {as : List α}
    (keep : ∀ s s₁, ∀ a ∈ as, I s → f s a = .ok s₁ → I s₁)
    (swap : ∀ s s₁ s₂, ∀ a ∈ as, I s → f s a = .ok s₁ → step s₁ = .ok s₂ →
      ∃ s', step s = .ok s' ∧ f s' a = .ok s₂)
    {s s₁ s₂ : σ} (hs : I s) (h : as.foldlM f s = .ok s₁) (h' : step s₁ = .ok s₂) :
    ∃ s', step s = .ok s' ∧ as.foldlM f s' = .ok s₂ := by
  induction as generalizing s with
  | nil =>
    obtain rfl := Except.ok.inj h
    exact ⟨s₂, h', rfl⟩
  | cons a as ih =>
    rw [List.foldlM_cons] at h
    obtain ⟨t, ht, hrest⟩ := bind_eq_ok_iff.mp h
    obtain ⟨t', hstep, hrest'⟩ := ih (fun s s₁ b hb => keep s s₁ b (List.mem_cons_of_mem a hb))
      (fun s s₁ s₂ b hb => swap s s₁ s₂ b (List.mem_cons_of_mem a hb))
      (keep s t a List.mem_cons_self hs ht) hrest
    obtain ⟨s', hs', hfirst⟩ := swap s t t' a List.mem_cons_self hs ht hstep
    refine ⟨s', hs', ?_⟩
    rw [List.foldlM_cons]
    exact bind_eq_ok_iff.mpr ⟨t', hfirst, hrest'⟩

/-- Where entries are written independently of each other, an entry that is written after all others
may as well be put among them. -/
theorem foldlM_putEntry {ε α σ : Type} {f : σ → String × α → Except ε σ}
    (overwrite : ∀ s s₁ s₂ key x y, f s (key, x) = .ok s₁ → f s₁ (key, y) = .ok s₂ →
      f s (key, y) = .ok s₂)
    (swap : ∀ s s₁ s₂ key other x y, key ≠ other → f s (other, y) = .ok s₁ →
      f s₁ (key, x) = .ok s₂ → ∃ s', f s (key, x) = .ok s' ∧ f s' (other, y) = .ok s₂)
    {key : String} {x : α} {es : List (String × α)} (hes : (es.map Prod.fst).Nodup) {s s₁ s₂ : σ}
    (h : es.foldlM f s = .ok s₁) (h' : f s₁ (key, x) = .ok s₂) :
    (putEntry key x es).foldlM f s = .ok s₂ := by
  induction es generalizing s with
  | nil =>
    obtain rfl := Except.ok.inj h
    rw [putEntry, List.foldlM_cons, h']
    rfl
  | cons e es ih =>
    obtain ⟨other, y⟩ := e
    obtain ⟨hother, hes⟩ := List.nodup_cons.mp hes
    rw [List.foldlM_cons] at h
    obtain ⟨t, ht, hrest⟩ := bind_eq_ok_iff.mp h
    by_cases he : other = key
    · -- the entry takes the place of the one with its key, before the rest
      subst he
      obtain ⟨t', hstep, hrest'⟩ := foldlM_swap (fun s => f s (other, x))
        (I := fun _ => True) (fun _ _ _ _ _ _ => trivial)
        (fun s s₁ s₂ e he _ => swap s s₁ s₂ other e.1 x e.2
          fun hsame => hother (List.mem_map.mpr ⟨e, he, hsame.symm⟩)) trivial hrest h'
      rw [putEntry, if_pos rfl, List.foldlM_cons]
      exact bind_eq_ok_iff.mpr ⟨t', overwrite s t t' other y x ht hstep, hrest'⟩
    · rw [putEntry, if_neg he, List.foldlM_cons]
      exact bind_eq_ok_iff.mpr ⟨t, ht, ih hes hrest⟩

/-! ## Kernels -/

/-- A family of kernels whose parameters are written independently of each other. -/
class IndependentParameters (κ : Type) [Kernel κ] : Prop where
  /-- A value that was set leaves no trace when another is set. -/
  overwrite : ∀ {k k' : κ} {name : String} {v : ParamValue} (w : ParamValue),
    Kernel.setParameter k name v = .ok k' →
      Kernel.setParameter k' name w = Kernel.setParameter k name w
  /-- Two parameters may be set in either order. -/
  swap : ∀ {k k₁ k₂ : κ} {name other : String} {v w : ParamValue}, name ≠ other →
    Kernel.setParameter k name v = .ok k₁ → Kernel.setParameter k₁ other w = .ok k₂ →
      ∃ k', Kernel.setParameter k other w = .ok k' ∧ Kernel.setParameter k' name v = .ok k₂

namespace Builtin

theorem overwrite {k k' : Builtin} {name : String} {v : ParamValue} (w : ParamValue)
    (h : k.setParameter name v = .ok k') : k'.setParameter name w = k.setParameter name w := by
  cases sets_of_setParameter h with
  | @vector u u' same =>
    show vectorConstant <$> w.toVec _ u'.arity = vectorConstant <$> w.toVec _ u.arity
    rw [same]
  | _ => rfl

theorem swap {k k₁ k₂ : Builtin} {name other : String} {v w : ParamValue} (hne : name ≠ other)
    (h : k.setParameter name v = .ok k₁) (h' : k₁.setParameter other w = .ok k₂) :
    ∃ k', k.setParameter other w = .ok k' ∧ k'.setParameter name v = .ok k₂ := by
  cases sets_of_setParameter h with
  | colorWidth hwidth =>
    cases sets_of_setParameter h' with
    | colorWidth => exact absurd rfl hne
    | colorHeight hheight =>
      exact ⟨_, (Sets.colorHeight hheight).setParameter, (Sets.colorWidth hwidth).setParameter⟩
  | colorHeight hheight =>
    cases sets_of_setParameter h' with
    | colorWidth hwidth =>
      exact ⟨_, (Sets.colorWidth hwidth).setParameter, (Sets.colorHeight hheight).setParameter⟩
    | colorHeight => exact absurd rfl hne
  | bytesWidth hwidth =>
    cases sets_of_setParameter h' with
    | bytesWidth => exact absurd rfl hne
    | bytesHeight hheight =>
      exact ⟨_, (Sets.bytesHeight hheight).setParameter, (Sets.bytesWidth hwidth).setParameter⟩
  | bytesHeight hheight =>
    cases sets_of_setParameter h' with
    | bytesWidth hwidth =>
      exact ⟨_, (Sets.bytesWidth hwidth).setParameter, (Sets.bytesHeight hheight).setParameter⟩
    | bytesHeight => exact absurd rfl hne
  | _ =>
    -- no other kernel has two parameters
    cases sets_of_setParameter h'
    exact absurd rfl hne

instance : IndependentParameters Builtin where
  overwrite := overwrite
  swap := swap

end Builtin

/-! ## Nodes -/

namespace Node

variable {κ : Type} [Kernel κ] {n m k : Node κ}

theorem setParameter_eq_ok_iff {name : String} {v : ParamValue} :
    n.setParameter name v = .ok m ↔
      ∃ kernel, Kernel.setParameter n.kernel name v = .ok kernel ∧
        m = { n with kernel, memo := none } := by
  unfold setParameter
  simp only [bind_eq_ok_iff, pure_eq_ok_iff]
  rfl

theorem ports_setParameter {name : String} {v : ParamValue} (h : n.setParameter name v = .ok m) :
    m.id = n.id ∧ m.inputs = n.inputs ∧ m.outputs = n.outputs := by
  obtain ⟨kernel, -, rfl⟩ := setParameter_eq_ok_iff.mp h
  exact ⟨rfl, rfl, rfl⟩

/-- Parameters and fallbacks may be set in either order. -/
theorem swap_fallback {index : Nat} {x : Value} {name : String} {v : ParamValue}
    (h : n.setFallback index x = .ok m) (h' : m.setParameter name v = .ok k) :
    ∃ n', n.setParameter name v = .ok n' ∧ n'.setFallback index x = .ok k := by
  obtain ⟨kernel, hk, rfl⟩ := setParameter_eq_ok_iff.mp h'
  have hkernel : m.kernel = n.kernel := by
    cases edited_of_apply (e := .fallback index x) h
    rfl
  refine ⟨_, setParameter_eq_ok_iff.mpr ⟨kernel, hkernel ▸ hk, rfl⟩, ?_⟩
  unfold setFallback at h ⊢
  split at h
  · cases h
  · next p hp =>
    simp only [hp]
    split at h
    · next ha =>
      rw [if_pos ha]
      cases h
      rfl
    · cases h

variable [IndependentParameters κ]

theorem overwrite_parameter {name : String} {v w : ParamValue} (h : n.setParameter name v = .ok m)
    (h' : m.setParameter name w = .ok k) : n.setParameter name w = .ok k := by
  obtain ⟨kernel, hk, rfl⟩ := setParameter_eq_ok_iff.mp h
  obtain ⟨kernel', hk', rfl⟩ := setParameter_eq_ok_iff.mp h'
  rw [IndependentParameters.overwrite w hk] at hk'
  exact setParameter_eq_ok_iff.mpr ⟨kernel', hk', rfl⟩

theorem swap_parameter {name other : String} {v w : ParamValue} (hne : name ≠ other)
    (h : n.setParameter other w = .ok m) (h' : m.setParameter name v = .ok k) :
    ∃ n', n.setParameter name v = .ok n' ∧ n'.setParameter other w = .ok k := by
  obtain ⟨kernel, hk, rfl⟩ := setParameter_eq_ok_iff.mp h
  obtain ⟨kernel', hk', rfl⟩ := setParameter_eq_ok_iff.mp h'
  obtain ⟨between, hb, hb'⟩ := IndependentParameters.swap hne.symm hk hk'
  exact ⟨_, setParameter_eq_ok_iff.mpr ⟨between, hb, rfl⟩,
    setParameter_eq_ok_iff.mpr ⟨kernel', hb', rfl⟩⟩

end Node

/-! ## Nodes of a script -/

namespace NodeSpec

variable {κ : Type} [Kernel κ]

/-- The node with another value for a parameter. -/
def put (spec : NodeSpec) (name : String) (v : ParamValue) : NodeSpec :=
  { spec with parameters := spec.parameters.put name v }

theorem create_eq_ok_iff {registry : Registry κ} {id : NodeId} {spec : NodeSpec} {n : Node κ} :
    spec.create registry id = .ok n ↔ ∃ d, registry.draft? spec.kind = some d ∧
      spec.edits.foldlM (fun n (e : NodeEdit) => e.apply n) ((spec.draft d).node id) = .ok n := by
  unfold create
  cases registry.draft? spec.kind with
  | none => simp
  | some d => simp only [mapError_eq_ok_iff, Option.some.injEq, exists_eq_left']

/-- A new node is given its parameters first, and then its fallbacks. -/
theorem foldlM_edits_eq_ok_iff {spec : NodeSpec} {n k : Node κ} :
    spec.edits.foldlM (fun n (e : NodeEdit) => e.apply n) n = .ok k ↔
      ∃ m, spec.parameters.entries.foldlM (fun n e => n.setParameter e.1 e.2) n = .ok m ∧
        spec.fallbacks.entries.foldlM (fun n e => n.setFallback e.1 e.2) m = .ok k := by
  rw [edits, List.foldlM_append, bind_eq_ok_iff]
  simp only [List.foldlM_map]
  rfl

/-- A parameter that is set on a new node may be set by the script. -/
theorem create_put [IndependentParameters κ] {registry : Registry κ} {id : NodeId}
    {spec : NodeSpec} {n m : Node κ} {name : String} {v : ParamValue}
    (h : spec.create registry id = .ok n) (h' : n.setParameter name v = .ok m) :
    (spec.put name v).create registry id = .ok m := by
  obtain ⟨d, hd, hedits⟩ := create_eq_ok_iff.mp h
  obtain ⟨n₁, hparameters, hfallbacks⟩ := foldlM_edits_eq_ok_iff.mp hedits
  obtain ⟨n₂, hstep, hfallbacks'⟩ := foldlM_swap
    (f := fun (n : Node κ) (e : Nat × Value) => n.setFallback e.1 e.2)
    (fun n => n.setParameter name v) (I := fun _ => True) (fun _ _ _ _ _ _ => trivial)
    (fun _ _ _ _ _ _ => Node.swap_fallback) trivial hfallbacks h'
  have hput := foldlM_putEntry
    (f := fun (n : Node κ) (e : String × ParamValue) => n.setParameter e.1 e.2)
    (fun _ _ _ _ _ _ => Node.overwrite_parameter)
    (fun _ _ _ _ _ _ _ hne => Node.swap_parameter hne) spec.parameters.nodup hparameters hstep
  exact create_eq_ok_iff.mpr ⟨d, hd, foldlM_edits_eq_ok_iff.mpr ⟨n₂, hput, hfallbacks'⟩⟩

end NodeSpec

end TextureFlow
