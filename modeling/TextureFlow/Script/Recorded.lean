/-!
# Recorded computations

A computation that may fail and that says what happens on the way. What happened before a failure
stays recorded. `result_bind`, `result_foldlM` and `result_steps` say that the record has no
influence on the result, so statements about results can forget it.

`steps` does numbered steps and keeps what happened in reverse meanwhile, so it takes time in
proportion to the number of events, and no room for steps that are still to come. `stepsFrom_succ`
says that it is nevertheless one step after the other.
-/

namespace TextureFlow

/-- What happened, and what came of it. -/
structure Recorded (ν ε α : Type) where
  events : List ν
  result : Except ε α

namespace Recorded

variable {ν ε α β : Type}

/-- A result without events. -/
def ofResult (r : Except ε α) : Recorded ν ε α :=
  ⟨[], r⟩

/-- Events that happen without a result. -/
def log (events : List ν) : Recorded ν ε Unit :=
  ⟨events, .ok ()⟩

/-- One computation after the other. -/
def andThen (x : Recorded ν ε α) (f : α → Recorded ν ε β) : Recorded ν ε β :=
  match x.result with
  | .ok a => ⟨x.events ++ (f a).events, (f a).result⟩
  | .error e => ⟨x.events, .error e⟩

instance : Monad (Recorded ν ε) where
  pure a := ⟨[], .ok a⟩
  bind := andThen

@[simp] theorem result_ofResult (r : Except ε α) : (ofResult r : Recorded ν ε α).result = r :=
  rfl

@[simp] theorem result_log (events : List ν) : (log events : Recorded ν ε Unit).result = .ok () :=
  rfl

@[simp] theorem result_pure (a : α) : (pure a : Recorded ν ε α).result = .ok a :=
  rfl

@[simp] theorem result_bind (x : Recorded ν ε α) (f : α → Recorded ν ε β) :
    (x >>= f).result = x.result >>= fun a => (f a).result := by
  show (andThen x f).result = _
  unfold andThen
  cases x.result <;> rfl

@[simp] theorem result_foldlM (f : β → α → Recorded ν ε β) (b : β) (as : List α) :
    (as.foldlM f b).result = as.foldlM (fun b a => (f b a).result) b := by
  induction as generalizing b with
  | nil => rfl
  | cons a rest ih => simp [ih]

/-! ## Numbered steps -/

/-- Does so many steps behind the first `done`, after events that stand here with the latest one
first. -/
def stepsAfter (f : Nat → α → Recorded ν ε α) (past : List ν) (done : Nat) (a : α) :
    Nat → Recorded ν ε α
  | 0 => ⟨past.reverse, .ok a⟩
  | left + 1 =>
    let step := f (done + 1) a
    let past := step.events.reverseAux past
    match step.result with
    | .ok a => stepsAfter f past (done + 1) a left
    | .error e => ⟨past.reverse, .error e⟩

/-- Does so many steps behind the first `done`, up to one that fails. -/
def stepsFrom (f : Nat → α → Recorded ν ε α) (done : Nat) (a : α) (left : Nat) : Recorded ν ε α :=
  stepsAfter f [] done a left

/-- Does so many steps, which are counted from one, up to one that fails. -/
def steps (f : Nat → α → Recorded ν ε α) (a : α) (n : Nat) : Recorded ν ε α :=
  stepsFrom f 0 a n

theorem stepsAfter_eq (f : Nat → α → Recorded ν ε α) (past : List ν) (done : Nat) (a : α)
    (left : Nat) :
    stepsAfter f past done a left =
      ⟨past.reverse ++ (stepsFrom f done a left).events, (stepsFrom f done a left).result⟩ := by
  induction left generalizing past done a with
  | zero => simp [stepsFrom, stepsAfter]
  | succ left ih =>
    rw [stepsFrom, stepsAfter, stepsAfter]
    cases (f (done + 1) a).result with
    | ok b =>
      show stepsAfter f _ _ b left =
        ⟨_ ++ (stepsAfter f _ _ b left).events, (stepsAfter f _ _ b left).result⟩
      rw [ih, ih ((f _ a).events.reverseAux [])]
      simp [List.reverseAux_eq]
    | error e => simp [List.reverseAux_eq]

@[simp] theorem stepsFrom_zero (f : Nat → α → Recorded ν ε α) (done : Nat) (a : α) :
    stepsFrom f done a 0 = pure a :=
  rfl

theorem stepsFrom_succ (f : Nat → α → Recorded ν ε α) (done : Nat) (a : α) (left : Nat) :
    stepsFrom f done a (left + 1) = f (done + 1) a >>= fun a => stepsFrom f (done + 1) a left := by
  show _ = andThen (f (done + 1) a) _
  rw [stepsFrom, stepsAfter, andThen]
  cases (f (done + 1) a).result with
  | ok b => simp only [stepsAfter_eq, List.reverseAux_eq]; simp
  | error e => simp [List.reverseAux_eq]

theorem result_stepsFrom (f : Nat → α → Recorded ν ε α) (done : Nat) (a : α) (left : Nat) :
    (stepsFrom f done a left).result =
      (List.range' (done + 1) left).foldlM (fun a k => (f k a).result) a := by
  induction left generalizing done a with
  | zero => rfl
  | succ left ih => simp [stepsFrom_succ, List.range'_succ, ih]

theorem result_steps (f : Nat → α → Recorded ν ε α) (a : α) (n : Nat) :
    (steps f a n).result = (List.range' 1 n).foldlM (fun a k => (f k a).result) a :=
  result_stepsFrom f 0 a n

end Recorded

end TextureFlow
