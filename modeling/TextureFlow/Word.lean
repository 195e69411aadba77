/-!
# Checked words

Sides and coordinates of images are 32-bit words. Sums and products of words are checked: one that
is too large for a word stops the computation, as a division by zero does, and what stopped it is
all that comes of it.
-/

namespace TextureFlow

/-- What stops a computation. -/
inductive Panic where
  | sum
  | product
  | quotient
  | remainder
deriving DecidableEq, Repr

/-- What stopped the computation, as a user reads it. -/
def Panic.message : Panic → String
  | sum => "attempt to add with overflow"
  | product => "attempt to multiply with overflow"
  | quotient => "attempt to divide by zero"
  | remainder => "attempt to calculate the remainder with a divisor of zero"

namespace Word

/-- The word of a number, if the number is not too large. -/
def ofNat (n : Nat) (e : Panic) : Except Panic UInt32 :=
  if n < UInt32.size then .ok n.toUInt32 else .error e

def add (m n : UInt32) : Except Panic UInt32 :=
  ofNat (m.toNat + n.toNat) .sum

def mul (m n : UInt32) : Except Panic UInt32 :=
  ofNat (m.toNat * n.toNat) .product

def div (m n : UInt32) : Except Panic UInt32 :=
  if n = 0 then .error .quotient else .ok (m / n)

def mod (m n : UInt32) : Except Panic UInt32 :=
  if n = 0 then .error .remainder else .ok (m % n)

variable {n : Nat} {e e' : Panic} {k d : UInt32}

theorem ofNat_eq_ok_iff : ofNat n e = .ok k ↔ k.toNat = n := by
  rw [ofNat]
  by_cases h : n < UInt32.size
  · rw [if_pos h, Except.ok.injEq, ← UInt32.toNat_inj, Nat.toUInt32, UInt32.toNat_ofNat_of_lt' h]
    exact eq_comm
  · rw [if_neg h]
    exact iff_of_false nofun fun hk => h (hk ▸ k.toNat_lt)

theorem exists_ofNat_eq_ok (h : n < UInt32.size) : ∃ k, ofNat n e = .ok k ∧ k.toNat = n :=
  ⟨n.toUInt32, if_pos h, UInt32.toNat_ofNat_of_lt' h⟩

theorem ofNat_eq_error_iff : ofNat n e = .error e' ↔ UInt32.size ≤ n ∧ e' = e := by
  rw [ofNat]
  by_cases h : n < UInt32.size
  · rw [if_pos h]
    exact iff_of_false nofun fun ⟨hn, _⟩ => Nat.not_le_of_lt h hn
  · rw [if_neg h, Except.error.injEq, and_iff_right (Nat.le_of_not_lt h)]
    exact eq_comm

theorem div_of_ne_zero (h : d ≠ 0) : div k d = .ok (k / d) :=
  if_neg h

theorem mod_of_ne_zero (h : d ≠ 0) : mod k d = .ok (k % d) :=
  if_neg h

end Word

end TextureFlow
