import Mathlib.Algebra.Order.Ring.Defs
import Mathlib.Tactic.Positivity

/-!
Retries whose delay doubles from a base up to a greatest one. `next` is the rule by which a
delay follows another, zero standing for no delay so far, and `delay` the delay after so many
failures.
-/

namespace EnerSentry.Lib.Backoff

variable {K : Type*} [Semiring K] [LinearOrder K]

def next (base greatest d : K) : K :=
  if d < greatest then
    if min (d * (2 : ℕ)) greatest = 0 then base else min (d * (2 : ℕ)) greatest
  else d

def delay (base greatest : K) : Nat → K
  | 0 => 0
  | k + 1 => min greatest (base * (2 : ℕ) ^ k)

variable {base greatest : K}

theorem delay_one (ordered : base ≤ greatest) : delay base greatest 1 = base := by
  rw [delay, pow_zero, mul_one, min_eq_right ordered]

/-- Below the greatest delay the delays are the doubled base itself. -/
theorem delay_succ_of_lt {k : Nat} (below : delay base greatest (k + 1) < greatest) :
    delay base greatest (k + 1) = base * 2 ^ k := by
  rw [delay, Nat.cast_ofNat] at below ⊢
  exact min_eq_right (le_of_lt ((min_lt_iff.mp below).resolve_left (lt_irrefl _)))

/-- The rule goes from the delay after one failure to the one after the next. -/
theorem next_delay [IsStrictOrderedRing K] (positive : 0 < base) (ordered : base ≤ greatest) (k : Nat) :
    next base greatest (delay base greatest k) = delay base greatest (k + 1) := by
  have some_ : 0 < greatest := lt_of_lt_of_le positive ordered
  cases k with
  | zero =>
    have least : min (0 * 2) greatest = 0 := by rw [zero_mul, min_eq_left some_.le]
    rw [delay_one ordered, delay, next, Nat.cast_ofNat, if_pos some_, if_pos least]
  | succ k =>
    have grows : base * 2 ^ (k + 1) = base * 2 ^ k * 2 := by rw [pow_succ, mul_assoc]
    have power : 0 < base * 2 ^ k := by positivity
    by_cases below : delay base greatest (k + 1) < greatest
    · have least : 0 < min (base * 2 ^ k * 2) greatest := lt_min (by positivity) some_
      rw [next, Nat.cast_ofNat, if_pos below, delay_succ_of_lt below, if_neg least.ne']
      calc min (base * 2 ^ k * 2) greatest = min greatest (base * 2 ^ k * 2) := min_comm ..
        _ = delay base greatest (k + 2) := by rw [delay, Nat.cast_ofNat, grows]
    · have reached : greatest ≤ base * 2 ^ k := by
        rw [delay, Nat.cast_ofNat, min_lt_iff, not_or, not_lt, not_lt] at below
        exact below.2
      have beyond : greatest ≤ base * 2 ^ (k + 1) := by
        calc greatest ≤ base * 2 ^ k := reached
          _ ≤ base * 2 ^ k * 2 := le_mul_of_one_le_right power.le one_le_two
          _ = base * 2 ^ (k + 1) := grows.symm
      rw [next, if_neg below]
      calc delay base greatest (k + 1) = greatest := by rw [delay, Nat.cast_ofNat, min_eq_left reached]
        _ = delay base greatest (k + 2) := by rw [delay, Nat.cast_ofNat, min_eq_left beyond]

end EnerSentry.Lib.Backoff
