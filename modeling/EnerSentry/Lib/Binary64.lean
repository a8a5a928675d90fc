import Mathlib.Algebra.Order.Field.Basic
import Mathlib.Tactic.Ring
import Mathlib.Tactic.Linarith

/-!
The numbers behind 64-bit floating-point patterns, in any ordered field. A pattern is read as
sign, exponent and fraction; the patterns whose exponent is all ones stand for no number.
-/

namespace EnerSentry.Lib.Binary64

def negative (b : Nat) : Bool := decide (2 ^ 63 ≤ b)

def exponent (b : Nat) : Nat := b / 2 ^ 52 % 2 ^ 11

def fraction (b : Nat) : Nat := b % 2 ^ 52

/-- The leading one is left out of a pattern, unless its exponent is zero. -/
def significand (b : Nat) : Nat := if exponent b = 0 then fraction b else 2 ^ 52 + fraction b

def power (b : Nat) : Nat := max (exponent b) 1

theorem significand_lt (b : Nat) : significand b < 2 ^ 53 := by
  have small : fraction b < 2 ^ 52 := Nat.mod_lt _ (by decide)
  unfold significand
  split <;> omega

theorem le_significand {b : Nat} (normal : exponent b ≠ 0) : 2 ^ 52 ≤ significand b := by
  rw [significand, if_neg normal]
  exact Nat.le_add_right ..

section Value
variable (K : Type*) [Field K] [LinearOrder K]

def magnitude (b : Nat) : K := significand b * (2 : ℕ) ^ power b / (2 : ℕ) ^ 1075

/-- The number of a pattern, or 0 where there is none. -/
def value (b : Nat) : K :=
  if exponent b = 2047 then 0 else if negative b then -magnitude K b else magnitude K b

variable [IsStrictOrderedRing K] {b c : Nat}

theorem magnitude_nonneg (b : Nat) : 0 ≤ magnitude K b := by
  unfold magnitude
  positivity

theorem value_le_magnitude (b : Nat) : value K b ≤ magnitude K b := by
  have nonneg := magnitude_nonneg K b
  unfold value
  split
  · exact nonneg
  · split
    · exact (neg_nonpos.mpr nonneg).trans nonneg
    · exact le_refl _

theorem value_eq_magnitude (positive : 0 < value K b) : exponent b ≠ 2047 ∧ negative b = false ∧
    value K b = magnitude K b := by
  have nonneg := magnitude_nonneg K b
  unfold value at positive ⊢
  split at positive
  · exact absurd positive (lt_irrefl 0)
  · rename_i finite
    split at positive
    · exact absurd positive (not_lt.mpr (neg_nonpos.mpr nonneg))
    · rename_i sign
      exact ⟨finite, by simpa using sign, by rw [if_neg finite, if_neg sign]⟩

/-- Patterns with a small exponent stand for small numbers. -/
theorem value_lt_half (small : exponent b ≤ 1021) : value K b < 1 / 2 := by
  have natural : significand b * 2 ^ power b < 2 ^ 1074 := by
    obtain ⟨k, scale⟩ := Nat.exists_eq_add_of_le (Nat.add_le_add_left (max_le small (by decide : 1 ≤ 1021)) 53)
    have upper := Nat.mul_lt_mul_of_pos_right (significand_lt b) (Nat.two_pow_pos (power b))
    rw [← Nat.pow_add] at upper
    rw [show 1074 = 53 + power b + k from scale, Nat.pow_add]
    exact upper.trans_le (Nat.le_mul_of_pos_right _ (Nat.two_pow_pos k))
  have bound : (significand b * 2 ^ power b : K) < 2 ^ 1074 := by exact_mod_cast natural
  have step : (2 : K) ^ 1075 = 2 ^ 1074 * 2 := pow_succ 2 1074
  refine (value_le_magnitude K b).trans_lt ?_
  rw [magnitude, Nat.cast_ofNat, div_lt_div_iff₀ (by positivity) two_pos, one_mul, step]
  exact mul_lt_mul_of_pos_right bound two_pos

/-- Numbers with the same exponent are less than a factor of two apart. -/
theorem value_lt_double (positive : 0 < value K b) (normal : exponent b ≠ 0) (exponents : exponent c = exponent b) :
    value K c < 2 * value K b := by
  obtain ⟨-, -, equal⟩ := value_eq_magnitude K positive
  have scale : power c = power b := by rw [power, exponents, power]
  have natural : significand c < 2 * significand b := by
    have upper := significand_lt c
    have lower := le_significand normal
    omega
  have bound : (significand c : K) < 2 * significand b := by exact_mod_cast natural
  refine (value_le_magnitude K c).trans_lt ?_
  calc magnitude K c
      = significand c * (2 ^ power b / 2 ^ 1075) := by rw [magnitude, Nat.cast_ofNat, scale, mul_div_assoc]
    _ < 2 * significand b * (2 ^ power b / 2 ^ 1075) := mul_lt_mul_of_pos_right bound (by positivity)
    _ = 2 * value K b := by rw [equal, magnitude, Nat.cast_ofNat, mul_div_assoc, mul_assoc]

end Value

end EnerSentry.Lib.Binary64
