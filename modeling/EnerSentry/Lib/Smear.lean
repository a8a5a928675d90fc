import Mathlib.Data.Nat.Bitwise

/-!
Rounding up to a power of two by smearing the highest bit of a number over all lower ones,
with shifts that double from step to step.
-/

namespace EnerSentry.Lib.Smear

/-- One step: every bit is also set `shift` places lower. -/
def spread (v shift : Nat) : Nat := v ||| v >>> shift

/-- The shifts 1, 2, 4 and so on, `steps` of them. -/
def smear (v : Nat) : Nat → Nat
  | 0 => v
  | steps + 1 => spread (smear v steps) (2 ^ steps)

/-- After some steps a bit is set where one was set fewer than `2 ^ steps` places higher. -/
theorem testBit_smear (v steps j : Nat) :
    (smear v steps).testBit j = true ↔ ∃ d < 2 ^ steps, v.testBit (j + d) = true := by
  induction steps generalizing j with
  | zero =>
    constructor
    · intro set
      exact ⟨0, Nat.one_pos, set⟩
    · rintro ⟨d, small, set⟩
      obtain rfl : d = 0 := Nat.lt_one_iff.mp small
      exact set
  | succ steps ih =>
    have double : 2 ^ (steps + 1) = 2 ^ steps + 2 ^ steps := by rw [Nat.pow_succ, Nat.mul_two]
    rw [smear, spread, Nat.testBit_or, Nat.testBit_shiftRight, Bool.or_eq_true, ih, ih]
    constructor
    · rintro (⟨d, small, set⟩ | ⟨d, small, set⟩)
      · exact ⟨d, by omega, set⟩
      · refine ⟨2 ^ steps + d, by omega, ?_⟩
        rwa [← Nat.add_assoc, Nat.add_comm j]
    · rintro ⟨d, small, set⟩
      by_cases near : d < 2 ^ steps
      · exact Or.inl ⟨d, near, set⟩
      · refine Or.inr ⟨d - 2 ^ steps, by omega, ?_⟩
        have place : 2 ^ steps + j + (d - 2 ^ steps) = j + d := by omega
        rwa [place]

/-- Smearing only adds bits. -/
theorem le_smear (v steps : Nat) : v ≤ smear v steps := by
  induction steps with
  | zero => exact Nat.le_refl v
  | succ steps ih => exact Nat.le_trans ih Nat.left_le_or

/-- It adds none above the highest. -/
theorem smear_lt {v k : Nat} (below : v < 2 ^ k) (steps : Nat) : smear v steps < 2 ^ k := by
  apply Nat.lt_pow_two_of_testBit
  intro j high
  rw [Bool.eq_false_iff]
  intro set
  obtain ⟨d, -, found⟩ := (testBit_smear v steps j).mp set
  have large := Nat.ge_two_pow_of_testBit found
  have more : 2 ^ k ≤ 2 ^ (j + d) := Nat.pow_le_pow_right (by decide) (by omega)
  omega

/-- A number that fits in `2 ^ steps` bits is smeared to one below a power of two. -/
theorem smear_add_one {v steps : Nat} (fits : v < 2 ^ 2 ^ steps) : ∃ n, smear v steps + 1 = 2 ^ n := by
  by_cases zero : v = 0
  · refine ⟨0, ?_⟩
    have clear : smear v steps = 0 := by
      apply Nat.eq_of_testBit_eq
      intro j
      rw [Nat.zero_testBit, Bool.eq_false_iff]
      intro set
      obtain ⟨d, -, set⟩ := (testBit_smear v steps j).mp set
      rw [zero, Nat.zero_testBit] at set
      cases set
    rw [clear, Nat.pow_zero]
  · obtain ⟨top, set, above⟩ := Nat.exists_most_significant_bit zero
    have inside : top < 2 ^ steps := by
      by_contra outside
      have low : 2 ^ 2 ^ steps ≤ v := Nat.le_trans (Nat.pow_le_pow_right (by decide) (Nat.not_lt.mp outside))
        (Nat.ge_two_pow_of_testBit set)
      omega
    refine ⟨top + 1, ?_⟩
    have ones : smear v steps = 2 ^ (top + 1) - 1 := by
      apply Nat.eq_of_testBit_eq
      intro j
      rw [Nat.testBit_two_pow_sub_one, Bool.eq_iff_iff, decide_eq_true_iff, testBit_smear]
      constructor
      · rintro ⟨d, -, found⟩
        by_contra high
        rw [above (j + d) (by omega)] at found
        cases found
      · intro low
        refine ⟨top - j, by omega, ?_⟩
        have place : j + (top - j) = top := by omega
        rwa [place]
    rw [ones]
    exact Nat.sub_add_cancel (Nat.one_le_two_pow)

end EnerSentry.Lib.Smear
