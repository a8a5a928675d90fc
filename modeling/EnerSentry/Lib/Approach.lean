import Mathlib.Algebra.Order.Field.Basic
import Mathlib.Tactic.Linarith
import Mathlib.Tactic.Ring

/-!
A value that approaches a target by a given distance and stops there. The distance that is
left is what there was less what was travelled, and the value never leaves the stretch
between where it started and the target.
-/

namespace EnerSentry.Lib.Approach

variable {K : Type*} [Field K] [LinearOrder K]

/-- The value `travel` nearer to the target, but not beyond it. -/
def approach (target value travel : K) : K :=
  if target < value then max target (value - travel)
  else if value < target then min target (value + travel)
  else value

/-- The value moved by `travel` to the side where the target is. -/
def movedTowards (target value travel : K) : K := if target < value then value - travel else value + travel

section Definitions
variable {target value travel : K}

theorem approach_above (above : target < value) : approach target value travel = max target (value - travel) :=
  if_pos above

theorem approach_below (below : value < target) : approach target value travel = min target (value + travel) := by
  rw [approach, if_neg (not_lt_of_gt below), if_pos below]

theorem approach_self : approach target target travel = target := by
  rw [approach, if_neg (lt_irrefl target), if_neg (lt_irrefl target)]

end Definitions

section Rules
variable [IsStrictOrderedRing K] {target value travel : K}

/-- Within reach the value arrives. -/
theorem approach_near (near : |value - target| ≤ travel) : approach target value travel = target := by
  obtain ⟨low, high⟩ := abs_le.mp near
  rcases lt_trichotomy target value with above | same | below
  · rw [approach_above above]
    exact max_eq_left (by linarith)
  · rw [same, approach_self]
  · rw [approach_below below]
    exact min_eq_left (by linarith)

/-- Out of reach it travels the whole way. -/
theorem approach_far (far : travel ≤ |value - target|) (apart : value ≠ target) :
    approach target value travel = movedTowards target value travel := by
  rcases lt_or_gt_of_ne apart with below | above
  · rw [abs_of_neg (by linarith)] at far
    rw [approach_below below, movedTowards, if_neg (not_lt_of_gt below)]
    exact min_eq_right (by linarith)
  · rw [abs_of_pos (by linarith)] at far
    rw [approach_above above, movedTowards, if_pos above]
    exact max_eq_right (by linarith)

theorem approach_zero : approach target value 0 = value := by
  by_cases same : value = target
  · rw [same, approach_self]
  · rw [approach_far (abs_nonneg _) same, movedTowards, sub_zero, add_zero, ite_self]

/-- Approaching is moving by the distance or by the travel, whichever is less. -/
theorem approach_eq_movedTowards (forward : 0 ≤ travel) :
    approach target value travel = movedTowards target value (min |value - target| travel) := by
  by_cases same : value = target
  · rw [same, approach_self, movedTowards, if_neg (lt_irrefl target), sub_self, abs_zero, min_eq_left forward, add_zero]
  rcases le_total travel |value - target| with far | near
  · rw [min_eq_right far, approach_far far same]
  · rw [min_eq_left near, approach_near near, movedTowards]
    split
    · rename_i above
      rw [abs_of_pos (by linarith)]
      ring
    · rename_i below
      rw [abs_of_nonpos (by linarith)]
      ring

/-- What is left of the distance. -/
theorem abs_approach (forward : 0 ≤ travel) :
    |approach target value travel - target| = max 0 (|value - target| - travel) := by
  rcases le_total |value - target| travel with near | far
  · rw [approach_near near, sub_self, abs_zero, max_eq_left (by linarith)]
  · by_cases same : value = target
    · rw [same, approach_self, sub_self, abs_zero, max_eq_left (by linarith)]
    · rw [approach_far far same, max_eq_right (by linarith), movedTowards]
      split
      · rename_i above
        have distance : |value - target| = value - target := abs_of_pos (by linarith)
        rw [distance] at far ⊢
        rw [abs_of_nonneg (by linarith)]
        ring
      · rename_i below
        have distance : |value - target| = -(value - target) := abs_of_nonpos (by linarith)
        rw [distance] at far ⊢
        rw [abs_of_nonpos (by linarith)]
        ring

/-- The value stays between where it was and the target. -/
theorem approach_between (forward : 0 ≤ travel) :
    min value target ≤ approach target value travel ∧ approach target value travel ≤ max value target := by
  rcases lt_trichotomy target value with above | same | below
  · rw [approach_above above, min_eq_right above.le, max_eq_left above.le]
    exact ⟨le_max_left _ _, max_le above.le (by linarith)⟩
  · rw [same, approach_self, min_self, max_self]
    exact ⟨le_refl _, le_refl _⟩
  · rw [approach_below below, min_eq_left below.le, max_eq_right below.le]
    exact ⟨le_min below.le (by linarith), min_le_left _ _⟩

/-- Two approaches one after the other are one of both lengths. -/
theorem approach_approach {more : K} (forward : 0 ≤ travel) (onward : 0 ≤ more) :
    approach target (approach target value travel) more = approach target value (travel + more) := by
  rcases le_or_gt |value - target| travel with near | far
  · rw [approach_near near, approach_self, approach_near (by linarith)]
  · have apart : value ≠ target := by
      rintro rfl
      rw [sub_self, abs_zero] at far
      linarith
    rw [approach_far far.le apart, movedTowards]
    rcases lt_or_gt_of_ne apart with below | above
    · rw [abs_of_neg (by linarith)] at far
      rw [if_neg (not_lt_of_gt below), approach_below (by linarith), approach_below below, add_assoc]
    · rw [abs_of_pos (by linarith)] at far
      rw [if_pos above, approach_above (by linarith), approach_above above, sub_sub]

end Rules
end EnerSentry.Lib.Approach
