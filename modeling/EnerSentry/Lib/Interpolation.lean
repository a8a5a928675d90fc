import Mathlib.Algebra.Order.Field.Basic
import Mathlib.Order.Monotone.Basic
import Mathlib.Tactic.Linarith

/-!
Linear interpolation in a table of ascending arguments, looked up from the left. Outside the table the value
at its nearer end is taken. The function meets the table at its arguments and ascends where the values do.
-/

namespace EnerSentry.Lib.Interpolation

variable {K : Type*} [Field K]

/-- The straight line through two points of a table. -/
def line (xs ys : Nat → K) (i : Nat) (x : K) : K := ys i + (x - xs i) / (xs (i + 1) - xs i) * (ys (i + 1) - ys i)

section Lines
variable {xs ys : Nat → K} {i : Nat} {x x' : K}

theorem line_left : line xs ys i (xs i) = ys i := by
  rw [line, sub_self, zero_div, zero_mul, add_zero]

theorem line_right (differ : xs (i + 1) ≠ xs i) : line xs ys i (xs (i + 1)) = ys (i + 1) := by
  rw [line, div_self (sub_ne_zero.mpr differ), one_mul, add_sub_cancel]

theorem line_mono [LinearOrder K] [IsStrictOrderedRing K] (ascends : xs i < xs (i + 1)) (rises : ys i ≤ ys (i + 1))
    (less : x ≤ x') : line xs ys i x ≤ line xs ys i x' := by
  have width : 0 < xs (i + 1) - xs i := sub_pos.mpr ascends
  have part : (x - xs i) / (xs (i + 1) - xs i) ≤ (x' - xs i) / (xs (i + 1) - xs i) :=
    div_le_div_of_nonneg_right (sub_le_sub_right less _) width.le
  exact (add_le_add_iff_left _).mpr (mul_le_mul_of_nonneg_right part (sub_nonneg.mpr rises))

end Lines

variable [LinearOrder K]

def interpolate (xs ys : Nat → K) (n : Nat) (x : K) : K :=
  if x ≤ xs 0 then ys 0
  else if xs n ≤ x then ys n
  else
    match (List.range n).find? (fun i => xs i ≤ x && x ≤ xs (i + 1)) with
    | none => ys n
    | some i => line xs ys i x

section Ascending
variable {n : Nat}

theorem ascending_lt {L : Type*} [Preorder L] {xs : Nat → L} (ascends : ∀ i < n, xs i < xs (i + 1)) {i j : Nat}
    (before : i < j) (inside : j ≤ n) : xs i < xs j := by
  induction j with
  | zero => exact absurd before (Nat.not_lt_zero i)
  | succ j ih =>
    rcases Nat.lt_succ_iff_lt_or_eq.mp before with earlier | rfl
    · exact (ih earlier (Nat.le_of_succ_le inside)).trans (ascends j inside)
    · exact ascends i inside

theorem rising_le {L : Type*} [Preorder L] {ys : Nat → L} (rises : ∀ i < n, ys i ≤ ys (i + 1)) {i j : Nat}
    (before : i ≤ j) (inside : j ≤ n) : ys i ≤ ys j := by
  induction j with
  | zero => rw [Nat.le_zero.mp before]
  | succ j ih =>
    rcases Nat.le_succ_iff.mp before with earlier | rfl
    · exact (ih earlier (Nat.le_of_succ_le inside)).trans (rises j inside)
    · exact le_refl _

/-- An argument inside the table lies between two neighbours. -/
theorem exists_between {L : Type*} [LinearOrder L] {xs : Nat → L} {x : L} (low : xs 0 < x) (high : x < xs n) :
    ∃ i < n, xs i ≤ x ∧ x ≤ xs (i + 1) := by
  by_contra nowhere
  have left : ∀ i ≤ n, xs i ≤ x := by
    intro i inside
    induction i with
    | zero => exact low.le
    | succ i ih =>
      by_contra beyond
      exact nowhere ⟨i, inside, ih (Nat.le_of_succ_le inside), (not_le.mp beyond).le⟩
  exact absurd (left n (Nat.le_refl n)) (not_le.mpr high)

end Ascending

section Table
variable {xs ys : Nat → K} {n : Nat} {x : K}

theorem interpolate_low (low : x ≤ xs 0) : interpolate xs ys n x = ys 0 := if_pos low

theorem interpolate_high (low : xs 0 < x) (high : xs n ≤ x) : interpolate xs ys n x = ys n := by
  rw [interpolate, if_neg (not_le.mpr low), if_pos high]

/-- Where the table is looked up inside, the value is on the line of an interval around the argument. -/
theorem interpolate_inside (ys : Nat → K) (low : xs 0 < x) (high : x < xs n) :
    ∃ i < n, xs i ≤ x ∧ x ≤ xs (i + 1) ∧ interpolate xs ys n x = line xs ys i x := by
  rw [interpolate, if_neg (not_le.mpr low), if_neg (not_le.mpr high)]
  cases found : (List.range n).find? (fun i => xs i ≤ x && x ≤ xs (i + 1)) with
  | some i =>
    have holds := List.find?_some found
    have member := List.mem_range.mp (List.mem_of_find?_eq_some found)
    simp only [Bool.and_eq_true, decide_eq_true_eq] at holds
    exact ⟨i, member, holds.1, holds.2, rfl⟩
  | none =>
    obtain ⟨i, inside, left, right⟩ := exists_between low high
    have passed := List.find?_eq_none.mp found i (List.mem_range.mpr inside)
    simp [left, right] at passed

/-- The table's own arguments have the table's values. -/
theorem interpolate_knot (ascends : ∀ i < n, xs i < xs (i + 1)) {k : Nat} (inside : k ≤ n) :
    interpolate xs ys n (xs k) = ys k := by
  rcases Nat.eq_zero_or_pos k with rfl | first
  · exact interpolate_low (le_refl _)
  · have low : xs 0 < xs k := ascending_lt ascends first inside
    rcases inside.eq_or_lt with rfl | last
    · exact interpolate_high low (le_refl _)
    · obtain ⟨i, within, left, right, value⟩ :=
        interpolate_inside ys low (ascending_lt ascends last (Nat.le_refl n))
      -- the interval found ends or begins at this argument
      have notAfter : i ≤ k := by
        by_contra after
        exact absurd left (not_le.mpr (ascending_lt ascends (not_le.mp after) within.le))
      have notBefore : k ≤ i + 1 := by
        by_contra before
        exact absurd right (not_le.mpr (ascending_lt ascends (not_le.mp before) inside))
      rw [value]
      rcases notAfter.eq_or_lt with rfl | before
      · exact line_left
      · obtain rfl : k = i + 1 := Nat.le_antisymm notBefore before
        exact line_right (ascends i within).ne'

variable [IsStrictOrderedRing K]

theorem interpolate_bounds (ascends : ∀ i < n, xs i < xs (i + 1)) (rises : ∀ i < n, ys i ≤ ys (i + 1)) (x : K) :
    ys 0 ≤ interpolate xs ys n x ∧ interpolate xs ys n x ≤ ys n := by
  have whole : ys 0 ≤ ys n := rising_le rises (Nat.zero_le n) (Nat.le_refl n)
  by_cases low : x ≤ xs 0
  · rw [interpolate_low low]
    exact ⟨le_refl _, whole⟩
  · by_cases high : xs n ≤ x
    · rw [interpolate_high (not_le.mp low) high]
      exact ⟨whole, le_refl _⟩
    · obtain ⟨i, inside, left, right, value⟩ :=
        interpolate_inside ys (not_le.mp low) (not_le.mp high)
      have since := line_mono (ascends i inside) (rises i inside) left
      have upTo := line_mono (ascends i inside) (rises i inside) right
      rw [line_left] at since
      rw [line_right (ascends i inside).ne'] at upTo
      rw [value]
      exact ⟨(rising_le rises (Nat.zero_le i) inside.le).trans since,
        upTo.trans (rising_le rises inside (Nat.le_refl n))⟩

theorem interpolate_mono (ascends : ∀ i < n, xs i < xs (i + 1)) (rises : ∀ i < n, ys i ≤ ys (i + 1)) :
    Monotone (interpolate xs ys n) := by
  intro x x' less
  by_cases low : x ≤ xs 0
  · rw [interpolate_low low]
    exact (interpolate_bounds ascends rises x').1
  · by_cases high : xs n ≤ x'
    · rw [interpolate_high ((not_le.mp low).trans_le less) high]
      exact (interpolate_bounds ascends rises x).2
    · obtain ⟨i, inside, left, right, value⟩ :=
        interpolate_inside ys (not_le.mp low) (less.trans_lt (not_le.mp high))
      obtain ⟨j, inside', left', right', value'⟩ :=
        interpolate_inside ys ((not_le.mp low).trans_le less) (not_le.mp high)
      rw [value, value']
      rcases lt_trichotomy i j with before | rfl | after
      · have upTo := line_mono (ascends i inside) (rises i inside) right
        have since := line_mono (ascends j inside') (rises j inside') left'
        rw [line_right (ascends i inside).ne'] at upTo
        rw [line_left] at since
        exact upTo.trans ((rising_le rises before inside'.le).trans since)
      · exact line_mono (ascends i inside) (rises i inside) less
      · -- both arguments lie on the border of the two intervals
        have border : xs (j + 1) ≤ xs i := rising_le (fun k within => (ascends k within).le) after inside.le
        have same : x = x' := le_antisymm less ((right'.trans border).trans left)
        rw [← value, ← value', same]

end Table

end EnerSentry.Lib.Interpolation
