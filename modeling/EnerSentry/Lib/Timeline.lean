import Mathlib.Algebra.Order.Group.Int
import Mathlib.Order.ConditionallyCompleteLattice.Basic
import Mathlib.Data.Int.ConditionallyCompleteOrder

/-!
A time line cut into numbered periods, each of which starts where the one before ends. Items of a stretch
of time are found by going through the periods that meet it.
-/

namespace EnerSentry.Lib

structure Timeline where
  start : ℤ → ℤ
  number : ℤ → ℤ
  increasing : StrictMono start
  started : ∀ t, start (number t) ≤ t
  running : ∀ t, t < start (number t + 1)

namespace Timeline
variable (line : Timeline) {i j t u stop : ℤ}

theorem number_eq_iff : line.number t = i ↔ line.start i ≤ t ∧ t < line.start (i + 1) := by
  constructor
  · rintro rfl
    exact ⟨line.started t, line.running t⟩
  · rintro ⟨started, running⟩
    have up : i < line.number t + 1 := line.increasing.lt_iff_lt.mp (started.trans_lt (line.running t))
    have down : line.number t < i + 1 := line.increasing.lt_iff_lt.mp ((line.started t).trans_lt running)
    omega

theorem number_start (i : ℤ) : line.number (line.start i) = i :=
  line.number_eq_iff.mpr ⟨le_rfl, line.increasing (by omega)⟩

theorem le_number_iff : i ≤ line.number t ↔ line.start i ≤ t := by
  constructor
  · intro below
    exact (line.increasing.monotone below).trans (line.started t)
  · intro started
    have up : i < line.number t + 1 := line.increasing.lt_iff_lt.mp (started.trans_lt (line.running t))
    omega

theorem number_mono : Monotone line.number := fun t _ later =>
  line.le_number_iff.mpr ((line.started t).trans later)

/-- The numbers of the periods from `i` on that start before a time. -/
def periods (i stop : ℤ) : List ℤ := if line.start i < stop then i :: periods (i + 1) stop else []
termination_by (stop - line.start i).toNat
decreasing_by
  have later : line.start i < line.start (i + 1) := line.increasing (by omega)
  omega

theorem mem_periods : j ∈ line.periods i stop ↔ i ≤ j ∧ line.start j < stop := by
  fun_induction line.periods i stop with
  | case1 i before ih =>
    rw [List.mem_cons, ih]
    constructor
    · rintro (rfl | ⟨later, open_⟩)
      · exact ⟨le_rfl, before⟩
      · exact ⟨by omega, open_⟩
    · rintro ⟨later, open_⟩
      by_cases same : j = i
      · exact Or.inl same
      · exact Or.inr ⟨by omega, open_⟩
  | case2 i reached =>
    constructor
    · intro none
      cases none
    · rintro ⟨later, open_⟩
      exact absurd ((line.increasing.monotone later).trans_lt open_) reached

theorem periods_ascending : (line.periods i stop).Pairwise (· < ·) := by
  fun_induction line.periods i stop with
  | case1 i before ih =>
    refine List.Pairwise.cons (fun j member => ?_) ih
    have later := (line.mem_periods.mp member).1
    omega
  | case2 i reached => exact List.Pairwise.nil

/-- Parts that are in order, each within its period, are in order one after the other. -/
theorem flatMap_ascending {α : Type*} {time : α → ℤ} {part : ℤ → List α} {numbers : List ℤ}
    (ascending : numbers.Pairwise (· < ·)) (within : ∀ j ∈ numbers, ∀ a ∈ part j, line.number (time a) = j)
    (ordered : ∀ j ∈ numbers, (part j).Pairwise (time · < time ·)) :
    (numbers.flatMap part).Pairwise (time · < time ·) := by
  rw [List.pairwise_flatMap]
  refine ⟨ordered, ascending.imp_of_mem ?_⟩
  intro j k first second before a early b late
  by_contra same
  have back := line.number_mono (not_lt.mp same)
  rw [within j first a early, within k second b late] at back
  omega

section Starts
variable {start : ℤ → ℤ} (increasing : StrictMono start)
include increasing

theorem add_le_start (n : Nat) : start i + n ≤ start (i + n) := by
  induction n with
  | zero => simp
  | succ n ih =>
    have next : start (i + n) < start (i + n + 1) := increasing (by omega)
    push_cast
    rw [← add_assoc i]
    omega

theorem start_sub_le (n : Nat) : start (i - n) ≤ start i - n := by
  have up := add_le_start increasing (i := i - n) n
  rw [Int.sub_add_cancel] at up
  omega

/-- Every time is in a period: the last one that has started. -/
theorem exists_number (t : ℤ) : ∃ i, start i ≤ t ∧ t < start (i + 1) := by
  have bounded : ∀ i, start i ≤ t → i ≤ (t - start 0).natAbs := by
    intro i started
    by_contra beyond
    have up := add_le_start increasing (i := 0) ((t - start 0).natAbs + 1)
    have later : start (0 + ((t - start 0).natAbs + 1 : Nat)) ≤ start i := increasing.monotone (by omega)
    omega
  have first : ∃ i, start i ≤ t := by
    refine ⟨0 - (t - start 0).natAbs, ?_⟩
    have down := start_sub_le increasing (i := 0) (t - start 0).natAbs
    omega
  obtain ⟨i, started, last⟩ := Int.exists_greatest_of_bdd ⟨_, bounded⟩ first
  refine ⟨i, started, not_le.mp fun next => ?_⟩
  have := last _ next
  omega

end Starts

/-- The periods with the given starts. -/
noncomputable def ofStarts (start : ℤ → ℤ) (increasing : StrictMono start) : Timeline where
  start := start
  number t := (exists_number increasing t).choose
  increasing := increasing
  started t := (exists_number increasing t).choose_spec.1
  running t := (exists_number increasing t).choose_spec.2

end Timeline
end EnerSentry.Lib
