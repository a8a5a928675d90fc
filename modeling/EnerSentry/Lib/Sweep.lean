import Mathlib.Data.List.Basic
import Mathlib.Data.List.Pairwise

/-!
A greedy sweep over intervals in the order of their starts. Intervals that touch or
overlap are collected into one group as long as the group stays within a limit; a gap or
the limit opens the next group.
-/

namespace EnerSentry.Lib.Sweep

variable {α : Type*}

/-- A stretch from `first` up to `last`, and the intervals collected in it. -/
structure Group (α : Type*) where
  first : Nat
  last : Nat
  items : List α

section Operations
variable (start stop : α → Nat) (limit : Nat)

def single (x : α) : Group α := ⟨start x, stop x, [x]⟩

namespace Group

def join (g : Group α) (x : α) : Group α := ⟨g.first, max g.last (stop x), g.items ++ [x]⟩

def splits (g : Group α) (x : α) : Bool := g.last < start x || limit < stop x - g.first

/-- The collected intervals lie in the stretch, and the stretch is within the limit. -/
structure Fits (g : Group α) : Prop where
  within : ∀ x ∈ g.items, g.first ≤ start x ∧ stop x ≤ g.last
  bounded : g.last ≤ g.first + limit

/-- The collected intervals leave no place of the stretch uncovered. -/
def Covered (g : Group α) : Prop :=
  ∀ place, g.first ≤ place → place < g.last → ∃ x ∈ g.items, start x ≤ place ∧ place < stop x

end Group

def sweepFrom (g : Group α) : List α → List (Group α)
  | [] => [g]
  | x :: xs =>
      if g.splits start stop limit x then g :: sweepFrom (single start stop x) xs
      else sweepFrom (g.join stop x) xs

def sweep : List α → List (Group α)
  | [] => []
  | x :: xs => sweepFrom start stop limit (single start stop x) xs

end Operations

section Rules
variable {start stop : α → Nat} {limit : Nat} {g h : Group α} {x : α} {xs : List α}

theorem fits_single (narrow : stop x ≤ start x + limit) : (single start stop x).Fits start stop limit := by
  refine ⟨?_, narrow⟩
  intro y member
  obtain rfl := List.mem_singleton.mp member
  exact ⟨Nat.le_refl _, Nat.le_refl _⟩

theorem Group.Fits.join (fits : g.Fits start stop limit) (above : g.first ≤ start x)
    (joined : g.splits start stop limit x = false) : (g.join stop x).Fits start stop limit := by
  have room : stop x - g.first ≤ limit := by
    simp only [Group.splits, Bool.or_eq_false_iff, decide_eq_false_iff_not] at joined
    omega
  have bounded := fits.bounded
  constructor
  · intro y member
    rcases List.mem_append.mp member with earlier | last
    · obtain ⟨low, high⟩ := fits.within y earlier
      exact ⟨low, Nat.le_trans high (Nat.le_max_left ..)⟩
    · obtain rfl := List.mem_singleton.mp last
      exact ⟨above, Nat.le_max_right ..⟩
  · simp only [Group.join]
    omega

/-- Every interval ends up in one group, in the order of the sweep. -/
theorem items_sweepFrom : (sweepFrom start stop limit g xs).flatMap Group.items = g.items ++ xs := by
  induction xs generalizing g with
  | nil => simp [sweepFrom]
  | cons x xs ih =>
    rw [sweepFrom]
    split
    · rw [List.flatMap_cons, ih]
      rfl
    · rw [ih, Group.join, List.append_assoc]
      rfl

theorem items_sweep (start stop : α → Nat) (limit : Nat) (xs : List α) :
    (sweep start stop limit xs).flatMap Group.items = xs := by
  cases xs with
  | nil => rfl
  | cons x xs => exact items_sweepFrom

/-- What holds of a fresh group and is kept by every join holds of all groups of a sweep. -/
theorem forall_sweepFrom {P : Group α → Prop} (fresh : ∀ x ∈ xs, P (single start stop x))
    (kept : ∀ g x, P g → g.splits start stop limit x = false → P (g.join stop x)) (begins : P g)
    (swept : h ∈ sweepFrom start stop limit g xs) : P h := by
  induction xs generalizing g with
  | nil =>
    rw [List.mem_singleton.mp swept]
    exact begins
  | cons x xs ih =>
    rw [List.forall_mem_cons] at fresh
    rw [sweepFrom] at swept
    split at swept
    · rcases List.mem_cons.mp swept with rfl | later
      · exact begins
      · exact ih fresh.2 fresh.1 later
    · rename_i joined
      exact ih fresh.2 (kept g x begins (Bool.eq_false_iff.mpr joined)) swept

theorem forall_sweep {P : Group α → Prop} (fresh : ∀ x ∈ xs, P (single start stop x))
    (kept : ∀ g x, P g → g.splits start stop limit x = false → P (g.join stop x))
    (swept : h ∈ sweep start stop limit xs) : P h := by
  cases xs with
  | nil => cases swept
  | cons x xs =>
    rw [List.forall_mem_cons] at fresh
    exact forall_sweepFrom fresh.2 kept fresh.1 swept

/-- Every group has something in it. -/
theorem items_ne_nil_sweep (swept : h ∈ sweep start stop limit xs) : h.items ≠ [] := by
  apply forall_sweep (P := fun g => g.items ≠ []) ?_ ?_ swept
  · intro x _
    exact List.cons_ne_nil x []
  · intro g x _ _
    exact List.append_ne_nil_of_right_ne_nil g.items (List.cons_ne_nil x [])

theorem fits_sweepFrom (fits : g.Fits start stop limit) (above : ∀ x ∈ xs, g.first ≤ start x)
    (sorted : xs.Pairwise fun x y => start x ≤ start y) (narrow : ∀ x ∈ xs, stop x ≤ start x + limit)
    (member : h ∈ sweepFrom start stop limit g xs) : h.Fits start stop limit := by
  induction xs generalizing g with
  | nil =>
    obtain rfl := List.mem_singleton.mp member
    exact fits
  | cons x xs ih =>
    obtain ⟨least, sorted⟩ := List.pairwise_cons.mp sorted
    rw [List.forall_mem_cons] at above narrow
    rw [sweepFrom] at member
    split at member
    · rcases List.mem_cons.mp member with rfl | later
      · exact fits
      · exact ih (fits_single narrow.1) least sorted narrow.2 later
    · rename_i joined
      exact ih (fits.join above.1 (Bool.eq_false_iff.mpr joined)) above.2 sorted narrow.2 member

/-- Every group of a sweep holds its intervals and keeps to the limit. -/
theorem fits_sweep (sorted : xs.Pairwise fun x y => start x ≤ start y)
    (narrow : ∀ x ∈ xs, stop x ≤ start x + limit) (member : h ∈ sweep start stop limit xs) :
    h.Fits start stop limit := by
  cases xs with
  | nil => exact absurd member (List.not_mem_nil)
  | cons x xs =>
    obtain ⟨least, sorted⟩ := List.pairwise_cons.mp sorted
    rw [List.forall_mem_cons] at narrow
    exact fits_sweepFrom (fits_single narrow.1) least sorted narrow.2 member

theorem Group.Covered.join (covered : g.Covered start stop) (joined : g.splits start stop limit x = false) :
    (g.join stop x).Covered start stop := by
  have touches : start x ≤ g.last := by
    simp only [Group.splits, Bool.or_eq_false_iff, decide_eq_false_iff_not] at joined
    omega
  intro place low high
  by_cases inside : place < g.last
  · obtain ⟨y, member, holds⟩ := covered place low inside
    exact ⟨y, List.mem_append_left [x] member, holds⟩
  · have beyond : place < max g.last (stop x) := high
    have above : g.last ≤ place := Nat.le_of_not_lt inside
    exact ⟨x, List.mem_append_right g.items List.mem_cons_self, Nat.le_trans touches above, by omega⟩

/-- A sweep leaves no hole in its groups. -/
theorem covered_sweep (swept : h ∈ sweep start stop limit xs) : h.Covered start stop := by
  apply forall_sweep (P := Group.Covered start stop) ?_ ?_ swept
  · intro x _ place low high
    exact ⟨x, List.mem_cons_self, low, high⟩
  · intro g x covered joined
    exact covered.join joined

/-- Groups of intervals that are not empty are not empty either. -/
theorem first_lt_last_sweep (wide : ∀ x ∈ xs, start x < stop x) (swept : h ∈ sweep start stop limit xs) :
    h.first < h.last := by
  apply forall_sweep (P := fun g => g.first < g.last) wide ?_ swept
  intro g x ordered _
  exact Nat.lt_of_lt_of_le ordered (Nat.le_max_left ..)

/-- A group starts where one of its intervals does. -/
theorem first_sweepFrom (swept : h ∈ sweepFrom start stop limit g xs) :
    h.first = g.first ∨ ∃ x ∈ xs, h.first = start x := by
  apply forall_sweepFrom (P := fun h => h.first = g.first ∨ ∃ x ∈ xs, h.first = start x) ?_ ?_ (Or.inl rfl) swept
  · intro x member
    exact Or.inr ⟨x, member, rfl⟩
  · intro h x origin _
    exact origin

/-- An interval that opens a group behind `g` starts above it. -/
theorem first_lt_of_splits (ordered : g.first ≤ g.last) (narrow : stop x ≤ start x + limit)
    (opens : g.splits start stop limit x = true) : g.first < start x := by
  simp only [Group.splits, Bool.or_eq_true, decide_eq_true_eq] at opens
  rcases opens with gap | full <;> omega

theorem ascending_sweepFrom (ordered : g.first ≤ g.last) (sorted : xs.Pairwise fun x y => start x ≤ start y)
    (wide : ∀ x ∈ xs, start x < stop x) (narrow : ∀ x ∈ xs, stop x ≤ start x + limit) :
    (sweepFrom start stop limit g xs).Pairwise fun a b => a.first < b.first := by
  induction xs generalizing g with
  | nil => exact List.pairwise_singleton _ g
  | cons x xs ih =>
    obtain ⟨least, sorted⟩ := List.pairwise_cons.mp sorted
    rw [List.forall_mem_cons] at wide narrow
    rw [sweepFrom]
    split
    · rename_i opens
      have above := first_lt_of_splits ordered narrow.1 opens
      apply List.Pairwise.cons ?_ (ih (Nat.le_of_lt wide.1) sorted wide.2 narrow.2)
      intro h later
      rcases first_sweepFrom later with same | ⟨y, member, same⟩
      · exact same ▸ above
      · exact same ▸ Nat.lt_of_lt_of_le above (least y member)
    · exact ih (Nat.le_trans ordered (Nat.le_max_left ..)) sorted wide.2 narrow.2

/-- The groups of a sweep start in ascending order. -/
theorem ascending_sweep (sorted : xs.Pairwise fun x y => start x ≤ start y)
    (wide : ∀ x ∈ xs, start x < stop x) (narrow : ∀ x ∈ xs, stop x ≤ start x + limit) :
    (sweep start stop limit xs).Pairwise fun a b => a.first < b.first := by
  cases xs with
  | nil => exact List.Pairwise.nil
  | cons x xs =>
    rw [List.forall_mem_cons] at wide narrow
    exact ascending_sweepFrom (Nat.le_of_lt wide.1) (List.pairwise_cons.mp sorted).2 wide.2 narrow.2

end Rules

end EnerSentry.Lib.Sweep
