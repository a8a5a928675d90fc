import Mathlib.Data.List.Basic
import Mathlib.Data.List.DropRight
import Mathlib.Order.Interval.Finset.Nat
import Mathlib.Order.Interval.Multiset
import Mathlib.Logic.Function.Basic

/-!
The last entries of a growing log, in a list that gives up its first entry and in a cyclic
array. The array counts what it holds, and for a property that stays true towards the newer
end of the log it counts as the log does, up to its size.
-/

namespace EnerSentry.Lib.Recent

variable {T : Type*} {size head count : Nat} {ring : Nat → T} {log : List T}

/-- A list with an entry more, and the first one gone when it gets too long, keeps the end of the log. -/
theorem capped_rtake (size : Nat) (log : List T) (x : T) :
    (if size < (log.rtake size ++ [x]).length then (log.rtake size ++ [x]).tail else log.rtake size ++ [x]) =
      (log ++ [x]).rtake size := by
  by_cases room : log.length < size
  · have whole : log.rtake size = log := by
      rw [List.rtake, Nat.sub_eq_zero_of_le room.le, List.drop_zero]
    have still : (log ++ [x]).rtake size = log ++ [x] := by
      rw [List.rtake, List.length_append, List.length_singleton, Nat.sub_eq_zero_of_le room, List.drop_zero]
    rw [whole, still, List.length_append, List.length_singleton]
    exact if_neg (by omega)
  · have full : (log.rtake size).length = size := by
      rw [List.rtake, List.length_drop]
      omega
    rw [List.length_append, full, List.length_singleton, if_pos (Nat.lt_succ_self _)]
    calc (log.rtake size ++ [x]).tail
        = ((log ++ [x]).drop (log.length - size)).tail := by
          rw [List.rtake, List.drop_append_of_le_length (Nat.sub_le _ _)]
      _ = (log ++ [x]).drop (log.length - size + 1) := List.tail_drop
      _ = (log ++ [x]).rtake size := by
          rw [List.rtake, List.length_append, List.length_singleton, Nat.succ_sub (Nat.not_lt.mp room)]

/-- Cell `i % size` holds entry `i` of the log as long as no newer entry needs the cell. -/
structure Keeps (size : Nat) (ring : Nat → T) (head count : Nat) (log : List T) : Prop where
  count_eq : count = min size log.length
  head_eq : head = if log.length < size then 0 else log.length % size
  cell : ∀ i (present : i < log.length), log.length ≤ i + size → ring (i % size) = log[i]

theorem keeps_nil (ring : Nat → T) (positive : 0 < size) : Keeps size ring 0 0 [] where
  count_eq := by simp
  head_eq := by simp [positive]
  cell i present := absurd present (Nat.not_lt_zero i)

theorem Keeps.slot (keeps : Keeps size ring head count log) :
    (if count < size then (head + count) % size else head) = log.length % size := by
  have filled := keeps.count_eq
  have start := keeps.head_eq
  by_cases room : log.length < size
  · rw [if_pos room] at start
    rw [if_pos (by omega), start, filled, Nat.zero_add, Nat.min_eq_right room.le]
  · rw [if_neg room] at start
    rw [if_neg (by omega), start]

/-- The next entry goes into the cell of the oldest one. -/
theorem Keeps.push (keeps : Keeps size ring head count log) (x : T) :
    Keeps size (Function.update ring (log.length % size) x)
      (if log.length < size then head else (head + 1) % size)
      (if log.length < size then count + 1 else count) (log ++ [x]) where
  count_eq := by
    have filled := keeps.count_eq
    rw [List.length_append, List.length_singleton]
    split <;> omega
  head_eq := by
    have start := keeps.head_eq
    rw [List.length_append, List.length_singleton]
    by_cases room : log.length < size
    · rw [if_pos room] at start ⊢
      by_cases more : log.length + 1 < size
      · rw [if_pos more, start]
      · have full : log.length + 1 = size := by omega
        rw [if_neg more, full, Nat.mod_self, start]
    · rw [if_neg room] at start ⊢
      rw [if_neg (by omega), start, Nat.mod_add_mod]
  cell := by
    intro i present recent
    rw [List.length_append, List.length_singleton] at present recent
    by_cases last : i = log.length
    · subst last
      simp
    · have earlier : i < log.length := by omega
      have apart : i % size ≠ log.length % size := by
        intro same
        have gap := Nat.sub_mod_eq_zero_of_mod_eq same.symm
        have short : log.length - i < size := by omega
        rw [Nat.mod_eq_of_lt short] at gap
        omega
      rw [Function.update_of_ne apart, List.getElem_append_left earlier]
      exact keeps.cell i earlier (by omega)

/-- Up to one lap the cells hold the log from the start. -/
theorem Keeps.cells_first (keeps : Keeps size ring head count log) (room : log.length ≤ size) :
    (List.range log.length).map ring = log := by
  apply List.ext_getElem
  · simp
  · intro i before present
    rw [List.length_map, List.length_range] at before
    rw [List.getElem_map, List.getElem_range]
    by_cases last : i = size
    · omega
    · have cell := keeps.cell i before (by omega)
      rwa [Nat.mod_eq_of_lt (by omega)] at cell

/-- From one lap on the cells hold the lap that has begun, and then what is left of the lap before. -/
theorem Keeps.cells (keeps : Keeps size ring head count log) (positive : 0 < size) (full : size ≤ log.length) :
    (List.range size).map ring =
      log.drop (log.length - log.length % size) ++
        (log.drop (log.length - size)).take (size - log.length % size) := by
  have begun := Nat.mod_lt log.length positive
  have laps := Nat.mod_add_div log.length size
  apply List.ext_getElem
  · simp only [List.length_map, List.length_range, List.length_append, List.length_drop, List.length_take]
    omega
  · intro i before present
    rw [List.length_map, List.length_range] at before
    rw [List.getElem_map, List.getElem_range, List.getElem_append]
    split
    · rename_i inside
      rw [List.length_drop] at inside
      rw [List.getElem_drop]
      have place : (log.length - log.length % size + i) % size = i := by
        rw [show log.length - log.length % size + i = i + size * (log.length / size) by omega,
          Nat.add_mul_mod_self_left, Nat.mod_eq_of_lt before]
      have cell := keeps.cell (log.length - log.length % size + i) (by omega) (by omega)
      rwa [place] at cell
    · rename_i outside
      rw [List.length_drop] at outside
      rw [List.getElem_take, List.getElem_drop]
      have one : size ≤ size * (log.length / size) :=
        Nat.le_mul_of_pos_right size (Nat.div_pos full positive)
      have place : (log.length - size + (i - (log.drop (log.length - log.length % size)).length)) % size = i := by
        have lap : log.length / size = log.length / size - 1 + 1 := by
          have := Nat.div_pos full positive
          omega
        have whole : size * (log.length / size) = size * (log.length / size - 1) + size := by
          rw [lap, Nat.mul_succ, Nat.add_sub_cancel]
        rw [List.length_drop,
          show log.length - size + (i - (log.length - (log.length - log.length % size))) =
            i + size * (log.length / size - 1) by omega,
          Nat.add_mul_mod_self_left, Nat.mod_eq_of_lt before]
      have cell := keeps.cell
        (log.length - size + (i - (log.drop (log.length - log.length % size)).length))
        (by rw [List.length_drop]; omega) (by rw [List.length_drop]; omega)
      rwa [place] at cell

/-- A stretch of `size` entries fills every cell once. -/
theorem perm_range_mod (start size : Nat) :
    ((List.range' start size).map (· % size)).Perm (List.range size) := by
  have cells := Nat.multiset_Ico_map_mod start size
  have stretch : Multiset.Ico start (start + size) = (List.range' start size : Multiset Nat) := by
    show ((List.range' start (start + size - start) : List Nat) : Multiset Nat) = _
    rw [Nat.add_sub_cancel_left]
  rw [stretch, Multiset.map_coe] at cells
  exact Multiset.coe_eq_coe.mp cells

/-- What the array holds is the end of the log. -/
theorem Keeps.perm (keeps : Keeps size ring head count log) :
    ((List.range count).map ring).Perm (log.drop (log.length - size)) := by
  have tail : log.drop (log.length - size) =
      (List.range' (log.length - size) count).map (fun i => ring (i % size)) := by
    apply List.ext_getElem
    · have filled := keeps.count_eq
      simp only [List.length_drop, List.length_map, List.length_range']
      omega
    · intro k before after
      have inside : log.length - size + k < log.length := by
        rw [List.length_drop] at before
        omega
      simp only [List.getElem_drop, List.getElem_map, List.getElem_range', Nat.one_mul]
      exact (keeps.cell _ inside (by omega)).symm
  rw [tail]
  apply List.Perm.symm
  by_cases full : size ≤ log.length
  · have whole : count = size := by rw [keeps.count_eq, Nat.min_eq_left full]
    rw [whole]
    have cells := (perm_range_mod (log.length - size) size).map ring
    rw [List.map_map] at cells
    exact cells
  · have filled : count = log.length := by rw [keeps.count_eq, Nat.min_eq_right (by omega)]
    rw [show log.length - size = 0 by omega, ← List.range_eq_range']
    apply List.Perm.of_eq
    apply List.map_congr_left
    intro i member
    rw [Nat.mod_eq_of_lt (by have := List.mem_range.mp member; omega)]

/-- The newest entries of a log that satisfy a property, when every newer entry does that an
older one does. -/
theorem countP_drop {p : T → Bool} (stays : log.Pairwise fun x y => p x = true → p y = true) (k : Nat) :
    (log.drop k).countP p = min (log.length - k) (log.countP p) := by
  induction log generalizing k with
  | nil => simp
  | cons x log ih =>
    obtain ⟨first, stays⟩ := List.pairwise_cons.mp stays
    cases k with
    | zero => exact (Nat.min_eq_right List.countP_le_length).symm
    | succ k =>
      rw [List.drop_succ_cons, ih stays, List.length_cons, Nat.add_sub_add_right]
      by_cases holds : p x = true
      · have every : log.countP p = log.length :=
          List.countP_eq_length.mpr (fun y member => first y member holds)
        rw [List.countP_cons_of_pos holds, every]
        omega
      · rw [List.countP_cons_of_neg holds]

/-- The array counts what the log counts, and never more than its size. -/
theorem Keeps.countP_eq (keeps : Keeps size ring head count log) {p : T → Bool}
    (stays : log.Pairwise fun x y => p x = true → p y = true) :
    (List.range count).countP (fun i => p (ring i)) = min size (log.countP p) := by
  have held := (keeps.perm.countP_eq p).trans (countP_drop stays _)
  have bound : log.countP p ≤ log.length := List.countP_le_length
  rw [List.countP_map] at held
  rw [show (fun i => p (ring i)) = p ∘ ring from rfl, held]
  omega

end EnerSentry.Lib.Recent
