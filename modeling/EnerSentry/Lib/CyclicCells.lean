import Mathlib.Data.List.Induction
import Mathlib.Logic.Function.Basic

/-!
Writing a list into consecutive cells of a cyclic array. What a cell holds afterwards is the
last element written to it, or what it held before when none was.
-/

namespace EnerSentry.Lib.CyclicCells

variable {T : Type*} {n w : Nat} {cells : Nat → T} {xs : List T} {x : T} {i j p : Nat}

/-- The elements go into the cells from `w` on, around an array of `n` cells. -/
def fill (n w : Nat) (cells : Nat → T) (xs : List T) : Nat → T :=
  xs.zipIdx.foldl (fun cells (x : T × Nat) => Function.update cells ((w + x.2) % n) x.1) cells

theorem fill_concat : fill n w cells (xs ++ [x]) =
    Function.update (fill n w cells xs) ((w + xs.length) % n) x := by
  simp only [fill, List.zipIdx_append, List.foldl_append, List.zipIdx_cons, List.zipIdx_nil, List.foldl_cons,
    List.foldl_nil, Nat.zero_add]

/-- Two positions less than a lap apart are different cells. -/
theorem cell_ne (before : i < j) (within : j < i + n) : (w + i) % n ≠ (w + j) % n := by
  intro same
  have whole := Nat.sub_mod_eq_zero_of_mod_eq same.symm
  rw [Nat.add_sub_add_left, Nat.mod_eq_of_lt (by omega)] at whole
  omega

/-- The last lap is there as it was written. -/
theorem fill_recent (written : xs[i]? = some x) (recent : xs.length ≤ i + n) :
    fill n w cells xs ((w + i) % n) = x := by
  induction xs using List.reverseRecOn with
  | nil => simp at written
  | append_singleton xs y ih =>
    rw [List.length_append, List.length_singleton] at recent
    rw [fill_concat]
    by_cases last : i = xs.length
    · subst last
      rw [Function.update_self]
      simpa using written
    · have inside : i < xs.length := by
        have bound := (List.getElem?_eq_some_iff.mp written).1
        rw [List.length_append, List.length_singleton] at bound
        omega
      rw [List.getElem?_append_left inside] at written
      rw [Function.update_of_ne (cell_ne inside (by omega))]
      exact ih written (by omega)

/-- A cell holds an element that was written to it, or none was. -/
theorem fill_cases (cells : Nat → T) (xs : List T) (p : Nat) :
    (∃ i x, xs[i]? = some x ∧ (w + i) % n = p ∧ fill n w cells xs p = x) ∨
      (∀ i < xs.length, (w + i) % n ≠ p) ∧ fill n w cells xs p = cells p := by
  induction xs using List.reverseRecOn with
  | nil => exact Or.inr ⟨by simp, rfl⟩
  | append_singleton xs y ih =>
    rw [fill_concat]
    by_cases last : (w + xs.length) % n = p
    · subst last
      exact Or.inl ⟨xs.length, y, by simp, rfl, Function.update_self ..⟩
    · rw [Function.update_of_ne (Ne.symm last)]
      rcases ih with ⟨i, x, written, here, holds⟩ | ⟨untouched, same⟩
      · have inside := (List.getElem?_eq_some_iff.mp written).1
        exact Or.inl ⟨i, x, by rwa [List.getElem?_append_left inside], here, holds⟩
      · refine Or.inr ⟨fun i bound => ?_, same⟩
        rw [List.length_append, List.length_singleton] at bound
        by_cases own : i = xs.length
        · exact own ▸ last
        · exact untouched i (by omega)

theorem fill_untouched (untouched : ∀ i < xs.length, (w + i) % n ≠ p) : fill n w cells xs p = cells p := by
  rcases fill_cases cells xs p with ⟨i, x, written, here, -⟩ | ⟨-, same⟩
  · exact absurd here (untouched i (List.getElem?_eq_some_iff.mp written).1)
  · exact same

/-- A position that was written holds one of the elements. -/
theorem fill_mem (inside : i < xs.length) : fill n w cells xs ((w + i) % n) ∈ xs := by
  rcases fill_cases cells xs ((w + i) % n) with ⟨j, x, written, -, holds⟩ | ⟨untouched, -⟩
  · rw [holds]
    exact List.mem_of_getElem? written
  · exact absurd rfl (untouched i inside)

/-- Two arrays that are written alike agree where they are written. -/
theorem fill_agree (cells cells' : Nat → T) (xs : List T) (p : Nat) :
    fill n w cells xs p = fill n w cells' xs p ∨ (∀ i < xs.length, (w + i) % n ≠ p) := by
  induction xs using List.reverseRecOn with
  | nil => exact Or.inr (by simp)
  | append_singleton xs y ih =>
    rw [fill_concat, fill_concat]
    by_cases last : p = (w + xs.length) % n
    · subst last
      exact Or.inl (by rw [Function.update_self, Function.update_self])
    · rw [Function.update_of_ne last, Function.update_of_ne last]
      refine ih.imp_right fun untouched i bound => ?_
      rw [List.length_append, List.length_singleton] at bound
      by_cases own : i = xs.length
      · exact own ▸ Ne.symm last
      · exact untouched i (by omega)

end EnerSentry.Lib.CyclicCells
