import Mathlib.Data.List.Basic

/-!
Reading a memory cell by cell, where a read outside of it stops the computation. One that
comes to its end on the cells of a list has read nothing beyond the list.
-/

namespace EnerSentry.Lib.GuardedReads

variable {B R : Type*}

/-- The memory that holds a list and nothing else. -/
def holding (bytes : List B) : Nat → Option B := fun i => bytes[i]?

/-- What `item` makes of `0`, …, `n - 1`, one after the other. -/
def collect (item : Nat → Option R) : Nat → Option (List R)
  | 0 => some []
  | n + 1 => do
      let front ← collect item n
      let r ← item n
      return front ++ [r]

/-- The cells `start`, …, `start + n - 1`. -/
def readMany (mem : Nat → Option B) (start n : Nat) : Option (List B) := collect (fun i => mem (start + i)) n

section Rules
variable {bytes : List B} {start n : Nat}

theorem holding_inside (fallback : B) (inside : n < bytes.length) :
    holding bytes n = some (bytes.getD n fallback) := by
  rw [holding, List.getD_eq_getElem?_getD, List.getElem?_eq_getElem inside, Option.getD_some]

theorem readMany_holding (inside : start + n ≤ bytes.length) :
    readMany (holding bytes) start n = some ((bytes.drop start).take n) := by
  unfold readMany
  induction n with
  | zero => rfl
  | succ n ih =>
    have here : start + n < bytes.length := by omega
    have last : (bytes.drop start)[n]? = some bytes[start + n] := by
      rw [List.getElem?_drop, List.getElem?_eq_getElem here]
    have read : holding bytes (start + n) = some bytes[start + n] := List.getElem?_eq_getElem here
    simp only [collect, ih (by omega), read, List.take_add_one, last, Option.toList_some, Option.bind_eq_bind,
      Option.bind_some, Option.pure_def]

theorem collect_eq {item : Nat → Option R} (result : Nat → R) (reads : ∀ i < n, item i = some (result i)) :
    collect item n = some ((List.range n).map result) := by
  induction n with
  | zero => rfl
  | succ n ih =>
    simp only [collect, ih fun i below => reads i (by omega), reads n (by omega), Option.bind_eq_bind,
      Option.bind_some, Option.pure_def, List.range_succ, List.map_append, List.map_cons, List.map_nil]

end Rules

end EnerSentry.Lib.GuardedReads
