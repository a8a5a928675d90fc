import Mathlib.Data.List.Perm.Basic
import Mathlib.Data.List.TakeDrop
import Mathlib.Data.List.Nodup

/-!
Removal from an unordered list: the last entry moves into the hole, and the list loses its end. Nothing
but the removed entry is lost, and only the last entry changes its place.
-/

namespace EnerSentry.Lib

variable {α β : Type*}

def swapRemove (l : List α) (i : Nat) : List α :=
  match l[l.length - 1]? with
  | some last => (l.set i last).dropLast
  | none => []

section SwapRemove
variable {l : List α} {i : Nat} {x : α}

theorem swapRemove_map (f : α → β) (l : List α) (i : Nat) :
    (swapRemove l i).map f = swapRemove (l.map f) i := by
  simp only [swapRemove, List.length_map, List.getElem?_map]
  cases l[l.length - 1]? with
  | none => rfl
  | some last => simp [List.map_dropLast, List.map_set]

/-- The removal as it is programmed; a removal at the end moves nothing. -/
theorem swapRemove_eq (inside : i < l.length) (d : α) :
    swapRemove l i = (if i ≠ l.length - 1 then l.set i (l.getD (l.length - 1) d) else l).dropLast := by
  have last : l[l.length - 1]? = some l[l.length - 1] := List.getElem?_eq_getElem (by omega)
  simp only [swapRemove, last, List.getD_eq_getElem?_getD, Option.getD_some]
  split
  · rfl
  · rename_i atEnd
    rw [not_ne_iff] at atEnd
    subst atEnd
    rw [List.set_getElem_self]

/-- Only the entry that was last is in another place. -/
theorem getElem?_swapRemove (inside : i < l.length) (j : Nat) :
    (swapRemove l i)[j]? =
      if j < l.length - 1 then (if j = i then l[l.length - 1]? else l[j]?) else none := by
  have last : l[l.length - 1]? = some l[l.length - 1] := List.getElem?_eq_getElem (by omega)
  simp only [swapRemove, last, List.getElem?_dropLast, List.length_set, List.getElem?_set]
  grind

/-- The entry that is removed and those that stay are all there were. -/
theorem swapRemove_perm (found : l[i]? = some x) : l.Perm (x :: swapRemove l i) := by
  rcases List.eq_nil_or_concat l with rfl | ⟨init, last, rfl⟩
  · cases found
  · rw [List.concat_eq_append] at found ⊢
    have atEnd : (init ++ [last])[(init ++ [last]).length - 1]? = some last := by simp
    simp only [swapRemove, atEnd]
    by_cases inside : i < init.length
    · rw [List.getElem?_append_left inside] at found
      obtain ⟨_, here⟩ := List.getElem?_eq_some_iff.mp found
      rw [List.set_append_left _ _ inside, List.dropLast_concat, List.set_eq_take_append_cons_drop, if_pos inside]
      calc (init ++ [last]).Perm (last :: init) := List.perm_append_singleton last init
        _ = last :: (init.take i ++ x :: init.drop (i + 1)) := by
          rw [← here, List.getElem_cons_drop, List.take_append_drop]
        _ |>.Perm (last :: x :: (init.take i ++ init.drop (i + 1))) := List.Perm.cons _ List.perm_middle
        _ |>.Perm (x :: last :: (init.take i ++ init.drop (i + 1))) := List.Perm.swap ..
        _ |>.Perm (x :: (init.take i ++ last :: init.drop (i + 1))) := List.Perm.cons _ List.perm_middle.symm
    · have atLast : i = init.length := by
        have bound := (List.getElem?_eq_some_iff.mp found).1
        simp at bound
        omega
      subst atLast
      have same : x = last := by simpa using found.symm
      subst same
      rw [List.set_append_right _ _ (Nat.le_refl _)]
      simp

theorem not_mem_swapRemove (nodup : l.Nodup) (found : l[i]? = some x) : x ∉ swapRemove l i :=
  (List.nodup_cons.mp ((swapRemove_perm found).nodup_iff.mp nodup)).1

end SwapRemove

section Index
variable {κ : Type*} {keys : List κ} {index : κ → Option Nat} {key k moved : κ} {i j : Nat}

/-- The index leads every key to its place, and nothing else anywhere. -/
def Indexes (index : κ → Option Nat) (keys : List κ) : Prop :=
  ∀ k i, index k = some i ↔ keys[i]? = some k

/-- No key stands in two places. -/
theorem Indexes.unique (indexes : Indexes index keys) (first : keys[i]? = some key) (second : keys[j]? = some key) :
    i = j :=
  Option.some.inj (((indexes key i).mpr first).symm.trans ((indexes key j).mpr second))

theorem Indexes.nodup (indexes : Indexes index keys) : keys.Nodup := by
  rw [List.nodup_iff_injective_getElem]
  intro i j same
  apply Fin.ext
  apply indexes.unique (List.getElem?_eq_getElem i.isLt)
  rw [List.getElem?_eq_getElem j.isLt]
  exact congrArg some same.symm

section Removal
variable (found : keys[i]? = some k) (last : keys[keys.length - 1]? = some moved)
include found last

/-- The key that was last is in the hole. -/
theorem Indexes.place_moved (indexes : Indexes index keys) (other : moved ≠ k) :
    (swapRemove keys i)[j]? = some moved ↔ j = i := by
  have inside : i < keys.length := (List.getElem?_eq_some_iff.mp found).1
  have apart : i ≠ keys.length - 1 := by
    intro atEnd
    rw [← atEnd, found] at last
    exact other (Option.some.inj last).symm
  rw [getElem?_swapRemove inside]
  constructor
  · intro remains
    by_contra elsewhere
    split at remains
    · have atEnd := indexes.unique remains last
      omega
    · cases remains
  · rintro rfl
    rw [if_pos (by omega), if_pos rfl, last]

/-- Every other key that stays keeps its place. -/
theorem place_kept_swapRemove (stays : key ≠ k) (other : key ≠ moved) :
    (swapRemove keys i)[j]? = some key ↔ keys[j]? = some key := by
  rw [getElem?_swapRemove (List.getElem?_eq_some_iff.mp found).1]
  constructor
  · intro remains
    split at remains
    · split at remains
      · rw [last] at remains
        exact absurd (Option.some.inj remains).symm other
      · exact remains
    · cases remains
  · intro here
    have bound : j < keys.length := (List.getElem?_eq_some_iff.mp here).1
    have notLast : j ≠ keys.length - 1 := by
      rintro rfl
      rw [last] at here
      exact other (Option.some.inj here).symm
    have notHole : j ≠ i := by
      rintro rfl
      rw [found] at here
      exact stays (Option.some.inj here).symm
    rw [if_pos (by omega), if_neg notHole, here]

end Removal

variable [DecidableEq κ]

/-- A key that comes to the end is led there. -/
theorem Indexes.concat (indexes : Indexes index keys) (fresh : k ∉ keys) :
    Indexes (fun key => if key = k then some keys.length else index key) (keys ++ [k]) := by
  intro key j
  dsimp only
  rw [List.getElem?_append]
  by_cases same : key = k
  · subst same
    rw [if_pos rfl]
    split
    · rename_i inside
      have absent : keys[j]? ≠ some key := fun found => fresh (List.mem_of_getElem? found)
      exact iff_of_false (fun equal => absurd (Option.some.inj equal) (by omega)) absent
    · rename_i outside
      rw [Option.some_inj, List.getElem?_singleton]
      split
      · exact iff_of_true (by omega) rfl
      · exact iff_of_false (by omega) (fun none_some => nomatch none_some)
  · rw [if_neg same, indexes key j]
    split
    · rfl
    · rename_i outside
      rw [List.getElem?_eq_none (by omega), List.getElem?_singleton]
      split
      · exact iff_of_false (fun none_some => nomatch none_some) fun equal => same (Option.some.inj equal).symm
      · rfl

/-- After a removal it is enough to forget the removed key and to lead the key that was last into the
hole. -/
theorem Indexes.swapRemove (indexes : Indexes index keys) (found : keys[i]? = some k)
    (last : keys[keys.length - 1]? = some moved) :
    Indexes (fun key => if key = k then none else if key = moved then some i else index key)
      (swapRemove keys i) := by
  intro key j
  dsimp only
  by_cases gone : key = k
  · subst gone
    rw [if_pos rfl]
    have absent := not_mem_swapRemove indexes.nodup found
    exact iff_of_false (fun none_some => nomatch none_some) fun remains => absent (List.mem_of_getElem? remains)
  · rw [if_neg gone]
    by_cases same : key = moved
    · subst same
      rw [if_pos rfl, Option.some_inj, indexes.place_moved found last gone, eq_comm]
    · rw [if_neg same, indexes key j, place_kept_swapRemove found last gone same]

end Index

end EnerSentry.Lib
