import Std.Data.TreeMap.Lemmas
import Mathlib.Data.List.Basic

/-!
Rows of a search tree under a key: what one write or removal leaves, and what a loop of them leaves.
-/

namespace EnerSentry.Lib

variable {κ V : Type*} [Ord κ] [Std.TransOrd κ] [Std.LawfulEqOrd κ] [DecidableEq κ]
  (rows : Std.TreeMap κ V) (k key : κ) (v : V) (keys : List κ)

theorem row_insert : (rows.insert k v)[key]? = if key = k then some v else rows[key]? := by
  rw [Std.TreeMap.getElem?_insert]
  by_cases same : key = k
  · simp [same]
  · simp [same, Ne.symm same]

theorem row_erase : (rows.erase k)[key]? = if key = k then none else rows[key]? := by
  rw [Std.TreeMap.getElem?_erase]
  by_cases same : key = k
  · simp [same]
  · simp [same, Ne.symm same]

/-- The same row is written under every key of a list. -/
theorem row_foldl_insert :
    (keys.foldl (fun rows k => rows.insert k v) rows)[key]? = if key ∈ keys then some v else rows[key]? := by
  induction keys generalizing rows with
  | nil => simp
  | cons k keys ih =>
    rw [List.foldl_cons, ih, row_insert]
    by_cases later : key ∈ keys <;> simp [later]

theorem row_foldl_erase :
    (keys.foldl (fun rows k => rows.erase k) rows)[key]? = if key ∈ keys then none else rows[key]? := by
  induction keys generalizing rows with
  | nil => simp
  | cons k keys ih =>
    rw [List.foldl_cons, ih, row_erase]
    by_cases later : key ∈ keys <;> simp [later]

end EnerSentry.Lib
