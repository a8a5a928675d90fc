import Mathlib.Data.List.Induction
import Mathlib.Data.List.Basic

/-!
Changes to a store of cells, looked at one cell at a time. A change either puts a value into the
cell, if the store has it, or leaves it alone; of several changes the last one that puts a value
counts. Two stores with the same cells agree wherever the same value was put last.
-/

namespace EnerSentry.Lib.Overwriting

variable {S X V : Type*}

/-- What a cell holds after a value was put into it, or none was. -/
def overwrite : Option V → Option V → Option V
  | some v, held => held.map fun _ => v
  | none, held => held

@[simp] theorem overwrite_none (held : Option V) : overwrite none held = held := rfl

@[simp] theorem isSome_overwrite (put held : Option V) : (overwrite put held).isSome = held.isSome := by
  cases put with
  | none => rfl
  | some v => exact Option.isSome_map

/-- The later of two values stays. -/
theorem overwrite_overwrite (later earlier held : Option V) :
    overwrite later (overwrite earlier held) = overwrite (later.or earlier) held := by
  cases later with
  | none => rfl
  | some v =>
    cases earlier with
    | none => rfl
    | some w => exact Option.map_map ..

/-- A value that is put makes two cells alike. -/
theorem overwrite_same {put held held' : Option V} (cells : held.isSome = held'.isSome)
    (alike : put = none → held = held') : overwrite put held = overwrite put held' := by
  cases put with
  | none => exact alike rfl
  | some v =>
    cases held with
    | none =>
      rw [Option.isSome_none, eq_comm, Option.isSome_eq_false_iff, Option.isNone_iff_eq_none] at cells
      rw [cells]
    | some x =>
      obtain ⟨y, rfl⟩ := Option.isSome_iff_exists.mp cells.symm
      rfl

/-- The last value that a list of changes puts into a cell. -/
def lastPut (put : X → Option V) (xs : List X) : Option V := xs.reverse.findSome? put

theorem lastPut_concat (put : X → Option V) (xs : List X) (x : X) :
    lastPut put (xs ++ [x]) = (put x).or (lastPut put xs) := by
  rw [lastPut, List.reverse_concat, List.findSome?_cons]
  cases put x with
  | none => rfl
  | some v => rfl

theorem lastPut_isSome (put : X → Option V) (xs : List X) :
    (lastPut put xs).isSome = xs.any fun x => (put x).isSome := by
  rw [lastPut, List.isSome_findSome?, List.any_reverse]

/-- Where one item alone puts a value into the cell, its value is the last. -/
theorem lastPut_sole {put : X → Option V} {xs : List X} {x : X} {v : V} (member : x ∈ xs) (value : put x = some v)
    (sole : ∀ y ∈ xs, (put y).isSome = true → y = x) : lastPut put xs = some v := by
  have found : (lastPut put xs).isSome = true := by
    rw [lastPut_isSome, List.any_eq_true]
    exact ⟨x, member, by rw [value]; rfl⟩
  obtain ⟨w, last⟩ := Option.isSome_iff_exists.mp found
  obtain ⟨y, among, puts⟩ := List.exists_of_findSome?_eq_some last
  have own : y = x := sole y (List.mem_reverse.mp among) (by rw [puts]; rfl)
  rw [last, ← puts, own, value]

/-- Changes made one after the other put the last of their values. -/
theorem cell_foldl (cell : S → Option V) {change : S → X → S} {put : X → Option V}
    (acts : ∀ s x, cell (change s x) = overwrite (put x) (cell s)) (xs : List X) (s : S) :
    cell (xs.foldl change s) = overwrite (lastPut put xs) (cell s) := by
  induction xs using List.reverseRecOn with
  | nil => rfl
  | append_singleton xs x ih => rw [List.foldl_concat, acts, ih, overwrite_overwrite, lastPut_concat]

end EnerSentry.Lib.Overwriting
