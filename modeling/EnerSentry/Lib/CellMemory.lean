import Mathlib.Data.List.Basic
import Mathlib.Data.Nat.Notation

/-!
Memories of addressed cells in several areas, as the client of a device sees them. A range is read
or written as a whole, or refused because one of its cells is not there.
-/

namespace EnerSentry.Lib.CellMemory

/-- What every address of every area holds; `none` where there is no cell. -/
abbrev Memory (A V : Type*) := A → ℕ → Option V

namespace Memory
variable {A V : Type*} (m : Memory A V) (a b : A) (addr n : ℕ) (values : List V)

/-- Every address of the range has a cell. -/
def Covers : Prop := ∀ i < n, (m a (addr + i)).isSome = true

instance : Decidable (m.Covers a addr n) := Nat.decidableBallLT n fun i _ => (m a (addr + i)).isSome = true

def load : Option (List V) :=
  if m.Covers a addr n then some ((List.range n).filterMap fun i => m a (addr + i)) else none

variable {m a addr n values}

/-- Where every cell is known, the whole range is loaded. -/
theorem load_of_cells {f : ℕ → V} (cells : ∀ i < n, m a (addr + i) = some (f i)) :
    m.load a addr n = some ((List.range n).map f) := by
  have covered : m.Covers a addr n := by
    intro i inside
    rw [cells i inside]
    rfl
  have known : ∀ i ∈ List.range n, m a (addr + i) = some (f i) := fun i member => cells i (List.mem_range.mp member)
  rw [load, if_pos covered, List.filterMap_eq_map_iff_forall_eq_some.mpr known]

/-- What is loaded is as long as the range. -/
theorem length_load (loaded : m.load a addr n = some values) : values.length = n := by
  obtain ⟨covered, same⟩ := Option.ite_none_right_eq_some.mp loaded
  rw [← Option.some.inj same]
  apply (List.filterMap_length_eq_length.mpr fun i member => covered i (List.mem_range.mp member)).trans
  exact List.length_range

variable [DecidableEq A]

variable (m a addr values) in
def put : Memory A V := fun b j => if b = a ∧ addr ≤ j then values[j - addr]?.or (m b j) else m b j

variable (m a addr values) in
def save : Option (Memory A V) := if m.Covers a addr values.length then some (m.put a addr values) else none

variable (a addr n) in
/-- Every address outside a range. -/
def Apart (b : A) (j : ℕ) : Prop := b ≠ a ∨ j < addr ∨ addr + n ≤ j

variable {b} {j : ℕ}

theorem put_inside {i : ℕ} (inside : i < values.length) : m.put a addr values a (addr + i) = some values[i] := by
  rw [put, if_pos ⟨rfl, Nat.le_add_right addr i⟩, Nat.add_sub_cancel_left, List.getElem?_eq_getElem inside,
    Option.some_or]

theorem put_apart (apart : Apart a addr values.length b j) : m.put a addr values b j = m b j := by
  rw [put]
  split
  · rename_i here
    have past : values.length ≤ j - addr := by
      obtain other | low | high := apart
      · exact absurd here.1 other
      · omega
      · omega
    rw [List.getElem?_eq_none past, Option.none_or]
  · rfl

/-- An address lies in a range or apart from it. -/
theorem inside_or_apart (a : A) (addr n : ℕ) (b : A) (j : ℕ) :
    (b = a ∧ ∃ i < n, j = addr + i) ∨ Apart a addr n b j := by
  by_cases same : b = a
  · by_cases low : j < addr
    · exact Or.inr (Or.inr (Or.inl low))
    · by_cases inside : j < addr + n
      · exact Or.inl ⟨same, j - addr, by omega, by omega⟩
      · exact Or.inr (Or.inr (Or.inr (Nat.not_lt.mp inside)))
  · exact Or.inr (Or.inl same)

/-- Values that are put where there are cells neither add a cell nor take one away. -/
theorem isSome_put (covered : m.Covers a addr values.length) (b : A) (j : ℕ) :
    (m.put a addr values b j).isSome = (m b j).isSome := by
  obtain ⟨rfl, i, inside, rfl⟩ | apart := inside_or_apart a addr values.length b j
  · rw [put_inside inside, covered i inside]
    rfl
  · rw [put_apart apart]

end Memory
end EnerSentry.Lib.CellMemory
