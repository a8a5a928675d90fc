import Mathlib.Data.List.Basic
import Mathlib.Data.List.Range
import Mathlib.Data.List.Pairwise

/-!
The trail of a reader through a growing log: the places it has seen, up to its cursor. Every
place before the cursor was seen or is accounted for as lost.
-/

namespace EnerSentry.Lib

structure Trail (lost : Nat → Prop) (cursor : Nat) (seen : List Nat) : Prop where
  ascending : seen.Pairwise (· < ·)
  below : ∀ p ∈ seen, p < cursor
  complete : ∀ p < cursor, p ∈ seen ∨ lost p

/-- Where a reader goes on in a log of length `n` that only keeps its last `window` places. -/
def resume (window n cursor : Nat) : Nat := if window ≤ n - cursor then n - window else cursor

section Rules
variable {lost lost' : Nat → Prop} {window n cursor later : Nat} {seen : List Nat}

theorem le_resume (behind : cursor ≤ n) : cursor ≤ resume window n cursor := by
  unfold resume
  split
  · omega
  · exact Nat.le_refl cursor

theorem resume_le (behind : cursor ≤ n) : resume window n cursor ≤ n := by
  unfold resume
  split <;> omega

/-- What a reader resumes at is still kept. -/
theorem kept_resume (behind : cursor ≤ n) : n ≤ resume window n cursor + window := by
  unfold resume
  split <;> omega

/-- A place is passed over only if it is more than a window back. -/
theorem passed_over {p : Nat} (above : cursor ≤ p) (passed : p < resume window n cursor) : p + window < n := by
  unfold resume at passed
  split at passed <;> omega

namespace Trail

theorem start : Trail lost 0 [] where
  ascending := List.Pairwise.nil
  below := List.forall_mem_nil _
  complete := fun p below => absurd below (Nat.not_lt_zero p)

theorem mono (trail : Trail lost cursor seen) (more : ∀ p, lost p → lost' p) : Trail lost' cursor seen where
  ascending := trail.ascending
  below := trail.below
  complete := fun p below => (trail.complete p below).imp id (more p)

/-- A reader that goes on farther ahead has lost what lies between. -/
theorem skip (trail : Trail lost cursor seen) (ahead : cursor ≤ later)
    (skipped : ∀ p, cursor ≤ p → p < later → lost p) : Trail lost later seen where
  ascending := trail.ascending
  below := fun p member => Nat.lt_of_lt_of_le (trail.below p member) ahead
  complete := by
    intro p below
    by_cases passed : p < cursor
    · exact trail.complete p passed
    · exact Or.inr (skipped p (Nat.not_lt.mp passed) below)

theorem read (trail : Trail lost cursor seen) (count : Nat) :
    Trail lost (cursor + count) (seen ++ List.range' cursor count) where
  ascending := by
    apply List.pairwise_append.mpr
    refine ⟨trail.ascending, List.pairwise_lt_range', fun p old q new => ?_⟩
    have before := trail.below p old
    have after := (List.mem_range'_1.mp new).1
    omega
  below := by
    intro p member
    rcases List.mem_append.mp member with old | new
    · exact Nat.lt_of_lt_of_le (trail.below p old) (Nat.le_add_right cursor count)
    · exact (List.mem_range'_1.mp new).2
  complete := by
    intro p below
    by_cases passed : p < cursor
    · exact (trail.complete p passed).imp (List.mem_append_left _) id
    · apply Or.inl
      apply List.mem_append_right
      exact List.mem_range'_1.mpr ⟨Nat.not_lt.mp passed, below⟩

end Trail

/-- What is found at ascending places of a list is a sublist of it. -/
theorem sublist_of_places {T : Type*} {log read : List T} {places : List Nat} (ascending : places.Pairwise (· < ·))
    (found : read.map some = places.map (log[·]?)) : read.Sublist log := by
  have inside : ∀ p ∈ places, p < log.length := by
    intro p member
    have held : log[p]? ∈ read.map some := found ▸ List.mem_map_of_mem member
    obtain ⟨x, -, holds⟩ := List.mem_map.mp held
    exact (List.getElem?_eq_some_iff.mp holds.symm).1
  have indexed : read = (places.pmap Fin.mk inside).map (log[·]) := by
    apply List.map_injective_iff.mpr (fun _ _ => Option.some.inj)
    calc read.map some = places.map (log[·]?) := found
      _ = places.pmap (fun p _ => log[p]?) inside := (List.pmap_eq_map inside).symm
      _ = places.pmap (fun p below => some log[p]) inside :=
          List.pmap_congr_left places fun p _ below _ => List.getElem?_eq_getElem below
      _ = ((places.pmap Fin.mk inside).map (log[·])).map some := by rw [List.map_pmap, List.map_pmap]; rfl
  rw [indexed]
  apply List.map_getElem_sublist
  exact List.pairwise_pmap inside |>.mpr (ascending.imp fun before _ _ => before)

end Rules
end EnerSentry.Lib
