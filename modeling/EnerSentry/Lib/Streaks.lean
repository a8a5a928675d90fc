import Mathlib.Data.List.DropRight

/-!
Streaks of a history: the entries at its end that all meet a condition. A bound on the
streaks of all beginnings is a bound on every stretch of the history that meets it.
-/

namespace EnerSentry.Lib.Streaks

variable {α : Type*} {p q : α → Bool} {history stretch : List α}

/-- A stretch at the end that meets the condition lies in the streak. -/
theorem suffix_streak (ends : stretch <:+ history) (meets : ∀ a ∈ stretch, p a) : stretch <:+ history.rtakeWhile p := by
  induction history using List.reverseRecOn generalizing stretch with
  | nil =>
    rw [List.suffix_nil.mp ends]
    exact List.nil_suffix
  | append_singleton history a ih =>
    rcases List.suffix_concat_iff.mp ends with rfl | ⟨shorter, rfl, inner⟩
    · exact List.nil_suffix
    · rw [List.forall_mem_append, List.forall_mem_singleton] at meets
      rw [List.rtakeWhile_concat_pos p history a meets.2]
      obtain ⟨before, split⟩ := ih inner meets.1
      exact ⟨before, by rw [← split, List.append_assoc]⟩

/-- What is bounded in every streak is bounded in every stretch. -/
theorem countP_le_of_streaks {n : Nat}
    (bounded : ∀ begun, begun <+: history → (begun.rtakeWhile p).countP q ≤ n) (within : stretch <:+: history)
    (meets : ∀ a ∈ stretch, p a) : stretch.countP q ≤ n := by
  obtain ⟨before, after, rfl⟩ := within
  have ends : stretch <:+ (before ++ stretch).rtakeWhile p := suffix_streak (List.suffix_append ..) meets
  calc stretch.countP q
      ≤ ((before ++ stretch).rtakeWhile p).countP q := ends.sublist.countP_le
    _ ≤ n := bounded (before ++ stretch) (List.prefix_append ..)

/-- A streak of some length ends in stretches of every length up to that. -/
theorem exists_stretch {n : Nat} (long : n ≤ (history.rtakeWhile p).length) :
    ∃ stretch, stretch <:+ history ∧ stretch.length = n ∧ ∀ a ∈ stretch, p a := by
  exists (history.rtakeWhile p).drop ((history.rtakeWhile p).length - n)
  refine ⟨(List.drop_suffix ..).trans (List.rtakeWhile_suffix ..), ?_, ?_⟩
  · rw [List.length_drop]
    omega
  · intro a member
    exact List.mem_rtakeWhile_imp (List.mem_of_mem_drop member)

/-- A next entry goes on with the streak or ends it. -/
theorem countP_streak_concat (p q : α → Bool) (history : List α) (a : α) :
    ((history ++ [a]).rtakeWhile p).countP q =
      if p a then (history.rtakeWhile p).countP q + (if q a then 1 else 0) else 0 := by
  by_cases meets : p a
  · rw [List.rtakeWhile_concat_pos p history a meets, if_pos meets, List.countP_append, List.countP_singleton]
  · rw [List.rtakeWhile_concat_neg p history a meets, if_neg meets, List.countP_nil]

/-- An entry that does not meet the condition begins the streak anew. -/
theorem streak_after {a : α} (fails : ¬p a) (meets : ∀ b ∈ stretch, p b) :
    (history ++ a :: stretch).rtakeWhile p = stretch := by
  induction stretch using List.reverseRecOn with
  | nil => exact List.rtakeWhile_concat_neg p history a fails
  | append_singleton stretch b ih =>
    rw [List.forall_mem_append, List.forall_mem_singleton] at meets
    rw [← List.cons_append, ← List.append_assoc, List.rtakeWhile_concat_pos p _ b meets.2, ih meets.1]

end EnerSentry.Lib.Streaks
