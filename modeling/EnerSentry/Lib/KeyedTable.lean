import Mathlib.Data.List.Nodup
import Mathlib.Logic.Function.Basic

/-!
A table with a primary key and a row constraint. Rows are inserted in batches that take
effect as a whole or not at all, and updated in place by key.
-/

namespace EnerSentry.Lib.KeyedTable

variable {κ ρ : Type*} [DecidableEq κ]

abbrev Table (κ ρ : Type*) := κ → Option ρ

section Insert
variable (key : ρ → κ) (valid : ρ → Bool)

/-- A row goes in if it is valid and its key is free. -/
def insert (t : Table κ ρ) (r : ρ) : Option (Table κ ρ) :=
  if valid r && (t (key r)).isNone then some (Function.update t (key r) (some r)) else none

/-- One transaction: all rows in order, or none. -/
def insertAll (t : Table κ ρ) : List ρ → Option (Table κ ρ)
  | [] => some t
  | r :: rs => (insert key valid t r).bind (fun t => insertAll t rs)

end Insert

def modify (t : Table κ ρ) (k : κ) (f : ρ → ρ) : Table κ ρ := Function.update t k ((t k).map f)

variable {key : ρ → κ} {valid : ρ → Bool} {t t' : Table κ ρ} {r : ρ} {rs : List ρ} {k : κ} {f : ρ → ρ}

theorem insert_eq_some : insert key valid t r = some t' ↔
    valid r = true ∧ t (key r) = none ∧ t' = Function.update t (key r) (some r) := by
  unfold insert
  constructor
  · intro done
    split at done
    · rename_i admitted
      rw [Bool.and_eq_true, Option.isNone_iff_eq_none] at admitted
      exact ⟨admitted.1, admitted.2, (Option.some.inj done).symm⟩
    · cases done
  · rintro ⟨ok, free, rfl⟩
    rw [if_pos (by rw [ok, free]; rfl)]

theorem insertAll_cons : insertAll key valid t (r :: rs) = some t' ↔
    valid r = true ∧ t (key r) = none ∧
      insertAll key valid (Function.update t (key r) (some r)) rs = some t' := by
  simp only [insertAll, Option.bind_eq_some_iff, insert_eq_some]
  constructor
  · rintro ⟨-, ⟨ok, free, rfl⟩, rest⟩
    exact ⟨ok, free, rest⟩
  · rintro ⟨ok, free, rest⟩
    exact ⟨_, ⟨ok, free, rfl⟩, rest⟩

/-- A batch goes in if and only if its rows are valid and its keys distinct and free. -/
theorem insertAll_isSome_iff : (insertAll key valid t rs).isSome = true ↔
    (∀ r ∈ rs, valid r = true) ∧ (∀ r ∈ rs, t (key r) = none) ∧ (rs.map key).Nodup := by
  induction rs generalizing t with
  | nil => simp [insertAll]
  | cons r rs ih =>
    have step : (insertAll key valid t (r :: rs)).isSome = true ↔ valid r = true ∧ t (key r) = none ∧
        (insertAll key valid (Function.update t (key r) (some r)) rs).isSome = true := by
      simp only [Option.isSome_iff_exists, insertAll_cons, exists_and_left]
    rw [step, ih]
    simp only [List.forall_mem_cons, List.map_cons, List.nodup_cons, List.mem_map, not_exists, not_and]
    constructor
    · rintro ⟨ok, free, valids, others, nodup⟩
      refine ⟨⟨ok, valids⟩, ⟨free, fun x member => ?_⟩, fun x member same => ?_, nodup⟩
      · have apart : key x ≠ key r := by
          intro same
          have taken := others x member
          rw [same, Function.update_self] at taken
          cases taken
        rw [← others x member, Function.update_of_ne apart]
      · have taken := others x member
        rw [same, Function.update_self] at taken
        cases taken
    · rintro ⟨⟨ok, valids⟩, ⟨free, others⟩, apart, nodup⟩
      refine ⟨ok, free, valids, fun x member => ?_, nodup⟩
      rw [Function.update_of_ne (apart x member)]
      exact others x member

/-- Keys outside a batch keep their rows. -/
theorem insertAll_frame (done : insertAll key valid t rs = some t') (outside : k ∉ rs.map key) : t' k = t k := by
  induction rs generalizing t with
  | nil =>
    cases done
    rfl
  | cons r rs ih =>
    obtain ⟨-, -, rest⟩ := insertAll_cons.mp done
    rw [List.map_cons, List.mem_cons, not_or] at outside
    rw [ih rest outside.2, Function.update_of_ne outside.1]

/-- A row that is there stays there. -/
theorem insertAll_keeps (done : insertAll key valid t rs = some t') (present : t k = some r) : t' k = some r := by
  induction rs generalizing t with
  | nil =>
    cases done
    exact present
  | cons x rs ih =>
    obtain ⟨-, free, rest⟩ := insertAll_cons.mp done
    apply ih rest
    have apart : k ≠ key x := by
      rintro rfl
      rw [present] at free
      cases free
    rw [Function.update_of_ne apart, present]

theorem insertAll_mem (done : insertAll key valid t rs = some t') (member : r ∈ rs) : t' (key r) = some r := by
  induction rs generalizing t with
  | nil => simp at member
  | cons x rs ih =>
    obtain ⟨-, -, rest⟩ := insertAll_cons.mp done
    rcases List.mem_cons.mp member with rfl | later
    · exact insertAll_keeps rest (Function.update_self ..)
    · exact ih rest later

/-- A row that was not there came with the batch. -/
theorem insertAll_new (done : insertAll key valid t rs = some t') (absent : t k = none) (present : t' k = some r) :
    r ∈ rs ∧ key r = k := by
  by_cases inside : k ∈ rs.map key
  · obtain ⟨x, member, rfl⟩ := List.mem_map.mp inside
    rw [insertAll_mem done member] at present
    rw [← Option.some.inj present]
    exact ⟨member, rfl⟩
  · rw [insertAll_frame done inside, absent] at present
    cases present

/-- After a batch a row is there if it was or came with the batch. -/
theorem insertAll_row_iff (done : insertAll key valid t rs = some t') :
    t' k = some r ↔ t k = some r ∨ r ∈ rs ∧ key r = k := by
  constructor
  · intro present
    cases old : t k with
    | some before =>
      rw [insertAll_keeps done old] at present
      exact Or.inl present
    | none => exact Or.inr (insertAll_new done old present)
  · rintro (old | ⟨member, rfl⟩)
    · exact insertAll_keeps done old
    · exact insertAll_mem done member

theorem modify_self : modify t k f k = (t k).map f := Function.update_self ..

theorem modify_of_ne {k' : κ} (apart : k' ≠ k) : modify t k f k' = t k' := Function.update_of_ne apart ..

end EnerSentry.Lib.KeyedTable
