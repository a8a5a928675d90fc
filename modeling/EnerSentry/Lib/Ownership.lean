import Mathlib.Logic.Function.Basic
import Mathlib.Data.Set.Insert

/-!
Owners that each hold at most one tagged resource, beside a table of the resources
that are locked. `owned` is what all owners hold together; `Exclusive` says that no
resource has two owners, whatever its tag. A `Move` is what one owner may do to its own
claim and the table, and it keeps the table equal to what is owned.
-/

namespace EnerSentry.Lib.Ownership

variable {ι K T : Type*}

def owned (claim : ι → Option (K × T)) : Set (K × T) := fun x => ∃ i, claim i = some x

def Exclusive (claim : ι → Option (K × T)) : Prop :=
  ∀ i j x y, claim i = some x → claim j = some y → x.1 = y.1 → i = j

/-- One owner's claim and the table, before and after one move of that owner. -/
inductive Move : Option (K × T) × Set (K × T) → Option (K × T) × Set (K × T) → Prop where
  | stay (before) : Move before before
  | acquire (x) (table) (free : ∀ tag, (x.1, tag) ∉ table) : Move (none, table) (some x, insert x table)
  | release (x) (table) : Move (some x, table) (none, table \ {x})

variable {claim : ι → Option (K × T)} {x : K × T} {i : ι}

theorem mem_owned : x ∈ owned claim ↔ ∃ i, claim i = some x := Iff.rfl

theorem exclusive_none : Exclusive (fun _ : ι => (none : Option (K × T))) := by
  intro i j x y holds
  exact absurd holds (by simp)

theorem owned_none : owned (fun _ : ι => (none : Option (K × T))) = ∅ := by
  ext x
  simp [mem_owned]

variable [DecidableEq ι]

theorem owned_acquire (idle : claim i = none) :
    owned (Function.update claim i (some x)) = insert x (owned claim) := by
  ext y
  simp only [mem_owned, Set.mem_insert_iff]
  constructor
  · intro holds
    obtain ⟨j, holds⟩ := holds
    by_cases same : j = i
    · rw [same, Function.update_self] at holds
      exact Or.inl (Option.some.inj holds).symm
    · rw [Function.update_of_ne same] at holds
      exact Or.inr ⟨j, holds⟩
  · intro holds
    rcases holds with rfl | ⟨j, holds⟩
    · exact ⟨i, Function.update_self ..⟩
    · have other : j ≠ i := by
        intro same
        simp [same, idle] at holds
      exact ⟨j, by rw [Function.update_of_ne other, holds]⟩

/-- Taking a resource that nobody owns under any tag keeps the owners apart. -/
theorem exclusive_acquire (apart : Exclusive claim) (free : ∀ tag, (x.1, tag) ∉ owned claim) :
    Exclusive (Function.update claim i (some x)) := by
  have untouched : ∀ j y, claim j = some y → x.1 ≠ y.1 := by
    intro j y holds same
    exact free y.2 ⟨j, by rw [holds, same]⟩
  intro j k y z first second same
  by_cases atJ : j = i <;> by_cases atK : k = i
  · rw [atJ, atK]
  · rw [atJ, Function.update_self] at first
    rw [Function.update_of_ne atK] at second
    exact absurd (Option.some.inj first ▸ same) (untouched k z second)
  · rw [atK, Function.update_self] at second
    rw [Function.update_of_ne atJ] at first
    exact absurd (Option.some.inj second ▸ same.symm) (untouched j y first)
  · rw [Function.update_of_ne atJ] at first
    rw [Function.update_of_ne atK] at second
    exact apart j k y z first second same

theorem owned_release (apart : Exclusive claim) (holds : claim i = some x) :
    owned (Function.update claim i none) = owned claim \ {x} := by
  ext y
  simp only [mem_owned, Set.mem_sdiff, Set.mem_singleton_iff]
  constructor
  · intro kept
    obtain ⟨j, kept⟩ := kept
    have other : j ≠ i := by
      intro same
      simp [same] at kept
    rw [Function.update_of_ne other] at kept
    refine ⟨⟨j, kept⟩, ?_⟩
    intro same
    exact other (apart j i y x kept holds (congrArg Prod.fst same))
  · intro kept
    obtain ⟨⟨j, kept⟩, different⟩ := kept
    have other : j ≠ i := by
      intro same
      rw [same, holds] at kept
      exact different (Option.some.inj kept).symm
    exact ⟨j, by rw [Function.update_of_ne other, kept]⟩

theorem exclusive_release (apart : Exclusive claim) :
    Exclusive (Function.update claim i none) := by
  have kept : ∀ j y, Function.update claim i none j = some y → claim j = some y := by
    intro j y holds
    by_cases same : j = i
    · simp [same] at holds
    · rwa [Function.update_of_ne same] at holds
  intro j k y z first second
  exact apart j k y z (kept j y first) (kept k z second)

/-- The table stays what the owners hold, and the owners stay apart. -/
theorem Move.keeps {table table' : Set (K × T)} {next : Option (K × T)}
    (move : Move (claim i, table) (next, table'))
    (apart : Exclusive claim) (exact : table = owned claim) :
    Exclusive (Function.update claim i next) ∧ table' = owned (Function.update claim i next) := by
  generalize holds : claim i = own at move
  cases move with
  | stay =>
    rw [← holds, Function.update_eq_self]
    exact ⟨apart, exact⟩
  | acquire x table free =>
    rw [exact] at free
    exact ⟨exclusive_acquire apart free, by rw [owned_acquire holds, exact]⟩
  | release x table =>
    exact ⟨exclusive_release apart, by rw [owned_release apart holds, exact]⟩

/-- Where the table locks more than is owned, the owners still stay apart and inside it. -/
theorem Move.keeps_within {table table' : Set (K × T)} {next : Option (K × T)}
    (move : Move (claim i, table) (next, table'))
    (apart : Exclusive claim) (within : owned claim ⊆ table) :
    Exclusive (Function.update claim i next) ∧ owned (Function.update claim i next) ⊆ table' := by
  generalize holds : claim i = own at move
  cases move with
  | stay =>
    rw [← holds, Function.update_eq_self]
    exact ⟨apart, within⟩
  | acquire x table free =>
    refine ⟨exclusive_acquire apart fun tag there => free tag (within there), ?_⟩
    rw [owned_acquire holds]
    exact Set.insert_subset_insert within
  | release x table =>
    refine ⟨exclusive_release apart, ?_⟩
    rw [owned_release apart holds]
    exact fun y kept => ⟨within kept.1, kept.2⟩

end EnerSentry.Lib.Ownership
