import Mathlib.Data.List.Nodup
import Mathlib.Logic.Function.Basic

/-!
Identities that are issued to owners and retired later, each at most once. A ledger keeps
who got which identity and which ones are over; it is in balance with what the owners hold
when an owner holds exactly what it was issued and what is not over.
-/

namespace EnerSentry.Lib

variable {P I : Type*}

structure Ledger (P I : Type*) where
  issued : List (P × I) := []
  retired : List I := []

namespace Ledger

def ids (l : Ledger P I) : List I := l.issued.map (·.2)

def issue (l : Ledger P I) (p : P) (id : I) : Ledger P I := { l with issued := (p, id) :: l.issued }

def retire (l : Ledger P I) (ended : List I) : Ledger P I := { l with retired := ended ++ l.retired }

structure Balanced (held : P → Option I) (l : Ledger P I) : Prop where
  holds : ∀ p id, held p = some id ↔ (p, id) ∈ l.issued ∧ id ∉ l.retired
  issuedOnce : l.ids.Nodup
  retiredOnce : l.retired.Nodup
  retired : ∀ id ∈ l.retired, id ∈ l.ids

variable {held held' : P → Option I} {l : Ledger P I} {p q : P} {id : I} {ended : List I}

theorem balanced_empty : Balanced (fun _ => none) ({} : Ledger P I) :=
  ⟨by simp, List.nodup_nil, List.nodup_nil, by simp⟩

theorem mem_ids_of_issued (issued : (p, id) ∈ l.issued) : id ∈ l.ids := List.mem_map_of_mem issued

/-- No identity has two owners in the books. -/
theorem Balanced.owner (balanced : Balanced held l) (first : (p, id) ∈ l.issued) (second : (q, id) ∈ l.issued) :
    p = q := by
  have same := List.inj_on_of_nodup_map balanced.issuedOnce first second rfl
  exact congrArg Prod.fst same

theorem Balanced.apart (balanced : Balanced held l) (first : held p = some id) (second : held q = some id) :
    p = q :=
  balanced.owner ((balanced.holds p id).mp first).1 ((balanced.holds q id).mp second).1

theorem Balanced.issued_of_held (balanced : Balanced held l) (holds : held p = some id) : id ∈ l.ids :=
  mem_ids_of_issued ((balanced.holds p id).mp holds).1

/-- An owner that holds nothing is done with all it was ever issued. -/
theorem Balanced.settled (balanced : Balanced held l) (idle : held p = none) (issued : (p, id) ∈ l.issued) :
    id ∈ l.retired := by
  by_contra open_
  have holds := (balanced.holds p id).mpr ⟨issued, open_⟩
  exact Option.some_ne_none _ (holds.symm.trans idle)

theorem Balanced.congr (balanced : Balanced held l) (same : ∀ p, held' p = held p) : Balanced held' l := by
  obtain rfl : held' = held := funext same
  exact balanced

/-- A new identity for an owner that holds none. -/
theorem Balanced.issue [DecidableEq P] (balanced : Balanced held l) (idle : held p = none) (fresh : id ∉ l.ids) :
    Balanced (Function.update held p (some id)) (l.issue p id) := by
  have unretired : id ∉ l.retired := fun retired => fresh (balanced.retired id retired)
  refine ⟨?_, List.nodup_cons.mpr ⟨fresh, balanced.issuedOnce⟩, balanced.retiredOnce, ?_⟩
  · intro q other
    simp only [Ledger.issue, List.mem_cons, Prod.mk.injEq]
    by_cases own : q = p
    · subst own
      rw [Function.update_self]
      constructor
      · rintro ⟨⟩
        exact ⟨Or.inl ⟨rfl, rfl⟩, unretired⟩
      · rintro ⟨⟨-, rfl⟩ | earlier, open_⟩
        · rfl
        · exact absurd (balanced.settled idle earlier) open_
    · rw [Function.update_of_ne own, balanced.holds]
      simp [own]
  · intro other retired
    exact List.mem_cons_of_mem _ (balanced.retired other retired)

/-- Some owners give up what they hold, all at once. -/
theorem Balanced.retire (balanced : Balanced held l) (once : ended.Nodup)
    (overs : ∀ id ∈ ended, ∃ p, held p = some id)
    (rest : ∀ p id, held' p = some id ↔ held p = some id ∧ id ∉ ended) : Balanced held' (l.retire ended) := by
  have unretired : ∀ id ∈ ended, id ∉ l.retired := by
    intro id member
    obtain ⟨p, holds⟩ := overs id member
    exact ((balanced.holds p id).mp holds).2
  refine ⟨?_, balanced.issuedOnce, ?_, ?_⟩
  · intro p id
    simp only [Ledger.retire, List.mem_append, not_or, rest, balanced.holds]
    exact ⟨fun both => ⟨both.1.1, both.2, both.1.2⟩, fun all => ⟨⟨all.1, all.2.2⟩, all.2.1⟩⟩
  · refine List.nodup_append.mpr ⟨once, balanced.retiredOnce, ?_⟩
    intro id member other retired same
    exact unretired id member (same ▸ retired)
  · intro id member
    rcases List.mem_append.mp member with now | earlier
    · obtain ⟨p, holds⟩ := overs id now
      exact balanced.issued_of_held holds
    · exact balanced.retired id earlier

end Ledger
end EnerSentry.Lib
