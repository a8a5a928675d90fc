import Mathlib.Data.List.Perm.Basic
import Mathlib.Data.List.Infix

/-!
A queue whose entries keep their turn: how many had come when they came. Entries come to the back or
to the front, and the entry at the front is served. A queue that is only joined at the back serves
everybody in turn. One that is joined at the front serves the last of those who wait, and everybody is
served in turn exactly when nobody comes while another one waits.
-/

namespace EnerSentry.Lib

structure Turns (α : Type*) where
  entered : List α := []
  waiting : List (α × Nat) := []
  served : List (α × Nat) := []

namespace Turns
variable {α : Type*} (t : Turns α) (a : α)

def pushBack : Turns α :=
  { t with entered := t.entered ++ [a], waiting := t.waiting ++ [(a, t.entered.length)] }

def pushFront : Turns α :=
  { t with entered := t.entered ++ [a], waiting := (a, t.entered.length) :: t.waiting }

/-- The turn at the front is over, and `a` has been given out for it. -/
def serve : Turns α :=
  match t.waiting with
  | [] => t
  | first :: rest => { t with waiting := rest, served := t.served ++ [(a, first.2)] }

/-- Everybody who has come waits or has been served, and nobody twice. -/
def Accounted : Prop := (t.served ++ t.waiting).Perm t.entered.zipIdx

/-- Who has been served came before who waits, and all of them in the order in which they came. -/
def InOrder : Prop := t.served ++ t.waiting = t.entered.zipIdx

/-- Whoever waits came before those in front. -/
def NewestFirst : Prop := t.waiting.Pairwise fun one next => next.2 < one.2

variable {t a}

theorem zipIdx_concat (l : List α) : (l ++ [a]).zipIdx = l.zipIdx ++ [(a, l.length)] := by
  simp [List.zipIdx_append]

theorem InOrder.accounted (inOrder : t.InOrder) : t.Accounted := List.Perm.of_eq inOrder

section Serve
variable {n : Nat} {rest : List (α × Nat)} (front : t.waiting = (a, n) :: rest)
include front

theorem serve_eq : t.serve a = { t with waiting := rest, served := t.served ++ [(a, n)] } := by
  simp only [serve, front]

theorem entered_serve : (t.serve a).entered = t.entered := by rw [serve_eq front]

/-- Serving moves the front over to those who have been served. -/
theorem served_append_waiting_serve :
    (t.serve a).served ++ (t.serve a).waiting = t.served ++ t.waiting := by
  rw [serve_eq front, front, List.append_assoc]
  rfl

theorem accounted_serve (accounted : t.Accounted) : (t.serve a).Accounted := by
  rw [Accounted, served_append_waiting_serve front, entered_serve front]
  exact accounted

theorem inOrder_serve_iff : (t.serve a).InOrder ↔ t.InOrder := by
  rw [InOrder, InOrder, served_append_waiting_serve front, entered_serve front]

theorem newestFirst_serve (newest : t.NewestFirst) : (t.serve a).NewestFirst := by
  rw [NewestFirst, serve_eq front]
  rw [NewestFirst, front] at newest
  exact (List.pairwise_cons.mp newest).2

/-- Who is served came after all who go on waiting. -/
theorem newest_served (newest : t.NewestFirst) : ∀ other ∈ (t.serve a).waiting, other.2 < n := by
  rw [serve_eq front]
  rw [NewestFirst, front] at newest
  exact (List.pairwise_cons.mp newest).1

end Serve

theorem accounted_pushBack (accounted : t.Accounted) : (t.pushBack a).Accounted := by
  simp only [Accounted, pushBack, zipIdx_concat, ← List.append_assoc]
  exact List.Perm.append_right _ accounted

theorem accounted_pushFront (accounted : t.Accounted) : (t.pushFront a).Accounted := by
  simp only [Accounted, pushFront, zipIdx_concat]
  exact List.perm_middle.trans ((List.Perm.cons _ accounted).trans (List.perm_append_singleton _ _).symm)

theorem inOrder_pushBack (inOrder : t.InOrder) : (t.pushBack a).InOrder := by
  simp only [InOrder, pushBack, zipIdx_concat, ← List.append_assoc]
  rw [inOrder]

theorem turn_lt (accounted : t.Accounted) {entry : α × Nat} (waits : entry ∈ t.waiting) :
    entry.2 < t.entered.length := by
  have known : entry ∈ t.entered.zipIdx := accounted.mem_iff.mp (List.mem_append_right _ waits)
  exact List.snd_lt_of_mem_zipIdx known

/-- Who comes to the front is in order only if nobody waits. -/
theorem inOrder_pushFront_iff (accounted : t.Accounted) :
    (t.pushFront a).InOrder ↔ t.InOrder ∧ t.waiting = [] := by
  simp only [InOrder, pushFront, zipIdx_concat]
  constructor
  · intro inOrder
    rcases List.eq_nil_or_concat t.waiting with nobody | ⟨before, last, waits⟩
    · rw [nobody] at inOrder
      exact ⟨by rw [nobody, List.append_nil]; exact List.append_cancel_right inOrder, nobody⟩
    · -- the one who came before all others would have to be the one who has just come
      have turn : last.2 < t.entered.length := turn_lt accounted (by simp [waits])
      rw [waits, List.concat_eq_append, ← List.cons_append, ← List.append_assoc] at inOrder
      have same := (List.append_inj' inOrder rfl).2
      rw [List.singleton_inj.mp same] at turn
      exact absurd turn (lt_irrefl _)
  · rintro ⟨inOrder, nobody⟩
    rw [nobody, List.append_nil] at inOrder
    rw [nobody, inOrder]

theorem newestFirst_pushFront (accounted : t.Accounted) (newest : t.NewestFirst) :
    (t.pushFront a).NewestFirst :=
  List.pairwise_cons.mpr ⟨fun _ waits => turn_lt accounted waits, newest⟩

end Turns
end EnerSentry.Lib
