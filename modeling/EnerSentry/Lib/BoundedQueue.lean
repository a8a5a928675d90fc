import EnerSentry.Lib.Runs

/-!
A queue of bounded size between a writer and a reader. What is put into a full queue displaces the
oldest item. Every item leaves by one end only, taken or displaced, so the items that have left are the
first of those that were put in, whatever the order of the calls was.
-/

namespace EnerSentry.Lib.BoundedQueue

variable {T : Type*}

inductive QueueCall (T : Type*) where
  | put (x : T)
  | take

/-- How an item leaves the queue. -/
inductive Removal (T : Type*) where
  | taken (x : T)
  | displaced (x : T)
  deriving DecidableEq, Repr

namespace Removal

def item : Removal T → T
  | .taken x => x
  | .displaced x => x

def toTaken : Removal T → Option T
  | .taken x => some x
  | .displaced _ => none

end Removal

/-- The items that were taken, in their order. -/
def takenOf (left : List (Removal T)) : List T := left.filterMap Removal.toTaken

def putOf : QueueCall T → List T
  | .put x => [x]
  | .take => []

/-- What a put displaces. -/
def displacing (size : Nat) (q : List T) : List (Removal T) :=
  if size ≤ q.length then (q.head?.map Removal.displaced).toList else []

def put (size : Nat) (q : List T) (x : T) : List T := (if size ≤ q.length then q.tail else q) ++ [x]

def step (size : Nat) : Runs.Step (List T) (QueueCall T) (Removal T) := fun q call =>
  match call with
  | .put x => (put size q x, displacing size q)
  | .take => (q.tail, (q.head?.map Removal.taken).toList)

section Items
variable (left : List (Removal T))

/-- The items that were taken are some of those that have left, in their order. -/
theorem takenOf_sublist : (takenOf left).Sublist (left.map Removal.item) := by
  induction left with
  | nil => exact List.Sublist.slnil
  | cons r left ih =>
    cases r with
    | taken x => exact ih.cons_cons x
    | displaced x => exact ih.cons x

/-- Where nothing was displaced, everything that has left was taken. -/
theorem takenOf_eq (kept : ∀ y, .displaced y ∉ left) : takenOf left = left.map Removal.item := by
  induction left with
  | nil => rfl
  | cons r left ih =>
    have rest := ih fun y member => kept y (List.mem_cons_of_mem _ member)
    cases r with
    | taken x => exact congrArg (List.cons x) rest
    | displaced y => exact absurd List.mem_cons_self (kept y)

end Items

section Calls
variable {size : Nat} (positive : 0 < size) {q : List T}

theorem length_put (bounded : q.length ≤ size) (x : T) : (put size q x).length ≤ size ∨ size = 0 := by
  unfold put
  split
  · rw [List.length_append, List.length_tail, List.length_singleton]
    omega
  · rw [List.length_append, List.length_singleton]
    omega

/-- An item is displaced by a put into a full queue that it is the oldest of. -/
theorem displaced_iff (call : QueueCall T) (y : T) : .displaced y ∈ (step size q call).2 ↔
    ∃ x rest, call = .put x ∧ q = y :: rest ∧ size ≤ q.length := by
  cases call with
  | take => cases q <;> simp [step]
  | put x =>
    cases q with
    | nil => simp [step, displacing]
    | cons z q =>
      by_cases full : size ≤ q.length + 1
      · simp [step, displacing, full, eq_comm]
      · simp [step, displacing, full]

include positive

/-- What leaves with a call and what is in the queue after it are what was in it and what the call put in. -/
theorem step_conserves (call : QueueCall T) :
    (step size q call).2.map Removal.item ++ (step size q call).1 = q ++ putOf call := by
  cases call with
  | take =>
    cases q with
    | nil => rfl
    | cons x q => exact (List.append_nil (x :: q)).symm
  | put x =>
    simp only [step, displacing, put, putOf]
    split
    · rename_i full
      cases q with
      | nil => exact absurd (positive.trans_le full) (Nat.lt_irrefl 0)
      | cons y q => rfl
    · rfl

end Calls

section Runs
variable {size : Nat}

/-- What was put in by a run. -/
def history (calls : List (QueueCall T)) : List T := calls.flatMap putOf

/-- Over any run, what has left and what waits are what was put in, in its order. -/
theorem conserved (positive : 0 < size) (q : List T) (calls : List (QueueCall T)) :
    (Runs.outputs (step size) q calls).map Removal.item ++ Runs.run (step size) q calls = q ++ history calls := by
  induction calls generalizing q with
  | nil => exact (List.append_nil q).symm
  | cons call calls ih =>
    calc
      _ = (step size q call).2.map Removal.item ++ ((step size q call).1 ++ history calls) := by
        rw [Runs.outputs, Runs.run, List.map_append, List.append_assoc, ih]
      _ = q ++ putOf call ++ history calls := by rw [← List.append_assoc, step_conserves positive]
      _ = _ := List.append_assoc q _ _

end Runs

end EnerSentry.Lib.BoundedQueue
