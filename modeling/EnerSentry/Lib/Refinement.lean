import EnerSentry.Lib.Runs

/-!
A machine that refines another one: every step from a state that keeps the invariant, at an event that
is allowed there, is a step of the other machine from the image of the state, with the same outputs.

A part of a machine may be a machine of its own, which answers its share of every event. Over a run of the
whole it makes the run of all its shares.
-/

namespace EnerSentry.Lib.Runs

variable {S T E O : Type*}

structure Refines (step : Step S E O) (spec : Step T E O) (image : S → T) (I : S → Prop) (A : E → Prop) : Prop where
  keeps : ∀ s e, I s → A e → I (step s e).1
  state : ∀ s e, I s → A e → image (step s e).1 = (spec (image s) e).1
  outputs : ∀ s e, I s → A e → (step s e).2 = (spec (image s) e).2

namespace Refines
variable {step : Step S E O} {spec : Step T E O} {image : S → T} {I : S → Prop} {A : E → Prop} {s : S} {es : List E}

/-- What holds of one step holds of a run: the invariant, the state and all that is put out. -/
theorem run_refined (refines : Refines step spec image I A) (start : I s) (allowed : ∀ e ∈ es, A e) :
    I (run step s es) ∧ image (run step s es) = run spec (image s) es ∧
      Runs.outputs step s es = Runs.outputs spec (image s) es := by
  induction es generalizing s with
  | nil => exact ⟨start, rfl, rfl⟩
  | cons e es ih =>
    obtain ⟨here, later⟩ := List.forall_mem_cons.mp allowed
    have state := refines.state s e start here
    obtain ⟨kept, states, rest⟩ := ih (refines.keeps s e start here) later
    rw [state] at states rest
    refine ⟨kept, states, ?_⟩
    rw [Runs.outputs, Runs.outputs, refines.outputs s e start here, rest]

end Refines

section Shares
variable {F P : Type*}

/-- The events of a part in a run of the whole, in their order. -/
def shares (step : Step S E O) (share : S → E → List F) (s : S) (es : List E) : List F :=
  (visits step s es).flatMap fun v => share v.1 v.2

variable {step : Step S E O} {part : Step T F P} (image : S → T) (share : S → E → List F) {s : S} {es : List E}

@[simp] theorem shares_cons (step : Step S E O) (e : E) :
    shares step share s (e :: es) = share s e ++ shares step share (step s e).1 es := rfl

/-- Shares that do not depend on the state. -/
theorem shares_events (step : Step S E O) (share : E → List F) :
    shares step (fun _ e => share e) s es = es.flatMap share := by
  induction es generalizing s with
  | nil => rfl
  | cons e es ih => rw [shares_cons, ih, List.flatMap_cons]

/-- A map of lists that respects their appending may be made share by share. -/
theorem shares_hom {Q : Type*} (step : Step S E O) (hom : List F → List Q) (nil : hom [] = [])
    (append : ∀ l l', hom (l ++ l') = hom l ++ hom l') :
    hom (shares step share s es) = shares step (fun s e => hom (share s e)) s es := by
  induction es generalizing s with
  | nil => exact nil
  | cons e es ih => rw [shares_cons, append, ih, shares_cons]

theorem run_shared
    (one : ∀ v ∈ visits step s es, image (step v.1 v.2).1 = run part (image v.1) (share v.1 v.2)) :
    image (run step s es) = run part (image s) (shares step share s es) := by
  induction es generalizing s with
  | nil => rfl
  | cons e es ih =>
    obtain ⟨here, later⟩ := List.forall_mem_cons.mp one
    rw [run, ih later, here, shares_cons, run_append]

/-- The visits of a part are made during those of the whole. -/
theorem visits_shared {A : T → F → Prop}
    (one : ∀ v ∈ visits step s es, image (step v.1 v.2).1 = run part (image v.1) (share v.1 v.2))
    (during : ∀ v ∈ visits step s es, ∀ u ∈ visits part (image v.1) (share v.1 v.2), A u.1 u.2) :
    ∀ u ∈ visits part (image s) (shares step share s es), A u.1 u.2 := by
  induction es generalizing s with
  | nil => exact List.forall_mem_nil _
  | cons e es ih =>
    obtain ⟨here, later⟩ := List.forall_mem_cons.mp one
    obtain ⟨now, then_⟩ := List.forall_mem_cons.mp during
    rw [shares_cons, visits_append, ← here, List.forall_mem_append]
    exact ⟨now, ih later then_⟩

/-- What the whole puts out of a part is what the part puts out. -/
theorem outputs_shared (pick : O → Option P)
    (one : ∀ v ∈ visits step s es, image (step v.1 v.2).1 = run part (image v.1) (share v.1 v.2) ∧
      (step v.1 v.2).2.filterMap pick = outputs part (image v.1) (share v.1 v.2)) :
    (outputs step s es).filterMap pick = outputs part (image s) (shares step share s es) := by
  induction es generalizing s with
  | nil => rfl
  | cons e es ih =>
    obtain ⟨here, later⟩ := List.forall_mem_cons.mp one
    rw [outputs, List.filterMap_append, ih later, here.1, here.2, shares_cons, outputs_append]

/-- What a run puts out, visit by visit. -/
theorem filterMap_outputs {Q : Type*} (pick : O → Option Q) (own : S → E → List Q)
    (one : ∀ v ∈ visits step s es, (step v.1 v.2).2.filterMap pick = own v.1 v.2) :
    (outputs step s es).filterMap pick = shares step own s es := by
  induction es generalizing s with
  | nil => rfl
  | cons e es ih =>
    obtain ⟨here, later⟩ := List.forall_mem_cons.mp one
    rw [outputs, List.filterMap_append, ih later, here, shares_cons]

/-- A part that counts its events. -/
theorem run_counting (n : Nat) (es : List F) : run (fun n _ => (n + 1, ([] : List P))) n es = n + es.length := by
  induction es generalizing n with
  | nil => rfl
  | cons e es ih => rw [run, ih, List.length_cons, Nat.add_assoc, Nat.add_comm 1]

end Shares

end EnerSentry.Lib.Runs
