import EnerSentry.Lib.Ownership
import EnerSentry.Business.SboTransitions

/-!
What the device guard holds is what the armed machines hold, for any number of machines
around one guard. The one event that breaks this is a select that reaches a busy machine
for a free key: it fills a bucket that no machine will ever release.
-/

namespace EnerSentry.Business
open EnerSentry.Lib EnerSentry.Lib.Ownership

namespace SboStateMachine

/-- The locked pair an armed machine answers for. -/
def claim (m : SboStateMachine) : Option (SboDeviceKey × String) :=
  if m.state = .armed then m.heldKey.map (fun key => (key, m.sequenceId)) else none

/-- An armed machine has a guard and the key it took there. -/
def WellArmed (m : SboStateMachine) : Prop :=
  m.state = .armed → m.guarded = true ∧ m.heldKey.isSome = true

variable {m n : SboStateMachine}

theorem claim_of_not_armed (idle : m.state ≠ .armed) : m.claim = none :=
  if_neg idle

theorem claim_eq_some {x : SboDeviceKey × String} :
    m.claim = some x ↔ m.state = .armed ∧ m.heldKey = some x.1 ∧ m.sequenceId = x.2 := by
  obtain ⟨key, id⟩ := x
  by_cases armed : m.state = .armed
  · simp [claim, armed]
  · simp [claim, armed]

theorem claim_same (same : SameSelection m n) : n.claim = m.claim := by
  simp only [SboStateMachine.claim, same.state, same.heldKey, same.sequenceId]

theorem WellArmed.exists_claim (well : m.WellArmed) (armed : m.state = .armed) :
    ∃ key, m.guarded = true ∧ m.heldKey = some key ∧ m.claim = some (key, m.sequenceId) := by
  obtain ⟨guarded, holds⟩ := well armed
  obtain ⟨key, held⟩ := Option.isSome_iff_exists.mp holds
  exact ⟨key, guarded, held, claim_eq_some.mpr ⟨armed, held, rfl⟩⟩

end SboStateMachine

open SboStateMachine

namespace SboContext
variable {flaps : Prop} {c d : SboContext} {e : SboEvent} {signals : List SboSignal}

/-- The machine's claim beside the locked pairs. -/
def locks (c : SboContext) : Option (SboDeviceKey × String) × Set (SboDeviceKey × String) :=
  (c.machine.claim, c.guard.occupied)

/-- Outside a selection neither side of the locks moves. -/
theorem move_unarmed (idle : c.machine.state ≠ .armed) (stays : d.machine.state ≠ .armed)
    (guard : d.guard = c.guard) : Move c.locks d.locks := by
  have same : d.locks = c.locks := by
    simp only [locks, guard, claim_of_not_armed idle, claim_of_not_armed stays]
  rw [same]
  exact .stay _

/-- Releasing what an armed machine holds removes exactly its pair. -/
theorem move_released (well : c.machine.WellArmed)
    (backed : ∀ x, c.machine.claim = some x → x ∈ c.guard.occupied)
    (armed : c.machine.state = .armed) (ends : d.machine.state ≠ .armed)
    (guard : d.guard = c.releaseHeld.guard) : Move c.locks d.locks := by
  obtain ⟨key, guarded, held, claimed⟩ := well.exists_claim armed
  have freed : d.guard.occupied = c.guard.occupied \ {(key, c.machine.sequenceId)} := by
    rw [guard, releaseHeld, guarded, held]
    exact DeviceSboGuard.occupied_release (backed _ claimed)
  simp only [locks, claimed, freed, claim_of_not_armed ends]
  exact .release _ _

/-- Every transition but the leak is a move of its machine. -/
theorem Transition.move (transition : Transition flaps c e d signals) (well : c.machine.WellArmed)
    (backed : ∀ x, c.machine.claim = some x → x ∈ c.guard.occupied)
    (allowed : ¬c.SelectsFreeKey e) : Move c.locks d.locks := by
  cases transition with
  | calm same guard =>
    have kept : d.locks = c.locks := by simp only [locks, claim_same same, guard]
    rw [kept]
    exact .stay _
  | leaks leak => exact absurd leak allowed
  | refused idle stays guard => exact move_unarmed (by simp [idle]) (by simp [stays]) guard
  | arms key operatorName nowMs idle free armed guarded held named guard =>
    have before : c.locks = (none, c.guard.occupied) := by
      rw [locks, claim_of_not_armed (by simp [idle])]
    have claimed : d.machine.claim = some (key, d.machine.sequenceId) :=
      claim_eq_some.mpr ⟨armed, held, rfl⟩
    have after : d.locks =
        (some (key, d.machine.sequenceId), insert (key, d.machine.sequenceId) c.guard.occupied) := by
      rw [locks, claimed, guard, DeviceSboGuard.occupied_tryAcquire free]
    rw [before, after]
    exact .acquire (key, _) _ (DeviceSboGuard.free_iff.mp free)
  | operates armed event executed same guard =>
    exact move_released well backed armed (by simp [executed]) guard
  | ends armed idle guard => exact move_released well backed armed (by simp [idle]) guard
  | reports executed idle guard => exact move_unarmed (by simp [executed]) (by simp [idle]) guard
  | forgets fault unarmed stays guard => exact move_unarmed unarmed (stays ▸ unarmed) guard

/-- No event arms a machine without a guard and a key. -/
theorem Transition.wellArmed (transition : Transition flaps c e d signals)
    (well : c.machine.WellArmed) : d.machine.WellArmed := by
  intro armed
  cases transition with
  | calm same => exact same.guarded ▸ same.heldKey ▸ well (same.state ▸ armed)
  | leaks leak same => exact same.guarded ▸ same.heldKey ▸ well (same.state ▸ armed)
  | arms key operatorName nowMs idle free now guarded held => simp [guarded, held]
  | refused idle stays => simp [stays] at armed
  | operates was event executed => simp [executed] at armed
  | ends was idle => simp [idle] at armed
  | reports executed idle => simp [idle] at armed
  | forgets fault unarmed stays => exact absurd (stays ▸ armed) unarmed

/-- The exceptional select fills a bucket and leaves its machine as it was. -/
theorem leaks (leak : c.SelectsFreeKey e) :
    (c.stepMachine e).1.machine = c.machine ∧
      ∃ x, (∀ id, (x.1, id) ∉ c.guard.occupied) ∧ x ∈ (c.stepMachine e).1.guard.occupied := by
  cases e with
  | submitSelect req operatorName nowMs =>
    obtain ⟨busy, guarded, free⟩ := leak
    simp only [stepMachine, submitSelect, if_pos busy, if_pos guarded]
    refine ⟨trivial, (req.key, "rejected-" ++ toString c.pidSeq.toInt64), DeviceSboGuard.free_iff.mp free, ?_⟩
    rw [DeviceSboGuard.occupied_tryAcquire free]
    exact Set.mem_insert _ _
  | _ => exact absurd leak id

/-- An accepted select ends armed, so a rejected one never took a bucket for its machine. -/
theorem rejected_guard {req : SboSelectRequest} {operatorName : String} {nowMs : Int}
    (allowed : ¬c.SelectsFreeKey (.submitSelect req operatorName nowMs))
    (rejected : (c.submitSelect req operatorName nowMs).accepted = false) :
    (c.submitSelect req operatorName nowMs).context.guard = c.guard := by
  unfold submitSelect at rejected ⊢
  by_cases busy : c.machine.state ≠ .idle
  · rw [if_pos busy]
    by_cases guarded : c.machine.guarded = true
    · rw [if_pos guarded]
      exact DeviceSboGuard.tryAcquire_taken (fun free => allowed ⟨busy, guarded, free⟩)
    · rw [if_neg guarded]
  · rw [if_neg busy] at rejected ⊢
    by_cases guarded : c.machine.guarded = true
    · simp only [if_pos guarded] at rejected ⊢
      by_cases free : c.guard.buckets req.key = none
      · rw [if_pos (DeviceSboGuard.tryAcquire_granted.mpr free)] at rejected
        simp [enterArmedState] at rejected
      · rw [if_neg (fun granted => free (DeviceSboGuard.tryAcquire_granted.mp granted))]
        exact DeviceSboGuard.tryAcquire_taken free
    · simp only [if_neg guarded]

end SboContext

namespace SboStation
variable {ι : Type*}

/-- The locked pairs are those of the machines that are armed. -/
def Occupancy (s : SboStation ι) : Prop :=
  s.guard.occupied = {x | ∃ i, (s.machines i).state = .armed ∧ (s.machines i).heldKey = some x.1 ∧
    (s.machines i).sequenceId = x.2}

def WellArmed (s : SboStation ι) : Prop := ∀ i, (s.machines i).WellArmed

def claims (s : SboStation ι) : ι → Option (SboDeviceKey × String) := fun i => (s.machines i).claim

variable {s : SboStation ι}

theorem occupancy_iff_owned : s.Occupancy ↔ s.guard.occupied = owned s.claims := by
  have same : owned s.claims = {x | ∃ i, (s.machines i).state = .armed ∧
      (s.machines i).heldKey = some x.1 ∧ (s.machines i).sequenceId = x.2} := by
    ext x
    simp only [mem_owned, claims, claim_eq_some, Set.mem_ofPred_eq]
  rw [Occupancy, same]

theorem Occupancy.backed (exact : s.Occupancy) (i : ι) :
    ∀ x, (s.machines i).claim = some x → x ∈ s.guard.occupied := by
  intro x holds
  rw [occupancy_iff_owned.mp exact]
  exact ⟨i, holds⟩

variable [DecidableEq ι] {e : ι × SboEvent}

/-- A select that is turned down leaves the lock table as it found it. -/
def RejectionKeepsGuard (s : SboStation ι) (e : ι × SboEvent) : Prop :=
  ∀ req operatorName nowMs, e.2 = .submitSelect req operatorName nowMs →
    ((s.context e.1).submitSelect req operatorName nowMs).accepted = false →
    (s.step e).1.guard = s.guard

def SelectsFreeKey (s : SboStation ι) (e : ι × SboEvent) : Prop := (s.context e.1).SelectsFreeKey e.2

theorem claims_step : (s.step e).1.claims =
    Function.update s.claims e.1 ((s.context e.1).stepMachine e.2).1.machine.claim := by
  funext i
  by_cases same : i = e.1
  · subst same
    simp [claims, step, put]
  · simp [claims, step, put, same]

theorem wellArmed_step (well : s.WellArmed) : (s.step e).1.WellArmed := by
  intro i
  by_cases same : i = e.1
  · subst same
    simpa [step, put] using (SboContext.transition (s.context e.1) e.2).wellArmed (well e.1)
  · simpa [step, put, same] using well i

theorem step_keeps (well : s.WellArmed) (exact : s.Occupancy) (apart : Exclusive s.claims)
    (allowed : ¬s.SelectsFreeKey e) : (s.step e).1.Occupancy ∧ Exclusive (s.step e).1.claims := by
  have move : Move (s.claims e.1, s.guard.occupied) _ :=
    (SboContext.transition (s.context e.1) e.2).move (well e.1) (exact.backed e.1) allowed
  have kept := Move.keeps move apart (occupancy_iff_owned.mp exact)
  rw [← claims_step] at kept
  exact ⟨occupancy_iff_owned.mpr kept.2, kept.1⟩

theorem step_breaks (exact : s.Occupancy) (leak : s.SelectsFreeKey e) : ¬(s.step e).1.Occupancy := by
  obtain ⟨same, x, free, locked⟩ := SboContext.leaks leak
  intro after
  have unmoved : (s.step e).1.claims = s.claims := by
    rw [claims_step, same]
    exact Function.update_eq_self ..
  rw [occupancy_iff_owned, unmoved, ← occupancy_iff_owned.mp exact] at after
  exact free x.2 (after ▸ locked)

variable (guarded : ι → Bool) (pidSeq : UInt64) (es : List (ι × SboEvent))

/-- The guard's table agrees with the armed machines throughout a run exactly when no
select of the run reaches a busy machine for a free key. -/
theorem occupancy_iff :
    ((∀ s ∈ Runs.reached step (fresh guarded pidSeq) es, s.Occupancy) ∧
      ∀ v ∈ Runs.visits step (fresh guarded pidSeq) es, RejectionKeepsGuard v.1 v.2) ↔
    ∀ v ∈ Runs.visits step (fresh guarded pidSeq) es, ¬SelectsFreeKey v.1 v.2 := by
  have start : (fresh guarded pidSeq).Occupancy ∧ Exclusive (fresh guarded pidSeq).claims := by
    refine ⟨occupancy_iff_owned.mpr ?_, exclusive_none⟩
    exact DeviceSboGuard.occupied_empty.trans owned_none.symm
  have rule := Runs.reached_iff step es (s := fresh guarded pidSeq)
    (B := WellArmed) (I := Occupancy) (J := fun s => s.Occupancy ∧ Exclusive s.claims)
    (A := fun s e => ¬SelectsFreeKey s e)
    (fun i armed => by simp [fresh] at armed) (fun s e => wellArmed_step) start (fun s both => both.1)
    (fun s e well both allowed => step_keeps well both.1 both.2 allowed)
    (fun s e well exact leak => step_breaks exact (not_not.mp leak))
  constructor
  · intro holds
    exact rule.mp holds.1
  · intro allowed
    refine ⟨rule.mpr allowed, ?_⟩
    intro v visited req operatorName nowMs event rejected
    have kept := allowed v visited
    rw [SelectsFreeKey, event] at kept
    simp only [step, put, event, SboContext.stepMachine]
    exact SboContext.rejected_guard kept rejected

/-- One machine is armed on a register and then asked to select another. -/
def secondSelect : List (Unit × SboEvent) :=
  [((), .submitSelect ⟨1, 1, 10, 5, false⟩ "op" 0), ((), .submitSelect ⟨1, 1, 11, 7, false⟩ "op" 100)]

/-- The second register ends up locked for nobody. -/
theorem occupancy_fails :
    ¬∀ s ∈ Runs.reached step (fresh (fun _ : Unit => true) 0) secondSelect, s.Occupancy := by
  intro holds
  have last := holds _ Runs.run_mem_reached
  have taken : ((Runs.run step (fresh (fun _ : Unit => true) 0) secondSelect).guard.buckets
      ⟨1, 1, 11⟩).isSome := by decide +kernel
  obtain ⟨occ, bucket⟩ := Option.isSome_iff_exists.mp taken
  have locked := DeviceSboGuard.mem_occupied.mpr ⟨occ, bucket, rfl⟩
  rw [last] at locked
  obtain ⟨⟨⟩, armed, held, named⟩ := locked
  have other : ((Runs.run step (fresh (fun _ : Unit => true) 0) secondSelect).machines ()).heldKey ≠
      some ⟨1, 1, 11⟩ := by decide +kernel
  exact other held

end SboStation
end EnerSentry.Business
