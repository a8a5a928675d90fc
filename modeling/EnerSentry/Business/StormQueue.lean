import EnerSentry.Business.AlarmTransitions

/-!
The queue of alarms deferred by a storm. Its flush timer is built and re-timed but never
started, so a deferred alarm waits for a flush that nobody schedules: the queue is served
throughout a run exactly when nothing is ever deferred.
-/

namespace EnerSentry.Business
open EnerSentry.Lib

namespace AlarmEngine
variable {K : Type*} [Zero K]

/-- A queue that is not empty has a running flush timer, and the next flush emits the
queue as one batch and empties it. -/
def QueueServed (e : AlarmEngine K) : Prop :=
  e.pendingStorm ≠ [] → e.stormFlushTimer.active = true ∧
    ∀ nowMono, (e.onStormFlush nowMono).1.pendingStorm = [] ∧
      (e.onStormFlush nowMono).2.head? =
        some (.alarmStormTriggered e.pendingStorm.length e.stormDroppedCount e.pendingStorm)

variable {e : AlarmEngine K}

variable [LT K] [DecidableLT K] [ToString K]

/-- A sample completes its point's on-delay outside the window while the storm flag, as
this sample leaves it, is set. -/
def RaisesInStorm (e : AlarmEngine K) : AlarmInput K → Prop
  | .dataUpdated pid value nowMono _ => ∃ r, e.Due pid value nowMono r ∧
      (e.stateOf pid).suppressed r nowMono = false ∧ (e.isStormTriggered nowMono).stormActive = true
  | _ => False

/-- Samples leave the timer alone, and defer at most the one alarm they raise. -/
theorem evaluate_queue (pid : UInt32) (value : K) (nowMono : Int) (nowEpoch : Nat) :
    (e.evaluate pid value nowMono nowEpoch).1.stormFlushTimer = e.stormFlushTimer ∧
      ((e.evaluate pid value nowMono nowEpoch).1.pendingStorm = e.pendingStorm ∨
        e.RaisesInStorm (.dataUpdated pid value nowMono nowEpoch)) := by
  have effect := evaluated (e := e) pid value nowMono nowEpoch
  cases effect with
  | ignored unwatched same silent => exact ⟨congrArg _ same, Or.inl (congrArg _ same)⟩
  | raises r due window moves seq queue published =>
    refine ⟨moves.stormFlushTimer, ?_⟩
    by_cases storm : (e.isStormTriggered nowMono).stormActive = true
    · exact Or.inr ⟨r, due, window, storm⟩
    · rw [if_neg (fun both => storm both.1)] at queue
      exact Or.inl queue
  | waitsOn r watches on moves early quiet => exact ⟨moves.stormFlushTimer, Or.inl quiet.pendingStorm⟩
  | swallows r due window moves quiet =>
    exact ⟨moves.stormFlushTimer, Or.inl quiet.pendingStorm⟩
  | waitsOff r watches on off early moves quiet => exact ⟨moves.stormFlushTimer, Or.inl quiet.pendingStorm⟩
  | calms r watches on off elapsed idle moves quiet =>
    exact ⟨moves.stormFlushTimer, Or.inl quiet.pendingStorm⟩
  | recovers r watches on off elapsed alarming moves seq queue told =>
    exact ⟨moves.stormFlushTimer, Or.inl queue⟩
  | between r watches on off moves quiet => exact ⟨moves.stormFlushTimer, Or.inl quiet.pendingStorm⟩

variable [BEq K]

/-- Nothing in the engine starts the flush timer. -/
theorem timer_step (stopped : e.stormFlushTimer.active = false) (input : AlarmInput K) :
    (e.step input).1.stormFlushTimer.active = false := by
  cases input with
  | dataUpdated pid value nowMono nowEpoch =>
    simp only [step, (evaluate_queue pid value nowMono nowEpoch).1, stopped]
  | reloadRules rules => exact stopped
  | suppressPoint pointId expireTimeEpoch nowEpoch => exact stopped
  | unsuppressPoint pointId => exact stopped
  | setStormConfig cfg => exact stopped
  | acknowledgeAlarm alarmId user => simp only [step, (acknowledgeAlarm_frame alarmId user).1, stopped]
  | acknowledgeAlarms ids user => simp only [step, (acknowledgeAlarms_frame ids user).1, stopped]
  | stormFlush nowMono =>
    rcases onStormFlush_cases (e := e) nowMono with ⟨-, same⟩ | ⟨-, active, rest, -, same⟩
    all_goals
      rw [step, same]
      exact stopped

theorem empty_step (empty : e.pendingStorm = []) (input : AlarmInput K) (allowed : ¬e.RaisesInStorm input) :
    (e.step input).1.pendingStorm = [] := by
  cases input with
  | dataUpdated pid value nowMono nowEpoch =>
    rcases (evaluate_queue (e := e) pid value nowMono nowEpoch).2 with same | deferred
    · exact same.trans empty
    · exact absurd deferred allowed
  | reloadRules rules => exact empty
  | suppressPoint pointId expireTimeEpoch nowEpoch => exact empty
  | unsuppressPoint pointId => exact empty
  | setStormConfig cfg => exact empty
  | acknowledgeAlarm alarmId user => exact (acknowledgeAlarm_frame alarmId user).2.1.trans empty
  | acknowledgeAlarms ids user => exact (acknowledgeAlarms_frame ids user).2.1.trans empty
  | stormFlush nowMono =>
    rcases onStormFlush_cases (e := e) nowMono with ⟨-, same⟩ | ⟨served, -⟩
    · rw [step, same]
      exact empty
    · exact absurd empty served.2

/-- A raise in a storm puts its alarm into the empty queue. -/
theorem deferred_step (empty : e.pendingStorm = []) (input : AlarmInput K) (deferred : e.RaisesInStorm input) :
    (e.step input).1.pendingStorm ≠ [] := by
  cases input with
  | dataUpdated pid value nowMono nowEpoch =>
    obtain ⟨r, due, window, storm⟩ := deferred
    rcases (evaluated (e := e) pid value nowMono nowEpoch).due due with ⟨inside, swallowed⟩ | ⟨_, _, _, queue⟩
    · rw [window] at inside
      exact absurd inside (by decide)
    · simp only [step, queue, storm, empty, List.length_nil, List.nil_append]
      simp [maxPendingStorm]
  | _ => exact absurd deferred id

/-- The queue is served throughout a run exactly when no alarm of the run is raised in a storm. -/
theorem queue_served_iff (inputs : List (AlarmInput K)) :
    (∀ e ∈ Runs.reached step ({} : AlarmEngine K) inputs, e.QueueServed) ↔
      ∀ v ∈ Runs.visits step ({} : AlarmEngine K) inputs, ¬v.1.RaisesInStorm v.2 := by
  apply Runs.reached_iff step inputs (B := fun e => e.stormFlushTimer.active = false)
    (J := fun e => e.pendingStorm = []) (A := fun e input => ¬e.RaisesInStorm input)
  · rfl
  · exact fun e input stopped => timer_step stopped input
  · rfl
  · exact fun e empty waiting => absurd empty waiting
  · exact fun e input _ empty allowed => empty_step empty input allowed
  · intro e input stopped served deferred
    have empty : e.pendingStorm = [] := by
      by_contra waiting
      exact absurd ((served waiting).1.symm.trans stopped) (by decide)
    intro after
    have scheduled := (after (deferred_step empty input (not_not.mp deferred))).1
    exact absurd (scheduled.symm.trans (timer_step stopped input)) (by decide)

/-- A storm threshold of one, and two points beyond their limits at once. -/
def smallStorm : List (AlarmInput Int) :=
  [.setStormConfig { threshold := 1 },
    .reloadRules [{ pointId := 1, onThreshold := 10, offThreshold := 5, onDelayMs := 0 },
      { pointId := 2, onThreshold := 10, offThreshold := 5, onDelayMs := 0 }],
    .dataUpdated 1 20 100000 0, .dataUpdated 2 20 100000 0]

/-- The second alarm is deferred, and no flush is scheduled for it. -/
theorem queue_served_fails :
    ¬∀ e ∈ Runs.reached step ({} : AlarmEngine Int) smallStorm, e.QueueServed := by
  intro served
  have waiting : (Runs.run step ({} : AlarmEngine Int) smallStorm).pendingStorm ≠ [] := by
    decide +kernel
  have scheduled := (served _ Runs.run_mem_reached waiting).1
  exact absurd scheduled (by decide +kernel)

end AlarmEngine
end EnerSentry.Business
