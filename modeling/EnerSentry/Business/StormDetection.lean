import EnerSentry.Lib.Recent
import EnerSentry.Business.AlarmTransitions

/-!
Storm detection counts the on-side evaluations of the last window in an array that holds
the last 128 of them. The answer is right for a threshold below that size, and for a
larger one it is right until the window really exceeds the threshold: then it stays false.
-/

namespace EnerSentry.Business
open EnerSentry.Lib

namespace AlarmEngine
variable {K : Type*} [Zero K] {e : AlarmEngine K}

/-- The part of the engine that a storm is judged by. -/
def stamps (e : AlarmEngine K) : (Nat → Int) × Nat × Nat := (e.alarmTimeRing, e.ringHead, e.ringCount)

/-- The array holds the last of these times. -/
def Remembers (e : AlarmEngine K) (times : List Int) : Prop :=
  Recent.Keeps alarmTimeRingSize e.alarmTimeRing e.ringHead e.ringCount times

section Ring
variable {times : List Int}

theorem remembers_start : ({} : AlarmEngine K).Remembers [] := Recent.keeps_nil _ (by decide)

theorem Remembers.congr (remembers : e.Remembers times) {d : AlarmEngine K} (same : d.stamps = e.stamps) :
    d.Remembers times := by
  simp only [stamps, Prod.mk.injEq] at same
  obtain ⟨ring, head, count⟩ := same
  rw [Remembers, ring, head, count]
  exact remembers

theorem Remembers.pushAlarmTime (remembers : e.Remembers times) (nowMono : Int) :
    (e.pushAlarmTime nowMono).Remembers (times ++ [nowMono]) := by
  have pushed := Recent.Keeps.push remembers nowMono
  have slot := Recent.Keeps.slot remembers
  have filled := remembers.count_eq
  unfold AlarmEngine.pushAlarmTime
  by_cases room : times.length < alarmTimeRingSize
  · have counted : e.ringCount < alarmTimeRingSize := by omega
    rw [if_pos counted] at slot ⊢
    rw [if_pos room, if_pos room, ← slot] at pushed
    exact pushed
  · have counted : ¬e.ringCount < alarmTimeRingSize := by omega
    rw [if_neg counted] at slot ⊢
    rw [if_neg room, if_neg room, ← slot] at pushed
    exact pushed

theorem Remembers.isStormTriggered (remembers : e.Remembers times) (window : e.stormConfig.windowMs ≠ 0)
    (nowMono : Int) : (e.isStormTriggered nowMono).Remembers (times ++ [nowMono]) := by
  unfold AlarmEngine.isStormTriggered
  rw [if_neg window]
  exact remembers.pushAlarmTime nowMono

@[simp] theorem pushAlarmTime_stormConfig (nowMono : Int) :
    (e.pushAlarmTime nowMono).stormConfig = e.stormConfig := by
  unfold pushAlarmTime
  split <;> rfl

/-- How many of these times lie in the window that ends now. -/
def inWindow (cfg : AlarmStormConfig) (nowMono : Int) (times : List Int) : Nat :=
  times.countP (fun t => nowMono - t ≤ (cfg.windowMs.toNat : Int))

/-- The count the engine compares with its threshold is cut off at the size of the array. -/
theorem Remembers.countInWindow (remembers : e.Remembers times) (ordered : times.Pairwise (· ≤ ·))
    (nowMono : Int) :
    e.countInWindow nowMono = min alarmTimeRingSize (inWindow e.stormConfig nowMono times) := by
  apply Recent.Keeps.countP_eq remembers (p := fun t => nowMono - t ≤ (e.stormConfig.windowMs.toNat : Int))
  apply ordered.imp
  intro earlier later le inside
  simp only [decide_eq_true_eq] at inside ⊢
  omega

theorem Remembers.answer (remembers : e.Remembers times) (window : e.stormConfig.windowMs ≠ 0)
    {nowMono : Int} (ordered : (times ++ [nowMono]).Pairwise (· ≤ ·)) :
    (e.isStormTriggered nowMono).stormActive = true ↔
      e.stormConfig.threshold.toNat <
        min alarmTimeRingSize (inWindow e.stormConfig nowMono (times ++ [nowMono])) := by
  have counted := (remembers.pushAlarmTime nowMono).countInWindow ordered nowMono
  unfold AlarmEngine.isStormTriggered
  rw [if_neg window]
  simp only [pushAlarmTime_stormConfig, decide_eq_true_eq, counted]

end Ring

section Frame
variable (pid : UInt32)

@[simp] theorem setState_stamps (st : PointAlarmState K) : (e.setState pid st).stamps = e.stamps := rfl

theorem recoverAlarm_stamps : (e.recoverAlarm pid).1.stamps = e.stamps := by
  unfold recoverAlarm
  split
  · rfl
  · split <;> rfl

theorem acknowledgeAlarm_stamps (alarmId : Nat) (user : String) :
    (e.acknowledgeAlarm alarmId user).1.stamps = e.stamps := by
  rcases acknowledgeAlarm_cases (e := e) alarmId user with same | ⟨pid, active, named, confirmed⟩
  · rw [same]
  · rw [confirmed, setState_stamps]

theorem acknowledgeAlarms_stamps (ids : List Nat) (user : String) :
    (e.acknowledgeAlarms user ids).1.stamps = e.stamps := by
  apply acknowledgeAlarms_keeps (I := fun d => d.stamps = e.stamps)
  · exact fun d id same => (acknowledgeAlarm_stamps id user).trans same
  · rfl

theorem onStormFlush_stamps (nowMono : Int) : (e.onStormFlush nowMono).1.stamps = e.stamps := by
  rcases onStormFlush_cases (e := e) nowMono with ⟨-, same⟩ | ⟨-, active, rest, -, same⟩
  · rw [same]
  · rw [same]
    rfl

variable [ToString K]

theorem raiseAlarm_stamps (r : AlarmRule K) (value : K) (nowMono : Int) (nowEpoch : Nat) :
    (e.raiseAlarm pid r value nowMono nowEpoch).1.stamps = e.stamps := by
  unfold raiseAlarm queueStorm
  simp only
  repeat' split
  all_goals rfl

variable [LT K] [DecidableLT K]

/-- The time of the on-side evaluation that an input is, if it is one. -/
def onSideTime (e : AlarmEngine K) : AlarmInput K → Option Int
  | .dataUpdated pid value nowMono _ =>
      match e.rules pid with
      | none => none
      | some r => if e.suppressedPoints pid then none else if r.inOnSide value then some nowMono else none
  | _ => none

theorem evaluate_stamps (value : K) (nowMono : Int) (nowEpoch : Nat) :
    (e.evaluate pid value nowMono nowEpoch).1.stamps =
      (e.onSideTime (.dataUpdated pid value nowMono nowEpoch)).elim e.stamps
        (fun now => (e.isStormTriggered now).stamps) := by
  simp only [evaluate, onSideTime]
  cases e.rules pid with
  | none => rfl
  | some r =>
    cases suppressed : e.suppressedPoints pid with
    | true => simp only [↓reduceIte, Option.elim_none]
    | false =>
      cases on : r.inOnSide value with
      | true =>
        simp only [on, Bool.false_eq_true, ↓reduceIte, Option.elim_some]
        split
        · rw [raiseAlarm_stamps, setState_stamps]
        · rw [setState_stamps]
      | false =>
        simp only [on, Bool.false_eq_true, ↓reduceIte, Option.elim_none]
        repeat' split
        · rw [recoverAlarm_stamps, setState_stamps]
        · rw [setState_stamps]
        · rw [setState_stamps]

end Frame

section Run
variable [LT K] [DecidableLT K] [BEq K] [ToString K] {times : List Int} (input : AlarmInput K)

/-- Only an on-side evaluation enters the array. -/
theorem step_stamps : (e.step input).1.stamps =
    (e.onSideTime input).elim e.stamps (fun now => (e.isStormTriggered now).stamps) := by
  cases input with
  | dataUpdated pid value nowMono nowEpoch => exact evaluate_stamps pid value nowMono nowEpoch
  | acknowledgeAlarm alarmId user => exact acknowledgeAlarm_stamps alarmId user
  | acknowledgeAlarms ids user => exact acknowledgeAlarms_stamps ids user
  | stormFlush nowMono => exact onStormFlush_stamps nowMono
  | reloadRules rules => rfl
  | suppressPoint pointId expireTimeEpoch nowEpoch => rfl
  | unsuppressPoint pointId => rfl
  | setStormConfig cfg => rfl

theorem remembers_step (remembers : e.Remembers times) (window : e.stormConfig.windowMs ≠ 0) :
    (e.step input).1.Remembers (times ++ (e.onSideTime input).toList) := by
  have entered := step_stamps (e := e) input
  cases time : e.onSideTime input with
  | none =>
    rw [time, Option.elim_none] at entered
    rw [Option.toList_none, List.append_nil]
    exact remembers.congr entered
  | some now =>
    rw [time, Option.elim_some] at entered
    rw [Option.toList_some]
    exact (remembers.isStormTriggered window now).congr entered

/-- The times of the on-side evaluations of a run, in their order. -/
def onSideTimes (e : AlarmEngine K) (inputs : List (AlarmInput K)) : List Int :=
  (Runs.visits step e inputs).flatMap (fun v => (v.1.onSideTime v.2).toList)

theorem remembers_run (remembers : e.Remembers times) (inputs : List (AlarmInput K))
    (windows : ∀ d ∈ Runs.reached step e inputs, d.stormConfig.windowMs ≠ 0) :
    (Runs.run step e inputs).Remembers (times ++ e.onSideTimes inputs) := by
  induction inputs generalizing e times with
  | nil => simpa [onSideTimes, Runs.visits, Runs.run] using remembers
  | cons input inputs ih =>
    simp only [Runs.reached, List.forall_mem_cons] at windows
    have later := ih (remembers_step input remembers windows.1) windows.2
    rw [List.append_assoc] at later
    simpa only [onSideTimes, Runs.visits, List.flatMap_cons, Runs.run] using later

/-- At the last evaluation of a run a storm is reported exactly when the window exceeds the
threshold. -/
def StormExact (inputs : List (AlarmInput K)) (nowMono : Int) : Prop :=
  let e := Runs.run step ({} : AlarmEngine K) inputs
  (e.isStormTriggered nowMono).stormActive = true ↔
    e.stormConfig.threshold.toNat <
      inWindow e.stormConfig nowMono (onSideTimes ({} : AlarmEngine K) inputs ++ [nowMono])

/-- The detection is exact at an evaluation if and only if the threshold is below the size of the
array or the window does not exceed it. -/
theorem storm_exact_iff (inputs : List (AlarmInput K)) (nowMono : Int)
    (windows : ∀ e ∈ Runs.reached step ({} : AlarmEngine K) inputs, e.stormConfig.windowMs ≠ 0)
    (ordered : (onSideTimes ({} : AlarmEngine K) inputs ++ [nowMono]).Pairwise (· ≤ ·)) :
    StormExact inputs nowMono ↔
      let cfg := (Runs.run step ({} : AlarmEngine K) inputs).stormConfig
      cfg.threshold.toNat < alarmTimeRingSize ∨
        inWindow cfg nowMono (onSideTimes ({} : AlarmEngine K) inputs ++ [nowMono]) ≤
          cfg.threshold.toNat := by
  have remembers := remembers_run remembers_start inputs windows
  rw [List.nil_append] at remembers
  have answer := remembers.answer (windows _ Runs.run_mem_reached) ordered
  simp only [StormExact, answer]
  omega

/-- Two excursions 600 ms apart are both in the window of a threshold of one. -/
theorem storm_exact_pair : StormExact (K := Int)
    [.setStormConfig { threshold := 1 }, .reloadRules [{ pointId := 1, onThreshold := 10, offThreshold := 5 }],
      .dataUpdated 1 20 100000 0] 100600 :=
  (storm_exact_iff _ _ (by decide +kernel) (by decide +kernel)).mpr (Or.inl (by decide +kernel))

/-- With the default threshold of 200, one point is beyond its limit 201 times at once. -/
def burst : List (AlarmInput Int) :=
  .reloadRules [{ pointId := 1, onThreshold := 10, offThreshold := 5 }] ::
    List.replicate 200 (.dataUpdated 1 20 100000 0)

/-- The window holds 201 evaluations, and no storm is reported. -/
theorem storm_exact_fails : ¬StormExact burst 100000 := by
  unfold StormExact
  decide +kernel

end Run

end AlarmEngine
end EnerSentry.Business
