import EnerSentry.Business.AlarmTransitions

/-!
The two views of "in alarm": the latch of the hysteresis and the status of the point's
alarm. They agree in every state of a run exactly when no completed delay of the run is
swallowed by the de-duplication window, because the latch is set before the window is
looked at.
-/

namespace EnerSentry.Business
open EnerSentry.Lib

namespace PointAlarmState
variable {K : Type*} [Zero K]

/-- The latch says what the status says. -/
def Aligned (st : PointAlarmState K) : Prop :=
  st.inAlarmBand = st.alarming ∧ (st.alarming = true → st.activeId ≠ 0)

/-- A point waiting for its delay is not latched yet. -/
def Unlatched (st : PointAlarmState K) : Prop := st.pendingOn = true → st.inAlarmBand = false

variable {st : PointAlarmState K} {r : AlarmRule K} {nowMono : Int}

theorem Unlatched.awaitOn (unlatched : st.Unlatched) : (st.awaitOn nowMono).Unlatched := by
  unfold PointAlarmState.awaitOn
  split
  · rename_i candidate
    simp only [Bool.and_eq_true, Bool.not_eq_eq_eq_not, Bool.not_true] at candidate
    exact fun _ => candidate.2
  · exact unlatched

theorem Unlatched.awaitOff (unlatched : st.Unlatched) : (st.awaitOff nowMono).Unlatched := by
  obtain ⟨band, status, id, last, pending, since⟩ := st.awaitOff_frame nowMono
  intro waiting
  rw [band]
  exact unlatched (pending ▸ waiting)

/-- Waiting for either delay is no change of the alarm. -/
theorem Aligned.awaitOn (aligned : st.Aligned) : (st.awaitOn nowMono).Aligned := by
  obtain ⟨band, status, id, last, pending, since⟩ := st.awaitOn_frame nowMono
  simpa only [Aligned, alarming, band, status, id] using aligned

theorem Aligned.awaitOff (aligned : st.Aligned) : (st.awaitOff nowMono).Aligned := by
  obtain ⟨band, status, id, last, pending, since⟩ := st.awaitOff_frame nowMono
  simpa only [Aligned, alarming, band, status, id] using aligned

theorem Unlatched.elapsed (unlatched : st.Unlatched)
    (elapsed : (st.awaitOn nowMono).onElapsed r nowMono = true) : st.inAlarmBand = false := by
  have pending : (st.awaitOn nowMono).Unlatched := unlatched.awaitOn
  simp only [onElapsed, Bool.and_eq_true] at elapsed
  rw [← (st.awaitOn_frame nowMono).1]
  exact pending elapsed.1

theorem aligned_confirmed (aligned : st.Aligned) (active : st.status = .active) :
    ({ st with status := .confirmed } : PointAlarmState K).Aligned := by
  have was : st.alarming = true := by simp [alarming, active]
  exact ⟨aligned.1.trans was, fun _ => aligned.2 was⟩

end PointAlarmState

namespace AlarmEngine
variable {K : Type*} [Zero K]

/-- The engine's two counts of alarming points are one, point by point and in total. -/
structure ViewsAgree (e : AlarmEngine K) : Prop where
  point : ∀ p, e.isPointInAlarm p = true ↔
    (e.stateOf p).alarming = true ∧ (e.stateOf p).activeId ≠ 0
  total : e.activeAlarmCount = e.states.toList.countP (fun x => e.isPointInAlarm x.1)

variable {e : AlarmEngine K}

theorem isPointInAlarm_eq (p : UInt32) : e.isPointInAlarm p = (e.stateOf p).inAlarmBand := by
  unfold isPointInAlarm stateOf
  cases e.states[p]? <;> rfl

def Aligned (e : AlarmEngine K) : Prop := ∀ p, (e.stateOf p).Aligned

def Unlatched (e : AlarmEngine K) : Prop := ∀ p, (e.stateOf p).Unlatched

theorem Aligned.viewsAgree (aligned : e.Aligned) : e.ViewsAgree := by
  constructor
  · intro p
    rw [isPointInAlarm_eq, (aligned p).1]
    exact ⟨fun alarming => ⟨alarming, (aligned p).2 alarming⟩, And.left⟩
  · apply List.countP_congr
    intro x member
    have stored := Std.TreeMap.mem_toList_iff_getElem?_eq_some.mp member
    have own : e.stateOf x.1 = x.2 := by rw [stateOf, stored, Option.getD_some]
    rw [isPointInAlarm_eq, (aligned x.1).1, own]

variable [LT K] [DecidableLT K] [BEq K] [ToString K]

/-- A sample completes its point's on-delay inside the window after the last raise. -/
def SwallowsRaise (e : AlarmEngine K) : AlarmInput K → Prop
  | .dataUpdated pid value nowMono _ =>
      ∃ r, e.Due pid value nowMono r ∧ (e.stateOf pid).suppressed r nowMono = true
  | _ => False

/-- A sample that completes its point's on-delay issues an alarm. -/
def RaisesWhenDue (e : AlarmEngine K) (input : AlarmInput K) : Prop :=
  ∀ pid value nowMono nowEpoch r, input = .dataUpdated pid value nowMono nowEpoch →
    e.Due pid value nowMono r → (e.step input).1.alarmIdSeq = e.alarmIdSeq + 1 ∧
      ((e.step input).1.stateOf pid).activeId = e.alarmIdSeq + 1

theorem unlatched_step (unlatched : e.Unlatched) (input : AlarmInput K) :
    (e.step input).1.Unlatched := by
  refine every_step input (fun st holds _ => holds) (by simp [PointAlarmState.Unlatched])
    (fun st holds => by simp [PointAlarmState.Unlatched, PointAlarmState.reset]) unlatched ?_
  intro pid value nowMono nowEpoch same
  have own : (e.seen pid value).Unlatched := unlatched pid
  have effect := evaluated (e := e) pid value nowMono nowEpoch
  cases effect with
  | ignored unwatched same silent =>
    rw [same]
    exact unlatched
  | waitsOn r watches on moves early quiet => exact moves.every own.awaitOn unlatched
  | swallows r due window moves quiet =>
    exact moves.every (by simp [PointAlarmState.Unlatched]) unlatched
  | raises r due window moves seq queue published =>
    exact moves.every (by simp [PointAlarmState.Unlatched]) unlatched
  | waitsOff r watches on off early moves quiet => exact moves.every own.awaitOff unlatched
  | calms r watches on off elapsed idle moves quiet =>
    exact moves.every (by simp [PointAlarmState.Unlatched]) unlatched
  | recovers r watches on off elapsed alarming moves seq queue told =>
    exact moves.every (by simp [PointAlarmState.Unlatched, PointAlarmState.recovered]) unlatched
  | between r watches on off moves quiet =>
    exact moves.every (by simp [PointAlarmState.Unlatched]) unlatched

theorem aligned_step (aligned : e.Aligned) (input : AlarmInput K) (allowed : ¬e.SwallowsRaise input) :
    (e.step input).1.Aligned := by
  refine every_step input (fun st holds active => PointAlarmState.aligned_confirmed holds active)
    (by simp [PointAlarmState.Aligned, PointAlarmState.alarming]) (fun st holds => holds) aligned ?_
  intro pid value nowMono nowEpoch same
  have own : (e.seen pid value).Aligned := aligned pid
  have effect := evaluated (e := e) pid value nowMono nowEpoch
  cases effect with
  | ignored unwatched same silent =>
    rw [same]
    exact aligned
  | waitsOn r watches on moves early quiet => exact moves.every own.awaitOn aligned
  | swallows r due window moves quiet =>
    rw [same] at allowed
    exact absurd ⟨r, due, window⟩ allowed
  | raises r due window moves seq queue published =>
    refine moves.every ⟨by simp [PointAlarmState.alarming], fun _ => ?_⟩ aligned
    exact Nat.succ_ne_zero _
  | waitsOff r watches on off early moves quiet => exact moves.every own.awaitOff aligned
  | calms r watches on off elapsed idle moves quiet =>
    have status := ((e.seen pid value).awaitOff_frame nowMono).2.1
    have calm : ((e.seen pid value).awaitOff nowMono).alarming = false := by
      rw [PointAlarmState.alarming, status]
      exact idle
    refine moves.every ⟨?_, ?_⟩ aligned
    · exact calm.symm
    · intro alarming
      exact absurd (calm.symm.trans alarming) (by decide)
  | recovers r watches on off elapsed alarming moves seq queue told =>
    exact moves.every (by simp [PointAlarmState.Aligned, PointAlarmState.recovered,
      PointAlarmState.alarming]) aligned
  | between r watches on off moves quiet => exact moves.every own aligned

/-- The latch of a swallowed raise is set on a point that has no alarm. -/
theorem swallowed_breaks (unlatched : e.Unlatched) (agree : e.ViewsAgree) (input : AlarmInput K)
    (swallows : e.SwallowsRaise input) : ¬(e.step input).1.ViewsAgree := by
  cases input with
  | dataUpdated pid value nowMono nowEpoch =>
    obtain ⟨r, due, window⟩ := swallows
    have own : (e.seen pid value).Unlatched := unlatched pid
    have outside : (e.stateOf pid).inAlarmBand = false := own.elapsed due.elapsed
    have idle : ¬((e.stateOf pid).alarming = true ∧ (e.stateOf pid).activeId ≠ 0) := by
      rw [← agree.point, isPointInAlarm_eq, outside]
      decide
    obtain ⟨band, status, id, last, pending, since⟩ := (e.seen pid value).awaitOn_frame nowMono
    rcases (evaluated (e := e) pid value nowMono nowEpoch).due due with ⟨inside, moves, quiet⟩ | ⟨open_, raised⟩
    · intro after
      have stored : (e.step (.dataUpdated pid value nowMono nowEpoch)).1.stateOf pid = _ := moves.own
      have latched := (after.point pid).mp (by rw [isPointInAlarm_eq, stored])
      rw [stored] at latched
      simp only [PointAlarmState.alarming, status, id] at latched
      exact idle latched
    · rw [window] at open_
      exact absurd open_ (by decide)
  | _ => exact absurd swallows id

theorem raisesWhenDue_of_allowed (input : AlarmInput K) (allowed : ¬e.SwallowsRaise input) :
    e.RaisesWhenDue input := by
  intro pid value nowMono nowEpoch r same due
  subst same
  rcases (evaluated (e := e) pid value nowMono nowEpoch).due due with ⟨inside, swallowed⟩ | ⟨open_, moves, seq, queue⟩
  · exact absurd ⟨r, due, inside⟩ allowed
  · exact ⟨seq, congrArg PointAlarmState.activeId moves.own⟩

/-- The two views agree throughout a run, and every completed delay issues its alarm,
exactly when no delay of the run is completed inside its point's window. -/
theorem agreement_iff (inputs : List (AlarmInput K)) :
    ((∀ e ∈ Runs.reached step ({} : AlarmEngine K) inputs, e.ViewsAgree) ∧
      ∀ v ∈ Runs.visits step ({} : AlarmEngine K) inputs, v.1.RaisesWhenDue v.2) ↔
    ∀ v ∈ Runs.visits step ({} : AlarmEngine K) inputs, ¬v.1.SwallowsRaise v.2 := by
  have unlatched : ({} : AlarmEngine K).Unlatched := fun p => by simp [stateOf, PointAlarmState.Unlatched]
  have aligned : ({} : AlarmEngine K).Aligned := fun p => by
    simp [stateOf, PointAlarmState.Aligned, PointAlarmState.alarming]
  have rule := Runs.reached_iff step inputs (A := fun e input => ¬e.SwallowsRaise input)
    unlatched (fun e input holds => unlatched_step holds input) aligned
    (fun e => Aligned.viewsAgree) (fun e input _ holds allowed => aligned_step holds input allowed)
    (fun e input holds agree swallows => swallowed_breaks holds agree input (not_not.mp swallows))
  constructor
  · intro holds
    exact rule.mp holds.1
  · intro allowed
    exact ⟨rule.mpr allowed, fun v visited => raisesWhenDue_of_allowed v.2 (allowed v visited)⟩

/-- One rule, and a point that stays beyond its limit from one second after boot on. -/
def earlyExcursion : List (AlarmInput Int) :=
  [.reloadRules [{ pointId := 1, onThreshold := 10, offThreshold := 5 }],
    .dataUpdated 1 20 1000 0, .dataUpdated 1 20 4000 0]

/-- The very first alarm of the point is swallowed and the latch stays set without it. -/
theorem agreement_fails :
    ¬∀ e ∈ Runs.reached step ({} : AlarmEngine Int) earlyExcursion, e.ViewsAgree := by
  intro agree
  have last := (agree _ Runs.run_mem_reached).point 1
  have latched : (Runs.run step ({} : AlarmEngine Int) earlyExcursion).isPointInAlarm 1 = true := by
    decide +kernel
  have idle : ((Runs.run step ({} : AlarmEngine Int) earlyExcursion).stateOf 1).alarming = false := by
    decide +kernel
  rw [(last.mp latched).1] at idle
  exact absurd idle (by decide)

end AlarmEngine
end EnerSentry.Business
