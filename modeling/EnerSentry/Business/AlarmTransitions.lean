import EnerSentry.Business.AlarmEngine

/-!
What each input does to the alarm engine, as facts later results read: the states of
the points as a function, the queue, the id counter and the signals. A sample has eight
possible effects, named after what happens to its point.
-/

namespace EnerSentry.Business
open EnerSentry.Lib

namespace AlarmEngine
variable {K : Type*} [Zero K] (e : AlarmEngine K)

section Fields
variable (pid : UInt32) (st : PointAlarmState K) (nowMono : Int)

theorem stateOf_setState : (e.setState pid st).stateOf = Function.update e.stateOf pid st := by
  funext p
  by_cases same : p = pid
  · subst same
    simp [stateOf, setState]
  · have other : compare pid p ≠ .eq := fun equal => same (Std.compare_eq_iff_eq.mp equal).symm
    simp [stateOf, setState, Std.TreeMap.getElem?_insert, same, other]

theorem getElem?_setState (p : UInt32) :
    (e.setState pid st).states[p]? = if p = pid then some st else e.states[p]? := by
  by_cases same : p = pid
  · subst same
    simp [setState]
  · have other : compare pid p ≠ .eq := fun equal => same (Std.compare_eq_iff_eq.mp equal).symm
    simp [setState, Std.TreeMap.getElem?_insert, same, other]

@[simp] theorem setState_rules : (e.setState pid st).rules = e.rules := rfl
@[simp] theorem setState_suppressedPoints : (e.setState pid st).suppressedPoints = e.suppressedPoints := rfl
@[simp] theorem setState_stormConfig : (e.setState pid st).stormConfig = e.stormConfig := rfl
@[simp] theorem setState_stormFlushTimer : (e.setState pid st).stormFlushTimer = e.stormFlushTimer := rfl
@[simp] theorem setState_pendingStorm : (e.setState pid st).pendingStorm = e.pendingStorm := rfl
@[simp] theorem setState_alarmIdSeq : (e.setState pid st).alarmIdSeq = e.alarmIdSeq := rfl
@[simp] theorem setState_stormActive : (e.setState pid st).stormActive = e.stormActive := rfl

/-- Counting an excursion touches the ring and the storm flag only. -/
theorem isStormTriggered_frame :
    (e.isStormTriggered nowMono).rules = e.rules ∧
      (e.isStormTriggered nowMono).states = e.states ∧
      (e.isStormTriggered nowMono).suppressedPoints = e.suppressedPoints ∧
      (e.isStormTriggered nowMono).stormConfig = e.stormConfig ∧
      (e.isStormTriggered nowMono).pendingStorm = e.pendingStorm ∧
      (e.isStormTriggered nowMono).stormFlushTimer = e.stormFlushTimer ∧
      (e.isStormTriggered nowMono).alarmIdSeq = e.alarmIdSeq := by
  unfold isStormTriggered pushAlarmTime
  split
  · simp only [and_self]
  · split <;> simp only [and_self]

end Fields

/-- Two engines that only differ in the state of one point and in the storm bookkeeping. -/
structure Moves (e d : AlarmEngine K) (pid : UInt32) (st : PointAlarmState K) : Prop where
  rules : d.rules = e.rules
  suppressedPoints : d.suppressedPoints = e.suppressedPoints
  stormConfig : d.stormConfig = e.stormConfig
  stormFlushTimer : d.stormFlushTimer = e.stormFlushTimer
  stateOf : d.stateOf = Function.update e.stateOf pid st

/-- No alarm was issued and nothing was said. -/
structure Quiet (e d : AlarmEngine K) (signals : List (AlarmSignal K)) : Prop where
  alarmIdSeq : d.alarmIdSeq = e.alarmIdSeq
  pendingStorm : d.pendingStorm = e.pendingStorm
  signals : signals = []

variable [ToString K] [LT K] [DecidableLT K]

/-- The sample's point has a rule and is not under maintenance. -/
def Watches (pid : UInt32) (r : AlarmRule K) : Prop := e.rules pid = some r ∧ e.suppressedPoints pid = false

/-- The sample completes the on-delay of its point. -/
structure Due (e : AlarmEngine K) (pid : UInt32) (value : K) (nowMono : Int) (r : AlarmRule K) : Prop where
  watches : e.Watches pid r
  on : r.inOnSide value = true
  elapsed : ((e.seen pid value).awaitOn nowMono).onElapsed r nowMono = true

inductive Evaluated (e : AlarmEngine K) (pid : UInt32) (value : K) (nowMono : Int) (nowEpoch : Nat)
    (d : AlarmEngine K) (signals : List (AlarmSignal K)) : Prop where
  | ignored (unwatched : ∀ r, ¬e.Watches pid r) (same : d = e) (silent : signals = [])
  | waitsOn (r : AlarmRule K) (watches : e.Watches pid r) (on : r.inOnSide value = true)
      (moves : Moves e d pid ((e.seen pid value).awaitOn nowMono))
      (early : ((e.seen pid value).awaitOn nowMono).onElapsed r nowMono = false)
      (quiet : Quiet e d signals)
  | swallows (r : AlarmRule K) (due : e.Due pid value nowMono r)
      (window : (e.stateOf pid).suppressed r nowMono = true)
      (moves : Moves e d pid
        { (e.seen pid value).awaitOn nowMono with pendingOn := false, inAlarmBand := true })
      (quiet : Quiet e d signals)
  | raises (r : AlarmRule K) (due : e.Due pid value nowMono r)
      (window : (e.stateOf pid).suppressed r nowMono = false)
      (moves : Moves e d pid
        { (e.seen pid value).awaitOn nowMono with
          pendingOn := false, inAlarmBand := true, activeId := e.nextAlarmId, status := .active,
          lastRaiseMono := nowMono })
      (alarmIdSeq : d.alarmIdSeq = e.nextAlarmId)
      (queue : d.pendingStorm = if (e.isStormTriggered nowMono).stormActive = true ∧
        e.pendingStorm.length < maxPendingStorm then
          e.pendingStorm ++ [e.raisedEvent pid r value nowEpoch] else e.pendingStorm)
      (published : signals = if (e.isStormTriggered nowMono).stormActive = true ∧ r.level ≠ .critical
        then [] else publish (e.raisedEvent pid r value nowEpoch))
  | waitsOff (r : AlarmRule K) (watches : e.Watches pid r) (on : r.inOnSide value = false)
      (off : r.inOffSide value = true)
      (early : ((e.seen pid value).awaitOff nowMono).offElapsed r nowMono = false)
      (moves : Moves e d pid ((e.seen pid value).awaitOff nowMono)) (quiet : Quiet e d signals)
  | calms (r : AlarmRule K) (watches : e.Watches pid r) (on : r.inOnSide value = false)
      (off : r.inOffSide value = true)
      (elapsed : ((e.seen pid value).awaitOff nowMono).offElapsed r nowMono = true)
      (idle : (e.stateOf pid).alarming = false)
      (moves : Moves e d pid
        { (e.seen pid value).awaitOff nowMono with pendingOff := false, inAlarmBand := false })
      (quiet : Quiet e d signals)
  | recovers (r : AlarmRule K) (watches : e.Watches pid r) (on : r.inOnSide value = false)
      (off : r.inOffSide value = true)
      (elapsed : ((e.seen pid value).awaitOff nowMono).offElapsed r nowMono = true)
      (alarming : (e.stateOf pid).alarming = true)
      (moves : Moves e d pid ((e.seen pid value).awaitOff nowMono).recovered)
      (alarmIdSeq : d.alarmIdSeq = e.alarmIdSeq) (queue : d.pendingStorm = e.pendingStorm)
      (told : signals = [.alarmRecovered (e.stateOf pid).activeId])
  | between (r : AlarmRule K) (watches : e.Watches pid r) (on : r.inOnSide value = false)
      (off : r.inOffSide value = false)
      (moves : Moves e d pid { e.seen pid value with pendingOn := false, pendingOff := false })
      (quiet : Quiet e d signals)

end AlarmEngine

namespace PointAlarmState
variable {K : Type*} [Zero K] (st : PointAlarmState K) (nowMono : Int)

theorem awaitOn_frame :
    (st.awaitOn nowMono).inAlarmBand = st.inAlarmBand ∧ (st.awaitOn nowMono).status = st.status ∧
      (st.awaitOn nowMono).activeId = st.activeId ∧
      (st.awaitOn nowMono).lastRaiseMono = st.lastRaiseMono ∧
      (st.awaitOn nowMono).pendingOff = st.pendingOff ∧
      (st.awaitOn nowMono).offSinceMono = st.offSinceMono := by
  unfold awaitOn
  split <;> simp only [and_self]

theorem awaitOff_frame :
    (st.awaitOff nowMono).inAlarmBand = st.inAlarmBand ∧ (st.awaitOff nowMono).status = st.status ∧
      (st.awaitOff nowMono).activeId = st.activeId ∧
      (st.awaitOff nowMono).lastRaiseMono = st.lastRaiseMono ∧
      (st.awaitOff nowMono).pendingOn = st.pendingOn ∧
      (st.awaitOff nowMono).onSinceMono = st.onSinceMono := by
  unfold awaitOff
  split <;> simp only [and_self]

end PointAlarmState

namespace AlarmEngine
variable {K : Type*} [Zero K] {e : AlarmEngine K} {pid : UInt32} {st : PointAlarmState K} {nowMono : Int}

theorem moves_setState : Moves e (e.setState pid st) pid st :=
  ⟨rfl, rfl, rfl, rfl, stateOf_setState e pid st⟩

theorem moves_counted : Moves e ((e.isStormTriggered nowMono).setState pid st) pid st := by
  obtain ⟨rules, states, suppressedPoints, stormConfig, queue, timer, seq⟩ := e.isStormTriggered_frame nowMono
  refine ⟨rules, suppressedPoints, stormConfig, timer, ?_⟩
  have same : (e.isStormTriggered nowMono).stateOf = e.stateOf := by
    funext p
    rw [stateOf, states, stateOf]
  rw [stateOf_setState, same]

theorem Moves.own {d : AlarmEngine K} (moves : Moves e d pid st) : d.stateOf pid = st := by
  rw [moves.stateOf, Function.update_self]

/-- Setting a point twice is setting it once. -/
theorem Moves.setState {d : AlarmEngine K} {st' : PointAlarmState K} (moves : Moves e d pid st) :
    Moves e (d.setState pid st') pid st' := by
  refine ⟨moves.rules, moves.suppressedPoints, moves.stormConfig, moves.stormFlushTimer, ?_⟩
  rw [stateOf_setState, moves.stateOf, Function.update_idem]

theorem quiet_counted : Quiet e ((e.isStormTriggered nowMono).setState pid st) [] := by
  obtain ⟨rules, states, suppressedPoints, stormConfig, queue, timer, seq⟩ := e.isStormTriggered_frame nowMono
  exact ⟨seq, queue, rfl⟩

theorem quiet_setState : Quiet e (e.setState pid st) [] := ⟨rfl, rfl, rfl⟩

section Queue
variable {d : AlarmEngine K} (evt : AlarmEvent K)

theorem queueStorm_pendingStorm : (d.queueStorm evt).pendingStorm =
    if d.pendingStorm.length < maxPendingStorm then d.pendingStorm ++ [evt] else d.pendingStorm := by
  by_cases room : d.pendingStorm.length < maxPendingStorm
  · rw [queueStorm, if_neg (not_le.mpr room), if_pos room]
  · rw [queueStorm, if_pos (not_lt.mp room), if_neg room]

theorem queueStorm_alarmIdSeq : (d.queueStorm evt).alarmIdSeq = d.alarmIdSeq := by
  unfold queueStorm
  split <;> rfl

theorem Moves.queueStorm (moves : Moves e d pid st) : Moves e (d.queueStorm evt) pid st := by
  unfold AlarmEngine.queueStorm
  split
  · exact ⟨moves.rules, moves.suppressedPoints, moves.stormConfig, moves.stormFlushTimer, moves.stateOf⟩
  · exact ⟨moves.rules, moves.suppressedPoints, moves.stormConfig, moves.stormFlushTimer, moves.stateOf⟩

end Queue

theorem suppressed_awaitOn (r : AlarmRule K) (value : K) (m : Int) :
    ({ (e.seen pid value).awaitOn m with pendingOn := false, inAlarmBand := true } :
      PointAlarmState K).suppressed r nowMono = (e.stateOf pid).suppressed r nowMono := by
  have same : ((e.seen pid value).awaitOn m).lastRaiseMono = (e.stateOf pid).lastRaiseMono :=
    ((e.seen pid value).awaitOn_frame m).2.2.2.1
  simp only [PointAlarmState.suppressed, same]

theorem alarming_awaitOff (value : K) (m : Int) :
    ({ (e.seen pid value).awaitOff m with pendingOff := false, inAlarmBand := false } :
      PointAlarmState K).alarming = (e.stateOf pid).alarming := by
  have same : ((e.seen pid value).awaitOff m).status = (e.stateOf pid).status :=
    ((e.seen pid value).awaitOff_frame m).2.1
  simp only [PointAlarmState.alarming, same]

/-- A point that has just been stored is recovered or, when it is not alarming, left alone. -/
theorem recoverAlarm_setState : (e.setState pid st).recoverAlarm pid =
    if st.alarming then ((e.setState pid st).setState pid st.recovered, [.alarmRecovered st.activeId])
    else (e.setState pid st, []) := by
  have found : (e.setState pid st).states[pid]? = some st := by
    rw [getElem?_setState, if_pos rfl]
  simp only [recoverAlarm, found]

theorem recovered_not_mem_publish (id : Nat) (evt : AlarmEvent K) :
    AlarmSignal.alarmRecovered id ∉ publish evt := by
  unfold publish
  split <;> simp

theorem Watches.unique {r r' : AlarmRule K} (watches : e.Watches pid r) (other : e.Watches pid r') :
    r = r' :=
  Option.some.inj (watches.1.symm.trans other.1)

variable [ToString K]

/-- What a raise outside the window does to an engine that has just stored the point. -/
theorem raiseAlarm_open {d : AlarmEngine K} {r : AlarmRule K} (value : K) (nowEpoch : Nat)
    (moves : Moves e d pid st) (seq : d.alarmIdSeq = e.alarmIdSeq) (queue : d.pendingStorm = e.pendingStorm)
    (outside : st.suppressed r nowMono = false) :
    Moves e (d.raiseAlarm pid r value nowMono nowEpoch).1 pid
        { st with activeId := e.nextAlarmId, status := .active, lastRaiseMono := nowMono } ∧
      (d.raiseAlarm pid r value nowMono nowEpoch).1.alarmIdSeq = e.nextAlarmId ∧
      (d.raiseAlarm pid r value nowMono nowEpoch).1.pendingStorm =
        (if d.stormActive = true ∧ e.pendingStorm.length < maxPendingStorm then
          e.pendingStorm ++ [e.raisedEvent pid r value nowEpoch] else e.pendingStorm) ∧
      (d.raiseAlarm pid r value nowMono nowEpoch).2 =
        (if d.stormActive = true ∧ r.level ≠ .critical then []
          else publish (e.raisedEvent pid r value nowEpoch)) := by
  have own := moves.own
  have next : d.nextAlarmId = e.nextAlarmId := by rw [nextAlarmId, seq, nextAlarmId]
  have made : d.raisedEvent pid r value nowEpoch = e.raisedEvent pid r value nowEpoch := by
    simp only [raisedEvent, next]
  have numbered : Moves e { d with alarmIdSeq := d.nextAlarmId } pid st :=
    ⟨moves.rules, moves.suppressedPoints, moves.stormConfig, moves.stormFlushTimer, moves.stateOf⟩
  have raised : Moves e _ pid { st with activeId := e.nextAlarmId, status := .active, lastRaiseMono := nowMono } :=
    numbered.setState
  simp only [raiseAlarm, own, outside, Bool.false_eq_true, ↓reduceIte, setState_stormActive, made]
  by_cases storm : d.stormActive = true
  · rw [if_pos storm]
    refine ⟨raised.queueStorm _, (queueStorm_alarmIdSeq _).trans next, ?_, ?_⟩
    · rw [queueStorm_pendingStorm]
      simp only [setState_pendingStorm, queue, storm, true_and]
    · by_cases critical : r.level = .critical
      · simp [storm, critical]
      · simp [storm, critical]
  · rw [if_neg storm, if_neg (fun both => storm both.1), if_neg (fun both => storm both.1)]
    exact ⟨raised, next, queue, rfl⟩

theorem raiseAlarm_window {d : AlarmEngine K} {r : AlarmRule K} {value : K} {nowEpoch : Nat}
    (own : d.stateOf pid = st) (inside : st.suppressed r nowMono = true) :
    d.raiseAlarm pid r value nowMono nowEpoch = (d, []) := by
  simp only [raiseAlarm, own, inside, ↓reduceIte]

variable [LT K] [DecidableLT K]

/-- Every sample has one of the eight effects. -/
theorem evaluated (pid : UInt32) (value : K) (nowMono : Int) (nowEpoch : Nat) :
    Evaluated e pid value nowMono nowEpoch (e.evaluate pid value nowMono nowEpoch).1
      (e.evaluate pid value nowMono nowEpoch).2 := by
  unfold evaluate
  cases rule : e.rules pid with
  | none => exact .ignored (fun r watches => by simp [Watches, rule] at watches) rfl rfl
  | some r =>
    by_cases maintained : e.suppressedPoints pid = true
    · simp only [maintained, ↓reduceIte]
      exact .ignored (fun r watches => by simp [Watches, maintained] at watches) rfl rfl
    have watches : e.Watches pid r := ⟨rule, by simpa using maintained⟩
    simp only [maintained, Bool.false_eq_true, ↓reduceIte]
    by_cases on : r.inOnSide value = true
    · rw [if_pos on]
      by_cases elapsed : ((e.seen pid value).awaitOn nowMono).onElapsed r nowMono = true
      · rw [if_pos elapsed]
        by_cases window : (e.stateOf pid).suppressed r nowMono = true
        · rw [raiseAlarm_window moves_counted.own (by rw [suppressed_awaitOn, window])]
          exact .swallows r ⟨watches, on, elapsed⟩ window moves_counted quiet_counted
        · have outside : (e.stateOf pid).suppressed r nowMono = false := by simpa using window
          have after : ({ (e.seen pid value).awaitOn nowMono with pendingOn := false, inAlarmBand := true } :
              PointAlarmState K).suppressed r nowMono = false := by rw [suppressed_awaitOn, outside]
          obtain ⟨moves, seq, queue, told⟩ := raiseAlarm_open value nowEpoch moves_counted
            quiet_counted.alarmIdSeq quiet_counted.pendingStorm after
          exact .raises r ⟨watches, on, elapsed⟩ outside moves seq queue told
      · rw [if_neg elapsed]
        exact .waitsOn r watches on moves_counted (by simpa using elapsed) quiet_counted
    · rw [if_neg on]
      by_cases off : r.inOffSide value = true
      · rw [if_pos off]
        by_cases elapsed : ((e.seen pid value).awaitOff nowMono).offElapsed r nowMono = true
        · rw [if_pos elapsed, recoverAlarm_setState, alarming_awaitOff]
          by_cases alarming : (e.stateOf pid).alarming = true
          · rw [if_pos alarming]
            have left : ({ (e.seen pid value).awaitOff nowMono with pendingOff := false, inAlarmBand := false } :
                PointAlarmState K).recovered = ((e.seen pid value).awaitOff nowMono).recovered := rfl
            have id : ((e.seen pid value).awaitOff nowMono).activeId = (e.stateOf pid).activeId :=
              ((e.seen pid value).awaitOff_frame nowMono).2.2.1
            rw [left, id]
            exact .recovers r watches (by simpa using on) off elapsed alarming moves_setState.setState rfl rfl rfl
          · rw [if_neg alarming]
            exact .calms r watches (by simpa using on) off elapsed (by simpa using alarming) moves_setState
              quiet_setState
        · rw [if_neg elapsed]
          exact .waitsOff r watches (by simpa using on) off (by simpa using elapsed) moves_setState quiet_setState
      · rw [if_neg off]
        exact .between r watches (by simpa using on) (by simpa using off) moves_setState quiet_setState

/-- A completed delay is swallowed inside the window, and raised outside. -/
theorem Evaluated.due {value : K} {nowEpoch : Nat} {d : AlarmEngine K} {signals : List (AlarmSignal K)}
    {r : AlarmRule K} (effect : Evaluated e pid value nowMono nowEpoch d signals)
    (due : e.Due pid value nowMono r) :
    ((e.stateOf pid).suppressed r nowMono = true ∧
      Moves e d pid { (e.seen pid value).awaitOn nowMono with pendingOn := false, inAlarmBand := true } ∧
      Quiet e d signals) ∨
    ((e.stateOf pid).suppressed r nowMono = false ∧
      Moves e d pid { (e.seen pid value).awaitOn nowMono with
        pendingOn := false, inAlarmBand := true, activeId := e.nextAlarmId, status := .active,
        lastRaiseMono := nowMono } ∧
      d.alarmIdSeq = e.nextAlarmId ∧
      d.pendingStorm = (if (e.isStormTriggered nowMono).stormActive = true ∧
        e.pendingStorm.length < maxPendingStorm then
          e.pendingStorm ++ [e.raisedEvent pid r value nowEpoch] else e.pendingStorm)) := by
  cases effect with
  | swallows r' due' window moves quiet =>
    rw [due'.watches.unique due.watches] at window
    exact Or.inl ⟨window, moves, quiet⟩
  | raises r' due' window moves seq queue published =>
    rw [due'.watches.unique due.watches] at window queue
    exact Or.inr ⟨window, moves, seq, queue⟩
  | ignored unwatched => exact absurd due.watches (unwatched r)
  | waitsOn r' watches on moves early =>
    rw [watches.unique due.watches, due.elapsed] at early
    exact absurd early (by decide)
  | waitsOff r' watches off => simp [watches.unique due.watches, due.on] at off
  | calms r' watches off => simp [watches.unique due.watches, due.on] at off
  | recovers r' watches off => simp [watches.unique due.watches, due.on] at off
  | between r' watches off => simp [watches.unique due.watches, due.on] at off

end AlarmEngine

namespace AlarmEngine
variable {K : Type*} [Zero K] {e : AlarmEngine K}

section Reload
variable [BEq K]

/-- A reload drops the points without a rule and resets those whose rule was retuned. -/
theorem stateOf_doReloadRules (rules : List (AlarmRule K)) (p : UInt32) :
    (e.doReloadRules rules).1.stateOf p = match newRules rules p with
      | none => {}
      | some new =>
          if ((e.rules p).getD {}).retuned new then (e.stateOf p).reset else e.stateOf p := by
  simp only [doReloadRules, stateOf, Std.TreeMap.getElem?_filterMap', migrate]
  cases newRules rules p with
  | none => cases e.states[p]? <;> rfl
  | some new =>
    cases e.states[p]? with
    | none =>
      simp only [Option.bind_none, Option.getD_none]
      split <;> rfl
    | some st => rfl

end Reload

/-- An acknowledgement confirms at most one alarm, and that one was active. -/
theorem acknowledgeAlarm_cases (alarmId : Nat) (user : String) :
    (e.acknowledgeAlarm alarmId user).1 = e ∨ ∃ pid, (e.stateOf pid).status = .active ∧
      (e.stateOf pid).activeId = alarmId ∧
      (e.acknowledgeAlarm alarmId user).1 = e.setState pid { e.stateOf pid with status := .confirmed } := by
  unfold acknowledgeAlarm
  cases found : e.acknowledged alarmId with
  | none => exact Or.inl rfl
  | some x =>
    obtain ⟨pid, st⟩ := x
    have member := List.mem_of_find?_eq_some found
    rw [Std.TreeMap.mem_toList_iff_getElem?_eq_some] at member
    have own : e.stateOf pid = st := by rw [stateOf, member, Option.getD_some]
    have named := List.find?_some found
    rw [Bool.and_eq_true, beq_iff_eq, beq_iff_eq] at named
    exact Or.inr ⟨pid, own ▸ named.2, own ▸ named.1, by rw [own]⟩

/-- What one acknowledgement keeps, a list of them keeps. -/
theorem acknowledgeAlarms_keeps {I : AlarmEngine K → Prop} {user : String}
    (keeps : ∀ e id, I e → I (e.acknowledgeAlarm id user).1) (ids : List Nat) (holds : I e) :
    I (e.acknowledgeAlarms user ids).1 := by
  induction ids generalizing e with
  | nil => exact holds
  | cons id ids ih => exact ih (keeps e id holds)

theorem acknowledgeAlarm_frame (alarmId : Nat) (user : String) :
    (e.acknowledgeAlarm alarmId user).1.stormFlushTimer = e.stormFlushTimer ∧
      (e.acknowledgeAlarm alarmId user).1.pendingStorm = e.pendingStorm ∧
      (e.acknowledgeAlarm alarmId user).1.alarmIdSeq = e.alarmIdSeq ∧
      (e.acknowledgeAlarm alarmId user).1.rules = e.rules := by
  rcases acknowledgeAlarm_cases (e := e) alarmId user with same | ⟨pid, active, named, confirmed⟩
  · simp only [same, and_self]
  · simp only [confirmed, setState_stormFlushTimer, setState_pendingStorm, setState_alarmIdSeq,
      setState_rules, and_self]

theorem acknowledgeAlarms_frame (ids : List Nat) (user : String) :
    (e.acknowledgeAlarms user ids).1.stormFlushTimer = e.stormFlushTimer ∧
      (e.acknowledgeAlarms user ids).1.pendingStorm = e.pendingStorm ∧
      (e.acknowledgeAlarms user ids).1.alarmIdSeq = e.alarmIdSeq ∧
      (e.acknowledgeAlarms user ids).1.rules = e.rules := by
  apply acknowledgeAlarms_keeps (I := fun d => d.stormFlushTimer = e.stormFlushTimer ∧
    d.pendingStorm = e.pendingStorm ∧ d.alarmIdSeq = e.alarmIdSeq ∧ d.rules = e.rules)
  · intro d id holds
    obtain ⟨timer, queue, seq, rules⟩ := acknowledgeAlarm_frame (e := d) id user
    exact ⟨timer.trans holds.1, queue.trans holds.2.1, seq.trans holds.2.2.1, rules.trans holds.2.2.2⟩
  · simp only [and_self]

/-- Acknowledging says nothing but that it was asked to. -/
theorem acknowledgeAlarm_signals (alarmId : Nat) (user : String) :
    (e.acknowledgeAlarm alarmId user).2 = [.alarmAcknowledged alarmId user] := by
  unfold acknowledgeAlarm
  split <;> rfl

theorem acknowledgeAlarms_signals (ids : List Nat) (user : String) :
    (e.acknowledgeAlarms user ids).2 = ids.map (fun id => .alarmAcknowledged id user) := by
  induction ids generalizing e with
  | nil => rfl
  | cons id ids ih => simp only [acknowledgeAlarms, acknowledgeAlarm_signals, ih, List.map_cons,
      List.singleton_append]

/-- What a flush does: nothing, or the queue leaves as one batch, with which the storm may end. -/
theorem onStormFlush_cases (nowMono : Int) :
    (¬(e.stormActive = true ∧ e.pendingStorm ≠ []) ∧ e.onStormFlush nowMono = (e, [])) ∨
      (e.stormActive = true ∧ e.pendingStorm ≠ []) ∧ ∃ active rest, (rest = [] ∨ rest = [.alarmStormCleared]) ∧
        e.onStormFlush nowMono = ({ e with pendingStorm := [], stormDroppedCount := 0, stormActive := active },
          .alarmStormTriggered e.pendingStorm.length e.stormDroppedCount e.pendingStorm :: rest) := by
  by_cases served : e.stormActive = true ∧ e.pendingStorm ≠ []
  · refine Or.inr ⟨served, ?_⟩
    obtain ⟨storm, waiting⟩ := served
    have flush : e.onStormFlush nowMono = e.flushStormBatch nowMono := by
      simp [onStormFlush, storm, waiting]
    rw [flush, flushStormBatch]
    split
    · exact ⟨false, [.alarmStormCleared], Or.inr rfl, rfl⟩
    · exact ⟨e.stormActive, [], Or.inl rfl, rfl⟩
  · refine Or.inl ⟨served, ?_⟩
    unfold onStormFlush
    rcases not_and_or.mp served with calm | empty
    · simp [calm]
    · rw [not_not.mp empty]
      simp

/-- A property of every point that an acknowledgement of an active alarm keeps. -/
theorem every_acknowledgeAlarm {P : PointAlarmState K → Prop} (alarmId : Nat) (user : String)
    (confirms : ∀ st, P st → st.status = .active → P { st with status := .confirmed })
    (every : ∀ p, P (e.stateOf p)) (p : UInt32) :
    P ((e.acknowledgeAlarm alarmId user).1.stateOf p) := by
  rcases acknowledgeAlarm_cases (e := e) alarmId user with same | ⟨pid, active, named, confirmed⟩
  · rw [same]
    exact every p
  · rw [confirmed, stateOf_setState]
    by_cases own : p = pid
    · rw [own, Function.update_self]
      exact confirms _ (every pid) active
    · rw [Function.update_of_ne own]
      exact every p

/-- A property of every point across a sample that only moves one of them. -/
theorem Moves.every {d : AlarmEngine K} {pid : UInt32} {st : PointAlarmState K}
    {P : PointAlarmState K → Prop} (moves : Moves e d pid st) (own : P st) (every : ∀ p, P (e.stateOf p))
    (p : UInt32) : P (d.stateOf p) := by
  rw [moves.stateOf]
  by_cases same : p = pid
  · rw [same, Function.update_self]
    exact own
  · rw [Function.update_of_ne same]
    exact every p

variable [LT K] [DecidableLT K] [BEq K] [ToString K]

/-- The inputs under which only a sample and a reload can do more than confirm an alarm:
a property of every point holds after a step when these two keep it. -/
theorem every_step {P : PointAlarmState K → Prop} (input : AlarmInput K)
    (confirms : ∀ st, P st → st.status = .active → P { st with status := .confirmed })
    (fresh : P {}) (resets : ∀ st, P st → P st.reset) (every : ∀ p, P (e.stateOf p))
    (samples : ∀ pid value nowMono nowEpoch, input = .dataUpdated pid value nowMono nowEpoch →
      ∀ p, P ((e.evaluate pid value nowMono nowEpoch).1.stateOf p)) (p : UInt32) :
    P ((e.step input).1.stateOf p) := by
  cases input with
  | dataUpdated pid value nowMono nowEpoch => exact samples pid value nowMono nowEpoch rfl p
  | reloadRules rules =>
    simp only [step, stateOf_doReloadRules]
    cases newRules rules p with
    | none => exact fresh
    | some new =>
      simp only
      split
      · exact resets _ (every p)
      · exact every p
  | suppressPoint pointId expireTimeEpoch nowEpoch => exact every p
  | unsuppressPoint pointId => exact every p
  | setStormConfig cfg => exact every p
  | acknowledgeAlarm alarmId user => exact every_acknowledgeAlarm alarmId user confirms every p
  | acknowledgeAlarms ids user =>
    exact acknowledgeAlarms_keeps (I := fun d => ∀ p, P (d.stateOf p))
      (fun d id holds => every_acknowledgeAlarm id user confirms holds) ids every p
  | stormFlush nowMono =>
    rcases onStormFlush_cases (e := e) nowMono with ⟨-, same⟩ | ⟨-, active, rest, -, same⟩
    all_goals
      rw [step, same]
      exact every p

end AlarmEngine
end EnerSentry.Business
