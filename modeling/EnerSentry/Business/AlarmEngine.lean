import Std.Data.TreeMap.Lemmas
import Mathlib.Logic.Function.Basic
import EnerSentry.Lib.Runs
import EnerSentry.Lib.Timer
import EnerSentry.Business.AlarmEntities

/-!
The alarm engine: hysteresis with on and off delays, de-duplication, storm batching,
rule reloads and acknowledgements. Everything runs in the alarm thread, one call after
the other; the two clocks are read once in a call and are part of its event. Point
states are iterated in key order where the source leaves the order open.
-/

namespace EnerSentry.Business
open EnerSentry.Lib

inductive AlarmSignal (K : Type*) [Zero K] where
  | alarmTriggered (evt : AlarmEvent K)
  | alarmRecovered (alarmId : Nat)
  | alarmAcknowledged (alarmId : Nat) (user : String)
  | blackBoxRequested (pointId : UInt32) (alarmTimeEpoch : Nat) (level : AlarmLevel)
  | alarmStormTriggered (totalCount droppedCount : Nat) (samples : List (AlarmEvent K))
  | alarmStormCleared
  deriving DecidableEq, Repr

def maxPendingStorm : Nat := 2000

def alarmTimeRingSize : Nat := 128

structure AlarmEngine (K : Type*) [Zero K] where
  rules : UInt32 → Option (AlarmRule K) := fun _ => none
  states : Std.TreeMap UInt32 (PointAlarmState K) := ∅
  suppressedPoints : UInt32 → Bool := fun _ => false
  stormConfig : AlarmStormConfig := {}
  alarmTimeRing : Nat → Int := fun _ => 0
  ringHead : Nat := 0
  ringCount : Nat := 0
  pendingStorm : List (AlarmEvent K) := []
  stormDroppedCount : Nat := 0
  stormActive : Bool := false
  stormFlushTimer : Timer := { singleShot := false, intervalMs := 200 }
  alarmIdSeq : Nat := 0

/-- Calls and timer expiries in the alarm thread. -/
inductive AlarmInput (K : Type*) [Zero K] where
  | dataUpdated (pointId : UInt32) (value : K) (nowMono : Int) (nowEpoch : Nat)
  | reloadRules (rules : List (AlarmRule K))
  | suppressPoint (pointId : UInt32) (expireTimeEpoch nowEpoch : Nat)
  | unsuppressPoint (pointId : UInt32)
  | setStormConfig (cfg : AlarmStormConfig)
  | acknowledgeAlarm (alarmId : Nat) (user : String)
  | acknowledgeAlarms (ids : List Nat) (user : String)
  | stormFlush (nowMono : Int)

section Point
variable {K : Type*} [Zero K]

namespace AlarmRule
variable [LT K] [DecidableLT K] [BEq K]

def inOnSide (r : AlarmRule K) (value : K) : Bool :=
  match r.direction with
  | .low => value < r.onThreshold
  | .high => r.onThreshold < value

def inOffSide (r : AlarmRule K) (value : K) : Bool :=
  match r.direction with
  | .low => r.offThreshold < value
  | .high => value < r.offThreshold

/-- The change of a rule that a reload reacts to. -/
def retuned (old new : AlarmRule K) : Bool :=
  old.onThreshold != new.onThreshold || old.offThreshold != new.offThreshold ||
    old.level != new.level

end AlarmRule

namespace PointAlarmState

def alarming (st : PointAlarmState K) : Bool := st.status == .active || st.status == .confirmed

/-- A point beyond its limit that is not alarming becomes a candidate. -/
def awaitOn (st : PointAlarmState K) (nowMono : Int) : PointAlarmState K :=
  if !st.pendingOn && !st.inAlarmBand then { st with pendingOn := true, onSinceMono := nowMono } else st

/-- An alarming point that is back on the other side becomes a candidate for recovery. -/
def awaitOff (st : PointAlarmState K) (nowMono : Int) : PointAlarmState K :=
  if st.inAlarmBand && !st.pendingOff then { st with pendingOff := true, offSinceMono := nowMono } else st

def onElapsed (st : PointAlarmState K) (r : AlarmRule K) (nowMono : Int) : Bool :=
  st.pendingOn && (r.onDelayMs.toNat : Int) ≤ nowMono - st.onSinceMono

def offElapsed (st : PointAlarmState K) (r : AlarmRule K) (nowMono : Int) : Bool :=
  st.pendingOff && (r.offDelayMs.toNat : Int) ≤ nowMono - st.offSinceMono

/-- Whether a raise now would fall into the window after the last one. -/
def suppressed (st : PointAlarmState K) (r : AlarmRule K) (nowMono : Int) : Bool :=
  0 < r.suppressWindowMs && nowMono - st.lastRaiseMono < (r.suppressWindowMs.toNat : Int)

def recovered (st : PointAlarmState K) : PointAlarmState K :=
  { st with status := .recovered, activeId := 0, inAlarmBand := false, pendingOn := false, pendingOff := false }

/-- What a reload leaves of a state whose rule was retuned. -/
def reset (st : PointAlarmState K) : PointAlarmState K :=
  { st with pendingOn := false, pendingOff := false, onSinceMono := 0, offSinceMono := 0, lastRaiseMono := 0 }

end PointAlarmState
end Point

namespace AlarmEngine
variable {K : Type*} [Zero K]

/-- A point's state, default-made at first sight. -/
def stateOf (e : AlarmEngine K) (pid : UInt32) : PointAlarmState K := e.states[pid]?.getD {}

def setState (e : AlarmEngine K) (pid : UInt32) (st : PointAlarmState K) : AlarmEngine K :=
  { e with states := e.states.insert pid st }

/-- The point's state once a sample of it has been noted. -/
def seen (e : AlarmEngine K) (pid : UInt32) (value : K) : PointAlarmState K :=
  { e.stateOf pid with pointId := pid, lastRaw := value }

def nextAlarmId (e : AlarmEngine K) : Nat := e.alarmIdSeq + 1

section Rules
variable [BEq K]

/-- The enabled rules by point, a later one replacing an earlier one. -/
def newRules (rules : List (AlarmRule K)) : UInt32 → Option (AlarmRule K) :=
  rules.foldl (fun found r => if r.enabled then Function.update found r.pointId (some r) else found)
    (fun _ => none)

/-- What becomes of one point's state; `none` when its rule is gone. -/
def migrate (e : AlarmEngine K) (fresh : UInt32 → Option (AlarmRule K)) (pid : UInt32)
    (st : PointAlarmState K) : Option (PointAlarmState K) :=
  match fresh pid with
  | none => none
  | some new => some (if ((e.rules pid).getD {}).retuned new then st.reset else st)

/-- The alarms whose rule is gone are recovered by force. -/
def orphans (e : AlarmEngine K) (fresh : UInt32 → Option (AlarmRule K)) : List Nat :=
  e.states.toList.filterMap (fun x =>
    if (fresh x.1).isNone && x.2.alarming then some x.2.activeId else none)

def doReloadRules (e : AlarmEngine K) (rules : List (AlarmRule K)) :
    AlarmEngine K × List (AlarmSignal K) :=
  let fresh := newRules rules
  ({ e with states := e.states.filterMap (e.migrate fresh), rules := fresh },
    (e.orphans fresh).map .alarmRecovered)

end Rules

def doSuppressPoint (e : AlarmEngine K) (pointId : UInt32) (expireTimeEpoch nowEpoch : Nat) :
    AlarmEngine K :=
  { e with suppressedPoints := Function.update e.suppressedPoints pointId (nowEpoch < expireTimeEpoch) }

def doUnsuppressPoint (e : AlarmEngine K) (pointId : UInt32) : AlarmEngine K :=
  { e with suppressedPoints := Function.update e.suppressedPoints pointId false }

def doSetStormConfig (e : AlarmEngine K) (cfg : AlarmStormConfig) : AlarmEngine K :=
  { e with
    stormConfig := cfg
    stormFlushTimer := e.stormFlushTimer.setInterval cfg.flushIntervalMs.toInt32.toInt }

/-- The time stamps of the ring that lie in the storm window. -/
def countInWindow (e : AlarmEngine K) (nowMono : Int) : Nat :=
  (List.range e.ringCount).countP
    (fun i => nowMono - e.alarmTimeRing i ≤ (e.stormConfig.windowMs.toNat : Int))

/-- The time stamp of one excursion goes into the ring, over the oldest one when it is full. -/
def pushAlarmTime (e : AlarmEngine K) (nowMono : Int) : AlarmEngine K :=
  if e.ringCount < alarmTimeRingSize then
    { e with
      alarmTimeRing :=
        Function.update e.alarmTimeRing ((e.ringHead + e.ringCount) % alarmTimeRingSize) nowMono
      ringCount := e.ringCount + 1 }
  else
    { e with
      alarmTimeRing := Function.update e.alarmTimeRing e.ringHead nowMono
      ringHead := (e.ringHead + 1) % alarmTimeRingSize }

def isStormTriggered (e : AlarmEngine K) (nowMono : Int) : AlarmEngine K :=
  if e.stormConfig.windowMs = 0 then e
  else
    let e := e.pushAlarmTime nowMono
    { e with stormActive := e.stormConfig.threshold.toNat < e.countInWindow nowMono }

section Evaluate
variable [ToString K]

def raisedEvent (e : AlarmEngine K) (pid : UInt32) (r : AlarmRule K) (value : K) (nowEpoch : Nat) :
    AlarmEvent K :=
  { id := e.nextAlarmId
    pointId := pid
    level := r.level
    status := .active
    triggerTime := nowEpoch
    alarmValue := value
    threshold := r.onThreshold
    description := "point=" ++ toString pid ++ " value=" ++ toString value ++ " threshold=" ++
      toString r.onThreshold }

/-- The signals that publish one alarm at once. -/
def publish (evt : AlarmEvent K) : List (AlarmSignal K) :=
  .alarmTriggered evt ::
    (if evt.level = .critical then [.blackBoxRequested evt.pointId evt.triggerTime evt.level] else [])

def queueStorm (e : AlarmEngine K) (evt : AlarmEvent K) : AlarmEngine K :=
  if maxPendingStorm ≤ e.pendingStorm.length then { e with stormDroppedCount := e.stormDroppedCount + 1 }
  else { e with pendingStorm := e.pendingStorm ++ [evt] }

def raiseAlarm (e : AlarmEngine K) (pid : UInt32) (r : AlarmRule K) (value : K) (nowMono : Int)
    (nowEpoch : Nat) : AlarmEngine K × List (AlarmSignal K) :=
  let st := e.stateOf pid
  if st.suppressed r nowMono then (e, [])
  else
    let evt := e.raisedEvent pid r value nowEpoch
    let raised := { e with alarmIdSeq := e.nextAlarmId }.setState pid
      { st with activeId := evt.id, status := .active, lastRaiseMono := nowMono }
    if raised.stormActive then
      (raised.queueStorm evt, if r.level = .critical then publish evt else [])
    else (raised, publish evt)

/-- Nothing happens to a point that is not alarming. -/
def recoverAlarm (e : AlarmEngine K) (pid : UInt32) : AlarmEngine K × List (AlarmSignal K) :=
  match e.states[pid]? with
  | none => (e, [])
  | some st =>
      if st.alarming then (e.setState pid st.recovered, [.alarmRecovered st.activeId]) else (e, [])

variable [LT K] [DecidableLT K]

def evaluate (e : AlarmEngine K) (pid : UInt32) (value : K) (nowMono : Int) (nowEpoch : Nat) :
    AlarmEngine K × List (AlarmSignal K) :=
  match e.rules pid with
  | none => (e, [])
  | some r =>
      if e.suppressedPoints pid then (e, [])
      else
        let st := e.seen pid value
        if r.inOnSide value then
          let e := e.isStormTriggered nowMono
          let st := st.awaitOn nowMono
          if st.onElapsed r nowMono then
            (e.setState pid { st with pendingOn := false, inAlarmBand := true }).raiseAlarm pid r value
              nowMono nowEpoch
          else (e.setState pid st, [])
        else if r.inOffSide value then
          let st := st.awaitOff nowMono
          if st.offElapsed r nowMono then
            (e.setState pid { st with pendingOff := false, inAlarmBand := false }).recoverAlarm pid
          else (e.setState pid st, [])
        else (e.setState pid { st with pendingOn := false, pendingOff := false }, [])

end Evaluate

/-- The batch leaves as a whole, and the storm ends when the window has calmed down. -/
def flushStormBatch (e : AlarmEngine K) (nowMono : Int) : AlarmEngine K × List (AlarmSignal K) :=
  let flushed := { e with pendingStorm := [], stormDroppedCount := 0 }
  let batch := .alarmStormTriggered e.pendingStorm.length e.stormDroppedCount e.pendingStorm
  if e.countInWindow nowMono ≤ e.stormConfig.threshold.toNat then
    ({ flushed with stormActive := false }, [batch, .alarmStormCleared])
  else (flushed, [batch])

def onStormFlush (e : AlarmEngine K) (nowMono : Int) : AlarmEngine K × List (AlarmSignal K) :=
  if !e.stormActive then (e, [])
  else if e.pendingStorm.isEmpty then (e, [])
  else e.flushStormBatch nowMono

/-- The point whose active alarm an acknowledgement names. -/
def acknowledged (e : AlarmEngine K) (alarmId : Nat) : Option (UInt32 × PointAlarmState K) :=
  e.states.toList.find? (fun x => x.2.activeId == alarmId && x.2.status == .active)

/-- An unknown id is answered all the same. -/
def acknowledgeAlarm (e : AlarmEngine K) (alarmId : Nat) (user : String) :
    AlarmEngine K × List (AlarmSignal K) :=
  match e.acknowledged alarmId with
  | some (pid, st) => (e.setState pid { st with status := .confirmed }, [.alarmAcknowledged alarmId user])
  | none => (e, [.alarmAcknowledged alarmId user])

def acknowledgeAlarms (e : AlarmEngine K) (user : String) :
    List Nat → AlarmEngine K × List (AlarmSignal K)
  | [] => (e, [])
  | id :: ids =>
      let first := e.acknowledgeAlarm id user
      let rest := first.1.acknowledgeAlarms user ids
      (rest.1, first.2 ++ rest.2)

def activeAlarmCount (e : AlarmEngine K) : Nat := e.states.toList.countP (fun x => x.2.alarming)

def isPointInAlarm (e : AlarmEngine K) (pointId : UInt32) : Bool :=
  match e.states[pointId]? with
  | none => false
  | some st => st.inAlarmBand

variable [LT K] [DecidableLT K] [BEq K] [ToString K]

def step : Runs.Step (AlarmEngine K) (AlarmInput K) (AlarmSignal K) := fun e input =>
  match input with
  | .dataUpdated pointId value nowMono nowEpoch => e.evaluate pointId value nowMono nowEpoch
  | .reloadRules rules => e.doReloadRules rules
  | .suppressPoint pointId expireTimeEpoch nowEpoch =>
      (e.doSuppressPoint pointId expireTimeEpoch nowEpoch, [])
  | .unsuppressPoint pointId => (e.doUnsuppressPoint pointId, [])
  | .setStormConfig cfg => (e.doSetStormConfig cfg, [])
  | .acknowledgeAlarm alarmId user => e.acknowledgeAlarm alarmId user
  | .acknowledgeAlarms ids user => e.acknowledgeAlarms user ids
  | .stormFlush nowMono => e.onStormFlush nowMono

end AlarmEngine
end EnerSentry.Business
