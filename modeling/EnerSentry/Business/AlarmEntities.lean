import Mathlib.Algebra.Ring.Int.Defs

/-!
The plain data of the alarm engine. Measured values and thresholds are of a type `K`
that only offers what the code asks of `float`: a zero, the two comparisons and a
printed form.
-/

namespace EnerSentry.Business

inductive AlarmLevel where
  | info | warning | critical
  deriving DecidableEq, Repr

inductive AlarmStatus where
  | active | confirmed | recovered
  deriving DecidableEq, Repr

inductive AlarmDirection where
  | high | low
  deriving DecidableEq, Repr

structure AlarmRule (K : Type*) [Zero K] where
  pointId : UInt32 := 0
  level : AlarmLevel := .warning
  direction : AlarmDirection := .high
  onThreshold : K := 0
  offThreshold : K := 0
  enabled : Bool := true
  onDelayMs : UInt32 := 3000
  offDelayMs : UInt32 := 3000
  suppressWindowMs : UInt32 := 60000
  deriving DecidableEq, Repr

structure AlarmStormConfig where
  windowMs : UInt32 := 1000
  threshold : UInt32 := 200
  flushIntervalMs : UInt32 := 200
  deriving DecidableEq, Repr

inductive AlarmRecoveryReason where
  | normal | ruleRemoved | manual | linkDown
  deriving DecidableEq, Repr

structure AlarmEvent (K : Type*) [Zero K] where
  id : Nat := 0
  pointId : UInt32 := 0
  level : AlarmLevel := .warning
  status : AlarmStatus := .active
  triggerTime : Nat := 0
  recoverTime : Nat := 0
  alarmValue : K := 0
  threshold : K := 0
  description : String := ""
  blackboxId : Nat := 0
  recoveryReason : AlarmRecoveryReason := .normal
  deriving DecidableEq, Repr

structure PointAlarmState (K : Type*) [Zero K] where
  pointId : UInt32 := 0
  inAlarmBand : Bool := false
  lastRaw : K := 0
  lastRaiseMono : Int := 0
  pendingOn : Bool := false
  onSinceMono : Int := 0
  pendingOff : Bool := false
  offSinceMono : Int := 0
  status : AlarmStatus := .recovered
  activeId : Nat := 0
  deriving DecidableEq, Repr

end EnerSentry.Business
