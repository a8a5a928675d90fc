import Mathlib.Algebra.Group.Int.Defs
import Mathlib.Algebra.Group.Nat.Defs
import Mathlib.Logic.Function.Basic

/-!
The poll scheduler: three queues for each link, served by priority with two counters that
keep the lower classes from starving, and a circuit breaker for each registered slave.
-/

namespace EnerSentry.Protocol

inductive PollPriority where
  | high | normal | low
  deriving DecidableEq, Repr

structure PollTask where
  slaveId : UInt8 := 0
  linkId : UInt8 := 0
  priority : PollPriority := .normal
  intervalMs : UInt32 := 1000
  isControlCommand : Bool := false
  registerAddr : UInt16 := 0
  registerQty : UInt16 := 0
  deriving DecidableEq, Repr

namespace PollTask

def isValid (t : PollTask) : Bool := t.slaveId != 0 || t.isControlCommand

def controlWrite (sid lid : UInt8) : PollTask :=
  { slaveId := sid, linkId := lid, priority := .high, isControlCommand := true }

def normal (sid lid : UInt8) (intervalMs : UInt32) : PollTask :=
  { slaveId := sid, linkId := lid, priority := .normal, intervalMs := intervalMs }

def low (sid lid : UInt8) (intervalMs : UInt32) : PollTask :=
  { slaveId := sid, linkId := lid, priority := .low, intervalMs := intervalMs }

end PollTask

structure LinkParams where
  maxConsecutivePreempt : Int := 5
  maxConsecutiveSboBurst : Int := 10
  isHalfDuplex : Bool := true
  deriving DecidableEq, Repr

inductive SlaveHealth where
  | healthy | degraded | isolated | probing
  deriving DecidableEq, Repr

/-- A result as an `int` of 32 bits. The source leaves an overflow undefined; here the number wraps. -/
def wrap32 (x : Int) : Int := x.bmod (2 ^ 32)

/-- A result as an integer of 64 bits. -/
def wrap64 (x : Int) : Int := x.bmod (2 ^ 64)

theorem wrap32_of_fits {x : Int} (low : -2 ^ 31 ≤ x) (high : x < 2 ^ 31) : wrap32 x = x :=
  Int.bmod_eq_of_le (by omega) (by omega)

/-- A count that wraps still counts the same. -/
theorem wrap32_succ (n : Int) : wrap32 (wrap32 n + 1) = wrap32 (n + 1) := Int.bmod_add_bmod

theorem wrap64_of_fits {x : Int} (low : -2 ^ 63 ≤ x) (high : x < 2 ^ 63) : wrap64 x = x :=
  Int.bmod_eq_of_le (by omega) (by omega)

structure SlavePollState where
  consecutiveFailures : Int := 0
  consecutiveSuccesses : Int := 0
  health : SlaveHealth := .healthy
  lastProbeTimeMs : Int := 0
  lastResponseTimeMs : Int := 0
  originalIntervalMs : Int := 1000
  currentIntervalMs : Int := 1000
  linkId : UInt8 := 0
  deriving DecidableEq, Repr

structure LinkState where
  highPriorityQueue : List PollTask := []
  normalQueue : List PollTask := []
  lowPriorityQueue : List PollTask := []
  consecutivePreemptCount : Int := 0
  consecutiveSboCount : Int := 0
  busy : Bool := false
  params : LinkParams := {}
  deriving DecidableEq, Repr

inductive SchedulerSignal where
  | slaveDegraded (slaveId : UInt8) (consecutiveFailures : Int)
  | slaveIsolated (slaveId : UInt8) (consecutiveFailures : Int)
  | slaveRecovered (slaveId : UInt8)
  | slaveProbing (slaveId : UInt8)
  deriving DecidableEq, Repr

structure PollScheduler where
  links : UInt8 → Option LinkState := fun _ => none
  slaveStates : UInt8 → Option SlavePollState := fun _ => none
  timeoutCount : Nat := 0
  successCount : Nat := 0
  degradedCount : Nat := 0
  isolatedCount : Nat := 0

namespace LinkState

def enqueue (link : LinkState) (task : PollTask) : LinkState :=
  if task.isControlCommand then { link with highPriorityQueue := task :: link.highPriorityQueue }
  else if task.priority = .normal then { link with normalQueue := link.normalQueue ++ [task] }
  else { link with lowPriorityQueue := link.lowPriorityQueue ++ [task] }

/-- The selection: control tasks unless a burst of them has used up its share, then a low
task that has waited long enough, then normal tasks, then low ones. -/
def dequeueNext (link : LinkState) : LinkState × PollTask :=
  if link.params.isHalfDuplex && link.busy then (link, {})
  else
    match link.highPriorityQueue, link.normalQueue, link.lowPriorityQueue with
    | control :: high, normal, _ =>
        match decide (link.params.maxConsecutiveSboBurst ≤ link.consecutiveSboCount), normal with
        | true, task :: normal =>
            ({ link with
                normalQueue := normal
                consecutiveSboCount := 0
                consecutivePreemptCount := 0
                busy := true }, task)
        | _, _ =>
            ({ link with
                highPriorityQueue := high
                consecutiveSboCount := link.consecutiveSboCount + 1
                consecutivePreemptCount := link.consecutivePreemptCount + 1
                busy := true }, control)
    | [], normal, low =>
        match decide (link.params.maxConsecutivePreempt ≤ link.consecutivePreemptCount), normal, low with
        | true, _, task :: low =>
            ({ link with lowPriorityQueue := low, consecutivePreemptCount := 0, busy := true }, task)
        | _, task :: normal, _ =>
            ({ link with
                normalQueue := normal
                consecutivePreemptCount := link.consecutivePreemptCount + 1
                busy := true }, task)
        | _, [], task :: low =>
            ({ link with lowPriorityQueue := low, consecutivePreemptCount := 0, busy := true }, task)
        | _, [], [] => (link, {})

end LinkState

namespace SlavePollState

def succeeded (s : SlavePollState) (nowMs : Int) : SlavePollState :=
  let counted :=
    { s with
      consecutiveFailures := 0
      consecutiveSuccesses := wrap32 (s.consecutiveSuccesses + 1)
      lastResponseTimeMs := nowMs }
  if s.health = .healthy then counted
  else { counted with health := .healthy, currentIntervalMs := s.originalIntervalMs }

def failed (s : SlavePollState) (nowMs : Int) : SlavePollState :=
  let counted :=
    { s with consecutiveSuccesses := 0, consecutiveFailures := wrap32 (s.consecutiveFailures + 1) }
  if 3 ≤ counted.consecutiveFailures ∧ counted.consecutiveFailures < 8 then
    if s.health = .healthy then
      { counted with health := .degraded, currentIntervalMs := wrap32 (s.originalIntervalMs * 3) }
    else counted
  else if 8 ≤ counted.consecutiveFailures then
    { counted with health := .isolated, currentIntervalMs := 30000, lastProbeTimeMs := nowMs }
  else counted

end SlavePollState

namespace PollScheduler

def setLinkParams (s : PollScheduler) (linkId : UInt8) (p : LinkParams) : PollScheduler :=
  { s with links := Function.update s.links linkId (some { (s.links linkId).getD {} with params := p }) }

def registerSlave (s : PollScheduler) (slaveId linkId : UInt8) (originalIntervalMs nowMs : Int) :
    PollScheduler :=
  let registered : SlavePollState :=
    { linkId := linkId
      originalIntervalMs := originalIntervalMs
      currentIntervalMs := originalIntervalMs
      lastProbeTimeMs := nowMs }
  { s with slaveStates := Function.update s.slaveStates slaveId (some registered) }

def unregisterSlave (s : PollScheduler) (slaveId : UInt8) : PollScheduler :=
  { s with slaveStates := Function.update s.slaveStates slaveId none }

/-- A link that is not known yet is entered with its defaults. -/
def enqueue (s : PollScheduler) (task : PollTask) : PollScheduler :=
  let link := (s.links task.linkId).getD {}
  { s with links := Function.update s.links task.linkId (some (link.enqueue task)) }

def dequeueNext (s : PollScheduler) (linkId : UInt8) : PollScheduler × PollTask :=
  match s.links linkId with
  | none => (s, {})
  | some link =>
      let (link, task) := link.dequeueNext
      ({ s with links := Function.update s.links linkId (some link) }, task)

def onLinkFree (s : PollScheduler) (linkId : UInt8) : PollScheduler :=
  match s.links linkId with
  | none => s
  | some link => { s with links := Function.update s.links linkId (some { link with busy := false }) }

/-- The outcome of one poll. A probe that fails leaves the slave isolated without a second
report. -/
def onResponseReceived (s : PollScheduler) (slaveId : UInt8) (success : Bool) (nowMs : Int) :
    PollScheduler × List SchedulerSignal :=
  match s.slaveStates slaveId with
  | none => (s, [])
  | some before =>
      if success then
        let after := before.succeeded nowMs
        ({ s with
            successCount := s.successCount + 1
            slaveStates := Function.update s.slaveStates slaveId (some after) },
          if before.health = .healthy then [] else [.slaveRecovered slaveId])
      else
        let after := before.failed nowMs
        let degraded := before.health = .healthy ∧ after.health = .degraded
        let isolated := before.health ≠ .isolated ∧ before.health ≠ .probing ∧ after.health = .isolated
        ({ s with
            timeoutCount := s.timeoutCount + 1
            degradedCount := if degraded then s.degradedCount + 1 else s.degradedCount
            isolatedCount := if isolated then s.isolatedCount + 1 else s.isolatedCount
            slaveStates := Function.update s.slaveStates slaveId (some after) },
          if degraded then [.slaveDegraded slaveId after.consecutiveFailures]
          else if isolated then [.slaveIsolated slaveId after.consecutiveFailures]
          else [])

def enterProbingIfDue (s : PollScheduler) (slaveId : UInt8) (nowMs : Int) :
    PollScheduler × List SchedulerSignal :=
  match s.slaveStates slaveId with
  | none => (s, [])
  | some before =>
      if before.health = .isolated ∧ 30000 ≤ wrap64 (nowMs - before.lastProbeTimeMs) then
        let probing := { before with health := .probing, lastProbeTimeMs := nowMs }
        ({ s with slaveStates := Function.update s.slaveStates slaveId (some probing) },
          [.slaveProbing slaveId])
      else (s, [])

def healthOf (s : PollScheduler) (slaveId : UInt8) : SlaveHealth :=
  match s.slaveStates slaveId with
  | some state => state.health
  | none => .healthy

def getNextPollDelayMs (s : PollScheduler) (slaveId : UInt8) (nowMs : Int) : Int :=
  match s.slaveStates slaveId with
  | none => 0
  | some state =>
      match state.health with
      | .isolated => max 0 (wrap64 (30000 - wrap64 (nowMs - state.lastProbeTimeMs)))
      | .probing => 0
      | .degraded => state.currentIntervalMs
      | .healthy => state.currentIntervalMs

def isLinkBusy (s : PollScheduler) (linkId : UInt8) : Bool :=
  match s.links linkId with
  | some link => link.busy
  | none => false

end PollScheduler
end EnerSentry.Protocol
