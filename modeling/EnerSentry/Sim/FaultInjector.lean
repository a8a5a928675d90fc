import Std.Data.TreeMap.Lemmas
import Mathlib.Algebra.Ring.Int.Defs
import EnerSentry.Lib.Runs

/-!
The fault injector of the device simulator: fault sessions with their own state machine,
and the override table that is rebuilt from the live ones. The steady clock is read in
several places of one call; each reading is part of the call's input. Values are of any
type with the arithmetic the recovery ramp uses.
-/

namespace EnerSentry.Sim

inductive FaultType where
  | overTemp
  | cellVoltage
  | commLoss
  | crcError
  | timeout
  deriving DecidableEq, Repr

inductive Scope where
  | all
  | slave
  | point
  deriving DecidableEq, Repr

inductive FaultState where
  | idle
  | active
  | recovering
  | aborted
  deriving DecidableEq, Repr

variable {K : Type*} [Zero K]

structure FaultOverride (K : Type*) [Zero K] where
  type : FaultType := .overTemp
  scope : Scope := .point
  slave : UInt8 := 0
  reg : UInt16 := 0
  targetValue : K := 0
  rampRate : K := 0
  recoverValue : K := 0
  corruptMs : Int32 := 0
  durationMs : Int32 := 0
  deriving DecidableEq

structure FaultEffect (K : Type*) [Zero K] where
  active : Bool := false
  value : K := 0
  corruptCrc : Bool := false
  corruptByte : Bool := false
  dropLink : Bool := false
  delayMs : Int32 := 0
  type : FaultType := .overTemp
  deriving DecidableEq

abbrev FaultHandle := UInt32

def invalidFaultHandle : FaultHandle := 0

namespace OverrideTable

structure Entry (K : Type*) where
  value : K
  type : FaultType
  dropLink : Bool
  corruptCrc : Bool
  corruptByte : Bool
  delayMs : Int32
  deriving DecidableEq

end OverrideTable

abbrev OverrideTable (K : Type*) := Std.TreeMap UInt32 (OverrideTable.Entry K)

namespace OverrideTable

def keyOf (slave : UInt8) (reg : UInt16) : UInt32 := (slave.toUInt32 <<< 16) ||| reg.toUInt32

def allKey : UInt32 := 0xFFFFFFFF

def Entry.toEffect (e : Entry K) : FaultEffect K :=
  { active := true, value := e.value, corruptCrc := e.corruptCrc, corruptByte := e.corruptByte,
    dropLink := e.dropLink, delayMs := e.delayMs, type := e.type }

def resolve (table : OverrideTable K) (slave : UInt8) (reg : UInt16) : FaultEffect K :=
  match table[keyOf slave reg]? with
  | some e => e.toEffect
  | none =>
      match table[allKey]? with
      | some e => e.toEffect
      | none => {}

end OverrideTable

structure FaultSession (K : Type*) [Zero K] where
  handle : FaultHandle := invalidFaultHandle
  spec : FaultOverride K := {}
  state : FaultState := .idle
  startMonoMs : Int := 0
  activeSinceMs : Int := 0
  recoverSinceMs : Int := 0
  currentValue : K := 0
  recoverTarget : K := 0

namespace FaultSession

def start (h : FaultHandle) (spec : FaultOverride K) (startMonoMs : Int) : FaultSession K :=
  { handle := h, spec := spec, startMonoMs := startMonoMs, recoverTarget := spec.recoverValue }

def toActive (s : FaultSession K) (nowMonoMs : Int) : FaultSession K :=
  { s with state := .active, activeSinceMs := nowMonoMs, currentValue := s.spec.targetValue }

/-- `clock` is the reading the function makes itself. -/
def toRecovering (s : FaultSession K) (clock : Int) : FaultSession K :=
  { s with state := .recovering, recoverSinceMs := clock, recoverTarget := s.spec.recoverValue }

def toAborted (s : FaultSession K) : FaultSession K := { s with state := .aborted, currentValue := 0 }

def toIdle (s : FaultSession K) : FaultSession K := { s with state := .idle, currentValue := 0 }

def setRecoverTarget (s : FaultSession K) (v : K) : FaultSession K := { s with recoverTarget := v }

def live (s : FaultSession K) : Bool := s.state == .active || s.state == .recovering

def covers (s : FaultSession K) (slave : UInt8) (reg : UInt16) : Bool :=
  s.live &&
    match s.spec.scope with
    | .point => s.spec.slave == slave && s.spec.reg == reg
    | .slave => s.spec.slave == slave
    | .all => true

section Ramp
variable [Add K] [Sub K] [Neg K] [Mul K] [Div K] [IntCast K] [LT K] [DecidableLT K]

/-- The distance at which a recovery has arrived, a thousandth. -/
def recoverEpsilon : K := (1 : Int) / (1000 : Int)

/-- The value of a recovering session `dt` later, as far as its ramp takes it. -/
def ramped (s : FaultSession K) (dt : Int) : K :=
  let delta := s.spec.rampRate * ((dt : K) / (1000 : Int))
  let target := s.recoverTarget
  if target < s.currentValue then
    if target < s.currentValue - delta then s.currentValue - delta else target
  else if s.currentValue < target then
    if s.currentValue + delta < target then s.currentValue + delta else target
  else s.currentValue

def arrived (value target : K) : Bool :=
  let gap := value - target
  (if gap < 0 then -gap else gap) < (recoverEpsilon : K)

/-- `clock` is the reading of a session that starts to recover. -/
def tick (s : FaultSession K) (nowMonoMs clock : Int) : FaultSession K :=
  match s.state with
  | .active =>
      if 0 < s.spec.durationMs && s.spec.durationMs.toInt ≤ nowMonoMs - s.activeSinceMs
      then s.toRecovering clock else s
  | .recovering =>
      let dt := nowMonoMs - s.recoverSinceMs
      if dt ≤ 0 then s
      else
        let value := s.ramped dt
        if arrived value s.recoverTarget then { s with currentValue := s.recoverTarget }.toIdle
        else { s with currentValue := value }
  | _ => s

end Ramp

def entry (s : FaultSession K) : OverrideTable.Entry K :=
  { value := s.currentValue, type := s.spec.type, dropLink := s.spec.type == .commLoss,
    corruptCrc := s.spec.type == .crcError, corruptByte := s.spec.type == .crcError,
    delayMs := if s.spec.type == .timeout then s.spec.corruptMs else 0 }

end FaultSession

/-- The table key of a fault: a point's own, or the wildcard for the wider scopes. -/
def FaultOverride.key (spec : FaultOverride K) : UInt32 :=
  match spec.scope with
  | .point => OverrideTable.keyOf spec.slave spec.reg
  | .slave => OverrideTable.allKey
  | .all => OverrideTable.allKey

structure FaultInjector (K : Type*) [Zero K] where
  sessions : List (FaultSession K) := []
  nextHandle : UInt32 := 1
  table : OverrideTable K := ∅

inductive FaultInput (K : Type*) [Zero K] where
  | trigger (req : FaultOverride K) (startMonoMs nowMonoMs : Int)
  | recover (h : FaultHandle) (recoverValue : K) (clock : Int)
  | abort (h : FaultHandle)
  | tickSessions (dtMs : UInt32) (nowMonoMs : Int) (clock : Nat → Int)

/-- What a call returns. -/
inductive FaultReply where
  | handle (h : FaultHandle)
  | done (ok : Bool)
  deriving DecidableEq, Repr

namespace FaultInjector

def rebuild (sessions : List (FaultSession K)) : OverrideTable K :=
  sessions.foldl (fun next s => if s.live then next.insert s.spec.key s.entry else next) ∅

def rebuildTable (f : FaultInjector K) : FaultInjector K := { f with table := rebuild f.sessions }

def resolveOverride (f : FaultInjector K) (slave : UInt8) (reg : UInt16) : FaultEffect K :=
  let ef := f.table.resolve slave reg
  if ef.active then
    match f.sessions.find? (·.covers slave reg) with
    | some s => { ef with value := s.currentValue }
    | none => ef
  else ef

/-- What the live faults of a slave do to its link, whatever register they name. -/
def linkEffect (f : FaultInjector K) (slave : UInt8) : FaultEffect K :=
  f.sessions.foldl (fun ef s =>
    if s.live && (s.spec.scope == .all || s.spec.slave == slave) then
      { ef with
        active := true
        type := s.spec.type
        dropLink := ef.dropLink || s.spec.type == .commLoss
        corruptCrc := ef.corruptCrc || s.spec.type == .crcError
        corruptByte := ef.corruptByte || s.spec.type == .crcError
        delayMs := if s.spec.type == .timeout then s.spec.corruptMs else ef.delayMs }
    else ef) {}

def trigger (f : FaultInjector K) (req : FaultOverride K) (startMonoMs nowMonoMs : Int) :
    FaultInjector K × FaultHandle :=
  let h := f.nextHandle
  let f := { f with nextHandle := f.nextHandle + 1 }
  if h == invalidFaultHandle then (f, invalidFaultHandle)
  else
    let s := (FaultSession.start h req startMonoMs).toActive nowMonoMs
    ({ f with sessions := f.sessions ++ [s] }.rebuildTable, h)

/-- The first session that `picked` accepts is changed and the table rebuilt. -/
def changeFirst (f : FaultInjector K) (picked : FaultSession K → Bool)
    (change : FaultSession K → FaultSession K) : FaultInjector K × Bool :=
  match f.sessions.findIdx? picked with
  | some i => ({ f with sessions := f.sessions.modify i change }.rebuildTable, true)
  | none => (f, false)

def recover (f : FaultInjector K) (h : FaultHandle) (recoverValue : K) (clock : Int) :
    FaultInjector K × Bool :=
  f.changeFirst (fun s => s.handle == h && s.state == .active)
    (fun s => (s.setRecoverTarget recoverValue).toRecovering clock)

def abort (f : FaultInjector K) (h : FaultHandle) : FaultInjector K × Bool :=
  f.changeFirst (fun s => s.handle == h) FaultSession.toAborted

section Ramp
variable [Add K] [Sub K] [Neg K] [Mul K] [Div K] [IntCast K] [LT K] [DecidableLT K]

/-- `clock i` is the reading the `i`th session makes if its time is up. -/
def tickSessions (f : FaultInjector K) (_dtMs : UInt32) (nowMonoMs : Int) (clock : Nat → Int) :
    FaultInjector K :=
  let ticked := f.sessions.mapIdx (fun i s => s.tick nowMonoMs (clock i))
  let f' := { f with sessions := ticked }
  if ticked.map (·.state) != f.sessions.map (·.state) then f'.rebuildTable else f'

def step (f : FaultInjector K) : FaultInput K → FaultInjector K × List FaultReply
  | .trigger req startMonoMs nowMonoMs =>
      let r := f.trigger req startMonoMs nowMonoMs
      (r.1, [.handle r.2])
  | .recover h recoverValue clock =>
      let r := f.recover h recoverValue clock
      (r.1, [.done r.2])
  | .abort h =>
      let r := f.abort h
      (r.1, [.done r.2])
  | .tickSessions dtMs nowMonoMs clock => (f.tickSessions dtMs nowMonoMs clock, [])

end Ramp
end FaultInjector
end EnerSentry.Sim
