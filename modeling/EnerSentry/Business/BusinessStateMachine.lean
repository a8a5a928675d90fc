import EnerSentry.Lib.Runs
import EnerSentry.Lib.TreeRows

/-!
The three levels of the plant, stations, devices and points, each with its own state. A device belongs
to a station and owns points; the points have a table of their own that leads back to their device.
-/

namespace EnerSentry.Business
open EnerSentry.Lib

inductive BusinessState where
  | config | running | stats
  deriving DecidableEq, Repr

/-- A device; its points are a set, kept as a list without repetitions. -/
structure DeviceRec where
  stationId : UInt32 := 0
  state : BusinessState := .config
  points : List UInt32 := []
  deriving DecidableEq, Repr

structure BusinessStateMachine where
  stations : Std.TreeMap UInt32 BusinessState := ∅
  devices : Std.TreeMap UInt32 DeviceRec := ∅
  points : Std.TreeMap UInt32 (UInt32 × BusinessState) := ∅

/-- The signal of a change; an id that does not apply is 0. -/
structure StateChanged where
  stationId : UInt32
  deviceId : UInt32
  pointId : UInt32
  oldState : BusinessState
  newState : BusinessState
  deriving DecidableEq, Repr

namespace BusinessStateMachine
variable (m : BusinessStateMachine) (stationId deviceId pointId : UInt32)

def registerDevice (points : List UInt32) : BusinessStateMachine :=
  let stations := if m.stations.contains stationId then m.stations else m.stations.insert stationId .config
  let device : DeviceRec :=
    { stationId := stationId
      state := .config
      points := points.foldl (fun set p => set.insert p) [] }
  { stations := stations
    devices := m.devices.insert deviceId device
    points := points.foldl (fun table p => table.insert p (deviceId, .config)) m.points }

/-- A running device stays. -/
def unregisterDevice : BusinessStateMachine :=
  match m.devices[deviceId]? with
  | none => m
  | some device =>
      if device.state = .running then m
      else
        { m with
          points := device.points.foldl (fun table p => table.erase p) m.points
          devices := m.devices.erase deviceId }

/-- A station that was in configuration runs with its first device. -/
def toRunning : BusinessStateMachine × Bool × List StateChanged :=
  match m.devices[deviceId]? with
  | none => (m, false, [])
  | some device =>
      if device.state = .running then (m, true, [])
      else
        let devices := m.devices.insert deviceId { device with state := .running }
        let started : StateChanged := ⟨device.stationId, deviceId, 0, device.state, .running⟩
        if m.stations[device.stationId]? = some .config then
          ({ m with devices := devices, stations := m.stations.insert device.stationId .running }, true,
            [⟨device.stationId, deviceId, 0, .config, .running⟩, started])
        else ({ m with devices := devices }, true, [started])

/-- No device of the station runs. -/
def canStationEnterStats : Bool :=
  m.devices.toList.all fun entry => !(entry.2.stationId = stationId && entry.2.state = .running)

def toStats : BusinessStateMachine × Bool × List StateChanged :=
  match m.stations[stationId]? with
  | none => (m, false, [])
  | some old =>
      if m.canStationEnterStats stationId then
        ({ m with stations := m.stations.insert stationId .stats }, true, [⟨stationId, 0, 0, old, .stats⟩])
      else (m, false, [])

def toConfigStation : BusinessStateMachine × Bool × List StateChanged :=
  match m.stations[stationId]? with
  | none => (m, false, [])
  | some old =>
      ({ m with stations := m.stations.insert stationId .config }, true, [⟨stationId, 0, 0, old, .config⟩])

def toConfigDevice : BusinessStateMachine × Bool × List StateChanged :=
  match m.devices[deviceId]? with
  | none => (m, false, [])
  | some device =>
      ({ m with devices := m.devices.insert deviceId { device with state := .config } }, true,
        [⟨device.stationId, deviceId, 0, device.state, .config⟩])

def toConfigPoint : BusinessStateMachine × Bool × List StateChanged :=
  match m.points[pointId]? with
  | none => (m, false, [])
  | some (owner, old) =>
      ({ m with points := m.points.insert pointId (owner, .config) }, true, [⟨0, owner, pointId, old, .config⟩])

def stationState : BusinessState := (m.stations[stationId]?).getD .config

def deviceState : BusinessState :=
  match m.devices[deviceId]? with
  | some device => device.state
  | none => .config

def pointState : BusinessState :=
  match m.points[pointId]? with
  | some (_, state) => state
  | none => .config

def stationCount : Nat := m.stations.size

def deviceCount : Nat := m.devices.size

def pointCount : Nat := m.points.size

end BusinessStateMachine

inductive BusinessCall where
  | registerDevice (stationId deviceId : UInt32) (points : List UInt32)
  | unregisterDevice (deviceId : UInt32)
  | toRunning (deviceId : UInt32)
  | toStats (stationId : UInt32)
  | toConfigStation (stationId : UInt32)
  | toConfigDevice (deviceId : UInt32)
  | toConfigPoint (pointId : UInt32)
  deriving DecidableEq, Repr

namespace BusinessStateMachine

/-- The machine of all calls, with the signals they emit. -/
def step : Runs.Step BusinessStateMachine BusinessCall StateChanged := fun m call =>
  match call with
  | .registerDevice stationId deviceId points => (m.registerDevice stationId deviceId points, [])
  | .unregisterDevice deviceId => (m.unregisterDevice deviceId, [])
  | .toRunning deviceId => ((m.toRunning deviceId).1, (m.toRunning deviceId).2.2)
  | .toStats stationId => ((m.toStats stationId).1, (m.toStats stationId).2.2)
  | .toConfigStation stationId => ((m.toConfigStation stationId).1, (m.toConfigStation stationId).2.2)
  | .toConfigDevice deviceId => ((m.toConfigDevice deviceId).1, (m.toConfigDevice deviceId).2.2)
  | .toConfigPoint pointId => ((m.toConfigPoint pointId).1, (m.toConfigPoint pointId).2.2)

variable (m : BusinessStateMachine) (stationId deviceId : UInt32) (points : List UInt32)

theorem mem_foldl_insert (set : List UInt32) (p : UInt32) :
    p ∈ points.foldl (fun set p => set.insert p) set ↔ p ∈ set ∨ p ∈ points := by
  induction points generalizing set with
  | nil => simp
  | cons q points ih =>
    rw [List.foldl_cons, ih, List.mem_insert_iff, List.mem_cons]
    tauto

theorem canStationEnterStats_iff : m.canStationEnterStats stationId ↔
    ∀ (d : UInt32) (device : DeviceRec), m.devices[d]? = some device → device.stationId = stationId →
      device.state ≠ .running := by
  rw [canStationEnterStats, List.all_eq_true]
  constructor
  · intro none_runs d device known own runs
    have listed := none_runs (d, device) (Std.TreeMap.mem_toList_iff_getElem?_eq_some.mpr known)
    simp [own, runs] at listed
  · rintro idle ⟨d, device⟩ listed
    have known := Std.TreeMap.mem_toList_iff_getElem?_eq_some.mp listed
    have stopped := idle d device known
    simp only [Bool.not_eq_true', Bool.and_eq_false_iff, decide_eq_false_iff_not]
    by_cases own : device.stationId = stationId
    · exact Or.inr (stopped own)
    · exact Or.inl own

end BusinessStateMachine
end EnerSentry.Business
