import EnerSentry.Business.BusinessStateMachine

/-!
A station that only keeps statistics has no running device. The way into this state looks at the devices;
the way into running does not look at the station, and it alone can break the rule.
-/

namespace EnerSentry.Business
open EnerSentry.Lib

namespace BusinessStateMachine

/-- No device of a station in statistics runs. -/
def AtRest (m : BusinessStateMachine) : Prop :=
  ∀ (stationId deviceId : UInt32) (device : DeviceRec), m.stations[stationId]? = some .stats →
    m.devices[deviceId]? = some device → device.stationId = stationId → device.state ≠ .running

/-- A device is started whose station is in statistics. -/
def startsInStats (m : BusinessStateMachine) : BusinessCall → Prop
  | .toRunning deviceId => ∃ device, m.devices[deviceId]? = some device ∧
      m.stations[device.stationId]? = some .stats
  | _ => False

variable {m m' : BusinessStateMachine}

/-- Stations that do not enter statistics and devices that do not start or move keep the rule. -/
theorem AtRest.mono (rest : m.AtRest)
    (stations : ∀ stationId : UInt32, m'.stations[stationId]? = some .stats →
      m.stations[stationId]? = some .stats)
    (devices : ∀ (deviceId : UInt32) device', m'.devices[deviceId]? = some device' →
      device'.state = .running → m.devices[deviceId]? = some device') : m'.AtRest := by
  intro stationId deviceId device stats known own runs
  exact rest stationId deviceId device (stations stationId stats) (devices deviceId device known runs) own runs

/-- A station that is set to another state is not in statistics. -/
theorem stats_of_insert {stations : Std.TreeMap UInt32 BusinessState} {changed stationId : UInt32}
    {state : BusinessState} (other : state ≠ .stats)
    (stats : (stations.insert changed state)[stationId]? = some .stats) :
    stations[stationId]? = some .stats := by
  rw [row_insert] at stats
  split at stats
  · exact absurd (Option.some.inj stats) other
  · exact stats

/-- A device that is set to another state does not run. -/
theorem runs_of_insert {devices : Std.TreeMap UInt32 DeviceRec} {changed deviceId : UInt32}
    {device device' : DeviceRec} (stopped : device.state ≠ .running)
    (known : (devices.insert changed device)[deviceId]? = some device') (runs : device'.state = .running) :
    devices[deviceId]? = some device' := by
  rw [row_insert] at known
  split at known
  · rw [← Option.some.inj known] at runs
    exact absurd runs stopped
  · exact known

theorem atRest_registerDevice (rest : m.AtRest) (stationId deviceId : UInt32) (points : List UInt32) :
    (m.registerDevice stationId deviceId points).AtRest := by
  refine rest.mono (fun other stats => ?_) fun other device known runs =>
    runs_of_insert BusinessState.noConfusion known runs
  simp only [registerDevice] at stats
  split at stats
  · exact stats
  · exact stats_of_insert BusinessState.noConfusion stats

theorem atRest_unregisterDevice (rest : m.AtRest) (deviceId : UInt32) : (m.unregisterDevice deviceId).AtRest := by
  simp only [unregisterDevice]
  split
  · exact rest
  · split
    · exact rest
    · refine rest.mono (fun _ stats => stats) fun other device known _ => ?_
      rw [row_erase] at known
      split at known
      · cases known
      · exact known

theorem atRest_toStats (rest : m.AtRest) (stationId : UInt32) : (m.toStats stationId).1.AtRest := by
  simp only [toStats]
  split
  · exact rest
  · split
    · rename_i idle
      have idle := (m.canStationEnterStats_iff stationId).mp idle
      intro other deviceId device stats known own
      by_cases same : other = stationId
      · subst same
        exact idle deviceId device known own
      · rw [row_insert, if_neg same] at stats
        exact rest other deviceId device stats known own
    · exact rest

theorem atRest_toConfigStation (rest : m.AtRest) (stationId : UInt32) :
    (m.toConfigStation stationId).1.AtRest := by
  simp only [toConfigStation]
  split
  · exact rest
  · exact rest.mono (fun _ stats => stats_of_insert BusinessState.noConfusion stats) fun _ _ known _ => known

theorem atRest_toConfigDevice (rest : m.AtRest) (deviceId : UInt32) : (m.toConfigDevice deviceId).1.AtRest := by
  simp only [toConfigDevice]
  split
  · exact rest
  · exact rest.mono (fun _ stats => stats) fun _ _ known runs => runs_of_insert BusinessState.noConfusion known runs

theorem atRest_toConfigPoint (rest : m.AtRest) (pointId : UInt32) : (m.toConfigPoint pointId).1.AtRest := by
  simp only [toConfigPoint]
  split
  · exact rest
  · exact rest.mono (fun _ stats => stats) fun _ _ known _ => known

/-- Only stations in configuration are lifted, so the stations in statistics stay there. -/
theorem stats_toRunning (deviceId stationId : UInt32) (stats : m.stations[stationId]? = some .stats) :
    (m.toRunning deviceId).1.stations[stationId]? = some .stats := by
  simp only [toRunning]
  split
  · exact stats
  · rename_i device known
    split
    · exact stats
    · split
      · rename_i config
        have other : device.stationId ≠ stationId := by
          rintro rfl
          rw [stats] at config
          cases config
        rw [row_insert, if_neg other.symm]
        exact stats
      · exact stats

theorem stats_of_toRunning (deviceId stationId : UInt32)
    (stats : (m.toRunning deviceId).1.stations[stationId]? = some .stats) :
    m.stations[stationId]? = some .stats := by
  simp only [toRunning] at stats
  split at stats
  · exact stats
  · split at stats
    · exact stats
    · split at stats
      · exact stats_of_insert BusinessState.noConfusion stats
      · exact stats

theorem devices_toRunning {deviceId : UInt32} {device : DeviceRec} (known : m.devices[deviceId]? = some device)
    (other : UInt32) :
    (m.toRunning deviceId).1.devices[other]? =
      if other = deviceId then some { device with state := .running } else m.devices[other]? := by
  have inserted : (m.devices.insert deviceId { device with state := .running })[other]? =
      if other = deviceId then some { device with state := .running } else m.devices[other]? :=
    row_insert ..
  simp only [toRunning, known]
  split
  · rename_i runs
    by_cases same : other = deviceId
    · rw [if_pos same, same, known, ← runs]
    · rw [if_neg same]
  · split <;> exact inserted

/-- Starting a device keeps the rule exactly if its station is not in statistics. -/
theorem atRest_toRunning_iff (rest : m.AtRest) (deviceId : UInt32) :
    (m.toRunning deviceId).1.AtRest ↔ ¬m.startsInStats (.toRunning deviceId) := by
  constructor
  · rintro after ⟨device, known, stats⟩
    exact after device.stationId deviceId { device with state := .running } (stats_toRunning deviceId _ stats)
      (by rw [devices_toRunning known, if_pos rfl]) rfl rfl
  · intro steady stationId other device' stats known' own
    have stats := stats_of_toRunning deviceId stationId stats
    cases known : m.devices[deviceId]? with
    | none =>
      simp only [toRunning, known] at known'
      exact rest stationId other device' stats known' own
    | some device =>
      rw [devices_toRunning known] at known'
      split at known'
      · cases known'
        exact absurd ⟨device, known, own ▸ stats⟩ steady
      · exact rest stationId other device' stats known' own

theorem atRest_step_iff (rest : m.AtRest) (call : BusinessCall) :
    (step m call).1.AtRest ↔ ¬m.startsInStats call := by
  cases call with
  | registerDevice stationId deviceId points =>
    exact iff_of_true (atRest_registerDevice rest stationId deviceId points) not_false
  | unregisterDevice deviceId => exact iff_of_true (atRest_unregisterDevice rest deviceId) not_false
  | toRunning deviceId => exact atRest_toRunning_iff rest deviceId
  | toStats stationId => exact iff_of_true (atRest_toStats rest stationId) not_false
  | toConfigStation stationId => exact iff_of_true (atRest_toConfigStation rest stationId) not_false
  | toConfigDevice deviceId => exact iff_of_true (atRest_toConfigDevice rest deviceId) not_false
  | toConfigPoint pointId => exact iff_of_true (atRest_toConfigPoint rest pointId) not_false

theorem atRest_empty : ({} : BusinessStateMachine).AtRest := by
  intro stationId deviceId device stats
  simp at stats

/-- The rule holds throughout a run exactly when no device is started whose station is in statistics. -/
theorem stations_at_rest_iff (calls : List BusinessCall) :
    (∀ m ∈ Runs.reached step {} calls, ∀ (stationId deviceId : UInt32) (device : DeviceRec),
      m.stations[stationId]? = some .stats → m.devices[deviceId]? = some device →
        device.stationId = stationId → device.state ≠ .running) ↔
      ∀ v ∈ Runs.visits step {} calls, ¬v.1.startsInStats v.2 :=
  Runs.reached_iff step calls (B := fun _ => True) (I := AtRest) (J := AtRest) trivial (fun _ _ _ => trivial)
    atRest_empty (fun _ rest => rest) (fun _ call _ rest steady => (atRest_step_iff rest call).mpr steady)
    (fun _ call _ rest starts broken => starts ((atRest_step_iff rest call).mp broken))

/-- A device may be started while its station is in statistics. -/
theorem stats_station_runs :
    ¬∀ calls, ∀ m ∈ Runs.reached step {} calls, ∀ (stationId deviceId : UInt32) (device : DeviceRec),
      m.stations[stationId]? = some .stats → m.devices[deviceId]? = some device →
        device.stationId = stationId → device.state ≠ .running := by
  intro claimed
  exact claimed [.registerDevice 1 10 [100], .toStats 1, .toRunning 10] _ Runs.run_mem_reached 1 10
    { stationId := 1, state := .running, points := [100] } (by decide +kernel) (by decide +kernel) rfl rfl

end BusinessStateMachine
end EnerSentry.Business
