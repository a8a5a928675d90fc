import EnerSentry.Business.BusinessStateMachine

/-!
The point table of the plant is the index of the point sets of the devices. It stays so as long as a
registration takes no point of another device and leaves out none of its own; a registration of a running
device stops it.
-/

namespace EnerSentry.Business
open EnerSentry.Lib

/-- The device that a call registers or unregisters. -/
def BusinessCall.subject : BusinessCall → Option UInt32
  | .registerDevice _ deviceId _ => some deviceId
  | .unregisterDevice deviceId => some deviceId
  | _ => none

namespace BusinessStateMachine

/-- The device a point leads to. -/
def ownerOf (m : BusinessStateMachine) (p : UInt32) : Option UInt32 := (m.points[p]?).map Prod.fst

/-- A registered device has the point in its set. -/
def Owns (m : BusinessStateMachine) (d p : UInt32) : Prop :=
  ∃ device, m.devices[d]? = some device ∧ p ∈ device.points

def Running (m : BusinessStateMachine) (d : UInt32) : Prop :=
  ∃ device, m.devices[d]? = some device ∧ device.state = .running

def Indexed (m : BusinessStateMachine) : Prop := ∀ p d, m.ownerOf p = some d ↔ m.Owns d p

/-- What a registration or the end of one leaves alone: the points of other devices, in both places, and
the devices that run. -/
def Spares (m : BusinessStateMachine) (deviceId : UInt32) (m' : BusinessStateMachine) : Prop :=
  (∀ p d, d ≠ deviceId → m.ownerOf p = some d → m'.ownerOf p = some d) ∧
  (∀ p d, d ≠ deviceId → m.Owns d p → m'.Owns d p) ∧
  ∀ d, m.Running d → m'.Running d

/-- A device is registered that does not run, with all points it has and none of another device. -/
def registersWell (m : BusinessStateMachine) : BusinessCall → Prop
  | .registerDevice _ deviceId points =>
      ¬m.Running deviceId ∧ (∀ p, m.Owns deviceId p → p ∈ points) ∧
        ∀ p ∈ points, ∀ d, m.ownerOf p = some d → d = deviceId
  | _ => True

variable {m : BusinessStateMachine}

/-- In an indexed plant a point has one device. -/
theorem Indexed.unique (indexed : m.Indexed) {p d d' : UInt32} (owns : m.Owns d p) (owns' : m.Owns d' p) :
    d = d' :=
  Option.some.inj (((indexed p d).mpr owns).symm.trans ((indexed p d').mpr owns'))

section Register
variable (m) (stationId deviceId : UInt32) (points : List UInt32)

theorem ownerOf_registerDevice (p : UInt32) :
    (m.registerDevice stationId deviceId points).ownerOf p =
      if p ∈ points then some deviceId else m.ownerOf p := by
  simp only [ownerOf, registerDevice, row_foldl_insert]
  split <;> rfl

theorem owns_registerDevice (d p : UInt32) :
    (m.registerDevice stationId deviceId points).Owns d p ↔
      if d = deviceId then p ∈ points else m.Owns d p := by
  simp only [Owns, registerDevice, row_insert]
  split
  · simp [mem_foldl_insert]
  · rfl

theorem running_registerDevice (d : UInt32) :
    (m.registerDevice stationId deviceId points).Running d ↔ d ≠ deviceId ∧ m.Running d := by
  simp only [Running, registerDevice, row_insert]
  split
  · rename_i same
    simp [same]
  · rename_i other
    simp [other]

end Register

/-- What the end of a registration does, if the device does not run. -/
theorem unregisterDevice_cases (deviceId : UInt32) :
    m.unregisterDevice deviceId = m ∨
      ∃ device, m.devices[deviceId]? = some device ∧ device.state ≠ .running ∧
        (∀ p, (m.unregisterDevice deviceId).ownerOf p = if p ∈ device.points then none else m.ownerOf p) ∧
        ∀ d : UInt32, (m.unregisterDevice deviceId).devices[d]? = if d = deviceId then none else m.devices[d]? := by
  simp only [unregisterDevice]
  cases known : m.devices[deviceId]? with
  | none => exact Or.inl rfl
  | some device =>
    by_cases runs : device.state = .running
    · exact Or.inl (if_pos runs)
    · refine Or.inr ⟨device, rfl, runs, fun p => ?_, fun d => ?_⟩
      · simp only [if_neg runs, ownerOf, row_foldl_erase]
        split <;> rfl
      · simp only [if_neg runs, row_erase]

theorem indexed_unregisterDevice (indexed : m.Indexed) (deviceId : UInt32) :
    (m.unregisterDevice deviceId).Indexed := by
  rcases m.unregisterDevice_cases deviceId with same | ⟨device, known, -, owner, devices⟩
  · rwa [same]
  · intro p d
    have mine : m.Owns deviceId p ↔ p ∈ device.points := by simp [Owns, known]
    rw [owner]
    by_cases same : d = deviceId
    · subst same
      have gone : ¬(m.unregisterDevice d).Owns d p := by simp [Owns, devices]
      refine iff_of_false ?_ gone
      split
      · exact fun none_some => nomatch none_some
      · rename_i unlisted
        exact fun owned => unlisted (mine.mp ((indexed p d).mp owned))
    · have others : (m.unregisterDevice deviceId).Owns d p ↔ m.Owns d p := by simp [Owns, devices, same]
      rw [others, ← indexed p d]
      split
      · rename_i listed
        have owned := (indexed p deviceId).mpr (mine.mpr listed)
        rw [owned]
        exact iff_of_false (fun none_some => nomatch none_some) fun equal => same (Option.some.inj equal).symm
      · rfl

theorem spares_unregisterDevice (indexed : m.Indexed) (deviceId : UInt32) :
    m.Spares deviceId (m.unregisterDevice deviceId) := by
  rcases m.unregisterDevice_cases deviceId with same | ⟨device, known, stopped, owner, devices⟩
  · rw [same]
    exact ⟨fun _ _ _ owned => owned, fun _ _ _ owns => owns, fun _ runs => runs⟩
  · refine ⟨fun p d other owned => ?_, fun p d other owns => ?_, fun d runs => ?_⟩
    · have foreign : p ∉ device.points := by
        intro listed
        exact other (indexed.unique ((indexed p d).mp owned) ⟨device, known, listed⟩)
      rw [owner, if_neg foreign, owned]
    · simpa [Owns, devices, other] using owns
    · have other : d ≠ deviceId := by
        rintro rfl
        obtain ⟨running, found, runs⟩ := runs
        rw [known] at found
        exact stopped (Option.some.inj found ▸ runs)
      simpa [Running, devices, other] using runs

/-- The state of a device says nothing about its points. -/
theorem owns_setState {deviceId : UInt32} {device : DeviceRec} (known : m.devices[deviceId]? = some device)
    (d p : UInt32) (state : BusinessState) :
    (∃ device', (m.devices.insert deviceId { device with state := state })[d]? = some device' ∧
      p ∈ device'.points) ↔ m.Owns d p := by
  rw [row_insert]
  by_cases same : d = deviceId
  · simp [Owns, same, known]
  · rw [if_neg same]
    rfl

/-- Only registrations and their ends change the points of the devices. -/
theorem points_step {call : BusinessCall} (other : call.subject = none) (p d : UInt32) :
    (step m call).1.ownerOf p = m.ownerOf p ∧ ((step m call).1.Owns d p ↔ m.Owns d p) := by
  cases call with
  | registerDevice => cases other
  | unregisterDevice => cases other
  | toRunning deviceId =>
    simp only [step, toRunning]
    cases known : m.devices[deviceId]? with
    | none => exact ⟨rfl, Iff.rfl⟩
    | some device =>
      dsimp only
      split
      · exact ⟨rfl, Iff.rfl⟩
      · split <;> exact ⟨rfl, owns_setState known d p _⟩
  | toStats stationId =>
    simp only [step, toStats]
    split
    · exact ⟨rfl, Iff.rfl⟩
    · split <;> exact ⟨rfl, Iff.rfl⟩
  | toConfigStation stationId =>
    simp only [step, toConfigStation]
    split <;> exact ⟨rfl, Iff.rfl⟩
  | toConfigDevice deviceId =>
    simp only [step, toConfigDevice]
    cases known : m.devices[deviceId]? with
    | none => exact ⟨rfl, Iff.rfl⟩
    | some device => exact ⟨rfl, owns_setState known d p _⟩
  | toConfigPoint pointId =>
    simp only [step, toConfigPoint]
    cases known : m.points[pointId]? with
    | none => exact ⟨rfl, Iff.rfl⟩
    | some entry =>
      refine ⟨?_, Iff.rfl⟩
      simp only [ownerOf, row_insert]
      split
      · rename_i same
        rw [same, known]
        rfl
      · rfl

theorem indexed_registerDevice (indexed : m.Indexed) {stationId deviceId : UInt32} {points : List UInt32}
    (well : m.registersWell (.registerDevice stationId deviceId points)) :
    (m.registerDevice stationId deviceId points).Indexed := by
  obtain ⟨-, all, own⟩ := well
  intro p d
  rw [ownerOf_registerDevice, owns_registerDevice]
  by_cases same : d = deviceId
  · subst same
    rw [if_pos rfl]
    by_cases listed : p ∈ points
    · simp [listed]
    · rw [if_neg listed]
      exact iff_of_false (fun owned => listed (all p ((indexed p d).mp owned))) listed
  · rw [if_neg same]
    by_cases listed : p ∈ points
    · rw [if_pos listed]
      exact iff_of_false (fun equal => same (Option.some.inj equal).symm)
        fun owns => same (own p listed d ((indexed p d).mpr owns))
    · rw [if_neg listed]
      exact indexed p d

theorem spares_registerDevice {stationId deviceId : UInt32} {points : List UInt32}
    (well : m.registersWell (.registerDevice stationId deviceId points)) :
    m.Spares deviceId (m.registerDevice stationId deviceId points) := by
  obtain ⟨stopped, -, own⟩ := well
  refine ⟨fun p d other owned => ?_, fun p d other owns => ?_, fun d runs => ?_⟩
  · rw [ownerOf_registerDevice, if_neg fun listed => other (own p listed d owned)]
    exact owned
  · rw [owns_registerDevice, if_neg other]
    exact owns
  · rw [running_registerDevice]
    exact ⟨fun same => stopped (same ▸ runs), runs⟩

/-- A registration that leaves the plant indexed and spares the other devices was well made. -/
theorem well_of_indexed (indexed : m.Indexed) {stationId deviceId : UInt32} {points : List UInt32}
    (after : (m.registerDevice stationId deviceId points).Indexed)
    (spares : m.Spares deviceId (m.registerDevice stationId deviceId points)) :
    m.registersWell (.registerDevice stationId deviceId points) := by
  obtain ⟨owners, -, running⟩ := spares
  refine ⟨fun runs => ?_, fun p owns => ?_, fun p listed d owned => ?_⟩
  · exact ((running_registerDevice m stationId deviceId points deviceId).mp (running deviceId runs)).1 rfl
  · by_contra unlisted
    have owned := (indexed p deviceId).mpr owns
    have kept : (m.registerDevice stationId deviceId points).ownerOf p = some deviceId := by
      rw [ownerOf_registerDevice, if_neg unlisted, owned]
    have listed := (after p deviceId).mp kept
    rw [owns_registerDevice, if_pos rfl] at listed
    exact unlisted listed
  · by_contra other
    have kept := owners p d other owned
    rw [ownerOf_registerDevice, if_pos listed] at kept
    exact other (Option.some.inj kept).symm

theorem indexed_step (indexed : m.Indexed) {call : BusinessCall} (well : m.registersWell call) :
    (step m call).1.Indexed := by
  cases subject : call.subject with
  | none =>
    intro p d
    rw [(points_step subject p d).1, (points_step subject p d).2]
    exact indexed p d
  | some deviceId =>
    cases call with
    | registerDevice stationId deviceId points => exact indexed_registerDevice indexed well
    | unregisterDevice deviceId => exact indexed_unregisterDevice indexed deviceId
    | _ => cases subject

theorem indexed_empty : ({} : BusinessStateMachine).Indexed := by
  intro p d
  simp [ownerOf, Owns]

/-- The point table is the index of the point sets in every state of a run, and registrations spare the
other devices and those that run, exactly when all registrations of the run are well made. -/
theorem points_indexed_iff (calls : List BusinessCall) :
    ((∀ m ∈ Runs.reached step {} calls, (∀ p d, m.ownerOf p = some d ↔ m.Owns d p) ∧
        ∀ p d d', m.Owns d p → m.Owns d' p → d = d') ∧
      ∀ v ∈ Runs.visits step {} calls, ∀ deviceId, v.2.subject = some deviceId →
        v.1.Spares deviceId (step v.1 v.2).1) ↔
      ∀ v ∈ Runs.visits step {} calls, v.1.registersWell v.2 := by
  constructor
  · rintro ⟨indexed, spares⟩ ⟨m, call⟩ visited
    obtain ⟨before, after⟩ := Runs.visit_mem_reached visited
    cases call with
    | registerDevice stationId deviceId points =>
      exact well_of_indexed (indexed m before).1 (indexed _ after).1 (spares _ visited deviceId rfl)
    | _ => trivial
  · intro well
    have indexed := Runs.reached_invariant step calls (I := Indexed) (A := registersWell) indexed_empty
      (fun _ _ indexed well => indexed_step indexed well) well
    refine ⟨fun m member => ⟨indexed m member, fun p d d' => (indexed m member).unique⟩,
      fun v visited deviceId subject => ?_⟩
    have before := indexed v.1 (Runs.visit_mem_reached visited).1
    obtain ⟨m, call⟩ := v
    cases call with
    | registerDevice stationId other points =>
      cases subject
      exact spares_registerDevice (well _ visited)
    | unregisterDevice other =>
      cases subject
      exact spares_unregisterDevice before _
    | _ => cases subject

/-- A device that is registered again with other points leaves the old ones in the table. -/
theorem stale_points :
    ¬∀ calls, (∀ m ∈ Runs.reached step {} calls, (∀ p d, m.ownerOf p = some d ↔ m.Owns d p) ∧
        ∀ p d d', m.Owns d p → m.Owns d' p → d = d') ∧
      ∀ v ∈ Runs.visits step {} calls, ∀ deviceId, v.2.subject = some deviceId →
        v.1.Spares deviceId (step v.1 v.2).1 := by
  intro claimed
  have index := ((claimed [.registerDevice 1 10 [100], .registerDevice 1 10 [101]]).1 _ Runs.run_mem_reached).1
  obtain ⟨device, known, owns⟩ := (index 100 10).mp (by decide +kernel)
  have points : device = { stationId := 1, points := [101] } :=
    Option.some.inj (known.symm.trans (by decide +kernel))
  rw [points] at owns
  exact absurd owns (by decide)

end BusinessStateMachine
end EnerSentry.Business
