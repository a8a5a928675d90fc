import EnerSentry.Business.AlarmPersistence

/-!
Several runs of the process on one data directory. Each run starts with an empty store, its
id counter at zero, and the tables that the runs before it left. The rows of a run are its
own when no id it uses is taken in the month it is stored in, which a restart inside a month
already violates.
-/

namespace EnerSentry.Business
open EnerSentry.Lib EnerSentry.Datahub

variable {K : Type*} [Zero K]

/-- The signal marks the row of this alarm as recovered or confirmed. -/
def AlarmSignal.Marks (id : Nat) : AlarmSignal K → Prop
  | .alarmRecovered alarmId => alarmId = id
  | .alarmAcknowledged alarmId _ => alarmId = id
  | _ => False

namespace AlarmRecordStore
variable {cal : Calendar} {s : AlarmRecordStore K} {events : List (AlarmEvent K)}

/-- The trigger times that the store knows are those of these alarms. -/
def Told (triggers : Nat → Option Nat) (events : List (AlarmEvent K)) : Prop :=
  ∀ id t, triggers id = some t → ∃ ev ∈ events, ev.id = id ∧ ev.triggerTime = t

section Told
variable {triggers : Nat → Option Nat}

theorem Told.mono (told : Told triggers events) {more : List (AlarmEvent K)} (subset : ∀ ev ∈ events, ev ∈ more) :
    Told triggers more := by
  intro id t known
  obtain ⟨ev, member, facts⟩ := told id t known
  exact ⟨ev, subset ev member, facts⟩

theorem Told.update (told : Told triggers events) {ev : AlarmEvent K} (member : ev ∈ events) :
    Told (Function.update triggers ev.id (some ev.triggerTime)) events := by
  intro id t known
  by_cases own : id = ev.id
  · subst own
    rw [Function.update_self] at known
    exact ⟨ev, member, rfl, Option.some.inj known⟩
  · rw [Function.update_of_ne own] at known
    exact told id t known

theorem Told.forget (told : Told triggers events) (id : Nat) : Told (Function.update triggers id none) events := by
  intro i t known
  by_cases own : i = id
  · simp [own] at known
  · rw [Function.update_of_ne own] at known
    exact told i t known

theorem Told.batch (told : Told triggers events) {samples : List (AlarmEvent K)}
    (subset : ∀ ev ∈ samples, ev ∈ events) :
    Told (samples.foldl (fun (t : Nat → Option Nat) ev => Function.update t ev.id (some ev.triggerTime)) triggers)
      events := by
  induction samples generalizing triggers with
  | nil => exact told
  | cons ev samples ih =>
    exact ih (told.update (subset ev (List.mem_cons_self ..))) fun y member => subset y (List.mem_cons_of_mem _ member)

theorem Told.receive (told : Told s.triggerByAlarmId events) (now : Nat) {x : AlarmSignal K}
    (subset : ∀ ev ∈ x.events, ev ∈ events) : Told (s.receive cal now x).triggerByAlarmId events := by
  cases x with
  | alarmTriggered ev => exact told.update (subset ev (List.mem_singleton_self ev))
  | alarmRecovered alarmId =>
    simp only [AlarmRecordStore.receive, onAlarmRecovered]
    split
    · exact told
    · exact told.forget alarmId
  | alarmAcknowledged alarmId user =>
    simp only [AlarmRecordStore.receive, onAlarmAcknowledged]
    split <;> exact told
  | alarmStormTriggered total dropped samples =>
    simp only [AlarmRecordStore.receive, onStormBatch]
    split
    · exact told
    · exact told.batch subset
  | blackBoxRequested pointId alarmTimeEpoch level => exact told
  | alarmStormCleared => exact told

end Told

/-- A row that a signal changes is that of the alarm it names, in the month the store knows. -/
theorem receive_changes {now : Nat} {x : AlarmSignal K} {month : String} {id : Nat} {row : AlarmRecord K}
    (present : s.tables month id = some row) (changed : (s.receive cal now x).tables month id ≠ some row) :
    x.Marks id ∧ ∃ t, s.triggerByAlarmId id = some t ∧ openAlarmTable cal t = some month := by
  have inserts : ∀ records, (insertAlarmRecords cal s.tables records).1 month id = some row :=
    fun records => insertAlarmRecords_keeps present
  have updates : ∀ alarmId t change, s.triggerByAlarmId alarmId = some t →
      (updateAlarm cal s.tables t alarmId change).1 month id ≠ some row →
      alarmId = id ∧ ∃ t, s.triggerByAlarmId id = some t ∧ openAlarmTable cal t = some month := by
    intro alarmId t change known other
    rw [updateAlarm_row] at other
    split at other
    · rename_i hit
      obtain ⟨named, rfl⟩ := hit
      exact ⟨rfl, t, known, named⟩
    · exact absurd present other
  cases x with
  | alarmTriggered ev => exact absurd (inserts [toActiveRecord ev]) changed
  | alarmRecovered alarmId =>
    simp only [AlarmRecordStore.receive, onAlarmRecovered] at changed
    split at changed
    · exact absurd present changed
    · rename_i t known
      exact updates alarmId t _ known changed
  | alarmAcknowledged alarmId user =>
    simp only [AlarmRecordStore.receive, onAlarmAcknowledged] at changed
    split at changed
    · exact absurd present changed
    · rename_i t known
      exact updates alarmId t _ known changed
  | alarmStormTriggered total dropped samples =>
    simp only [AlarmRecordStore.receive, onStormBatch] at changed
    split at changed
    · exact absurd present changed
    · exact absurd (inserts (samples.map toActiveRecord)) changed
  | blackBoxRequested pointId alarmTimeEpoch level => exact absurd present changed
  | alarmStormCleared => exact absurd present changed

/-- The same over all signals of a call, whose alarms are among these. -/
theorem foldl_changes (cal : Calendar) (clock : Nat → Nat) {signals : List (AlarmSignal K × Nat)}
    (told : Told s.triggerByAlarmId events)
    (subset : ∀ x ∈ signals, ∀ ev ∈ x.1.events, ev ∈ events) :
    Told (signals.foldl (fun s x => s.receive cal (clock x.2) x.1) s).triggerByAlarmId events ∧
      ∀ month id row, s.tables month id = some row →
        (signals.foldl (fun s x => s.receive cal (clock x.2) x.1) s).tables month id ≠ some row →
        ∃ x ∈ signals, x.1.Marks id ∧ ∃ ev ∈ events, ev.id = id ∧ openAlarmTable cal ev.triggerTime = some month := by
  induction signals generalizing s with
  | nil => exact ⟨told, fun month id row present changed => absurd present changed⟩
  | cons x signals ih =>
    rw [List.foldl_cons]
    have next : Told (s.receive cal (clock x.2) x.1).triggerByAlarmId events :=
      told.receive (clock x.2) (subset x (List.mem_cons_self ..))
    obtain ⟨later, changes⟩ := ih next fun y member => subset y (List.mem_cons_of_mem _ member)
    refine ⟨later, fun month id row present changed => ?_⟩
    by_cases still : (s.receive cal (clock x.2) x.1).tables month id = some row
    · obtain ⟨y, member, facts⟩ := changes month id row still changed
      exact ⟨y, List.mem_cons_of_mem _ member, facts⟩
    · obtain ⟨marks, t, known, named⟩ := receive_changes present still
      obtain ⟨ev, member, own, rfl⟩ := told id t known
      exact ⟨x, List.mem_cons_self .., marks, ev, member, own, named⟩

end AlarmRecordStore

namespace AlarmEngine
variable [LT K] [DecidableLT K] [ToString K]

/-- A storm raises an alarm for which the queue has no room. -/
inductive Overflows (e : AlarmEngine K) : AlarmInput K → Prop
  | mk {pid : UInt32} {value : K} {nowMono : Int} {nowEpoch : Nat} (r : AlarmRule K)
      (due : e.Due pid value nowMono r) (window : (e.stateOf pid).suppressed r nowMono = false)
      (storm : (e.isStormTriggered nowMono).stormActive = true) (plain : r.level ≠ .critical)
      (full : maxPendingStorm ≤ e.pendingStorm.length) : e.Overflows (.dataUpdated pid value nowMono nowEpoch)

variable {e : AlarmEngine K}

/-- What overflows is neither queued nor published. -/
theorem Overflows.lost {input : AlarmInput K} (overflows : e.Overflows input) [BEq K] :
    (e.step input).1.alarmIdSeq = e.nextAlarmId ∧ (e.step input).1.pendingStorm = e.pendingStorm ∧
      ∀ batch, ¬e.Publishes input batch := by
  cases overflows with
  | mk r due window storm plain full =>
    rename_i pid value nowMono nowEpoch
    rcases (evaluated (e := e) pid value nowMono nowEpoch).due due with ⟨inside, -, -⟩ | ⟨-, -, seq, queue⟩
    · exact absurd (window.symm.trans inside) (by decide)
    · rw [if_neg (fun room => absurd room.2 (Nat.not_lt.mpr full))] at queue
      refine ⟨seq, queue, fun batch leaves => ?_⟩
      rcases (leaves.at_once due).1 with calm | critical
      · exact absurd (storm.symm.trans calm) (by decide)
      · exact plain critical

/-- An alarm that is raised in silence waits in the queue, unless it overflows. -/
theorem queued_or_overflows [BEq K] (input : AlarmInput K) (silent : (e.step input).2 = [])
    (seq : (e.step input).1.alarmIdSeq = e.nextAlarmId) :
    (∃ ev, ev.id = e.nextAlarmId ∧ (e.step input).1.pendingStorm = e.pendingStorm ++ [ev]) ∨ e.Overflows input := by
  have drawn : (e.step input).1.alarmIdSeq ≠ e.alarmIdSeq := by
    rw [seq]
    exact Nat.succ_ne_self _
  cases input with
  | dataUpdated pid value nowMono nowEpoch =>
    have effect := evaluated (e := e) pid value nowMono nowEpoch
    cases effect with
    | raises r due window moves seq queue published =>
      have held : (e.isStormTriggered nowMono).stormActive = true ∧ r.level ≠ .critical := by
        by_contra told
        rw [if_neg told] at published
        have said : publish (e.raisedEvent pid r value nowEpoch) = [] := published.symm.trans silent
        simp [publish] at said
      by_cases room : e.pendingStorm.length < maxPendingStorm
      · rw [if_pos ⟨held.1, room⟩] at queue
        exact Or.inl ⟨_, rfl, queue⟩
      · exact Or.inr (.mk r due window held.1 held.2 (Nat.not_lt.mp room))
    | ignored unwatched same silent => exact absurd (congrArg (·.alarmIdSeq) same) drawn
    | recovers r watches on off elapsed alarming moves seq queue told => exact absurd seq drawn
    | waitsOn r watches on moves early quiet => exact absurd quiet.alarmIdSeq drawn
    | swallows r due window moves quiet => exact absurd quiet.alarmIdSeq drawn
    | waitsOff r watches on off early moves quiet => exact absurd quiet.alarmIdSeq drawn
    | calms r watches on off elapsed idle moves quiet => exact absurd quiet.alarmIdSeq drawn
    | between r watches on off moves quiet => exact absurd quiet.alarmIdSeq drawn
  | acknowledgeAlarm alarmId user => exact absurd (acknowledgeAlarm_frame alarmId user).2.2.1 drawn
  | acknowledgeAlarms ids user => exact absurd (acknowledgeAlarms_frame ids user).2.2.1 drawn
  | stormFlush nowMono =>
    refine absurd ?_ drawn
    rcases onStormFlush_cases (e := e) nowMono with ⟨-, same⟩ | ⟨-, active, rest, -, same⟩
    all_goals rw [step, same]
  | _ => exact absurd rfl drawn

end AlarmEngine

namespace AlarmSystem

/-- A state of a run over a directory with these tables: what is published has rows of its
own, what was there is as it was, and what is raised is published or waits in the queue. -/
structure Apart (cal : Calendar) (before : AlarmTables K) (s : AlarmSystem K) : Prop where
  stored : ∀ ev ∈ s.published, Stored cal s.store.tables ev
  unused : ∀ ev ∈ s.published, ∀ month, openAlarmTable cal ev.triggerTime = some month → before month ev.id = none
  kept : ∀ month id row, before month id = some row → s.store.tables month id = some row
  raised : ∀ id, id ≠ 0 → id ≤ s.engine.alarmIdSeq → ∃ ev ∈ s.published ++ s.engine.pendingStorm, ev.id = id

theorem apart_start (cal : Calendar) (before : AlarmTables K) : (start before).Apart cal before :=
  ⟨by simp [start], by simp [start], fun month id row present => present, fun id positive bound =>
    absurd (Nat.le_zero.mp bound) positive⟩

theorem Apart.persistent {cal : Calendar} {before : AlarmTables K} {s : AlarmSystem K} (apart : s.Apart cal before) :
    s.Persistent cal before :=
  ⟨apart.stored, fun month id row present => ⟨row, apart.kept month id row present, rfl⟩⟩

variable [LT K] [DecidableLT K] [BEq K] [ToString K]

/-- A row that changes is that of an alarm of this run, which the step recovers or acknowledges. -/
def MarksOwn (cal : Calendar) (s : AlarmSystem K) (input : AlarmInput K × (Nat → Nat)) : Prop :=
  ∀ month id row, s.store.tables month id = some row → (step cal s input).1.store.tables month id ≠ some row →
    (∃ x ∈ (step cal s input).2, x.Marks id) ∧
      ∃ ev ∈ (step cal s input).1.published, ev.id = id ∧ openAlarmTable cal ev.triggerTime = some month

/-- A whole run keeps to itself. -/
structure Isolated (cal : Calendar) (before : AlarmTables K) (inputs : List (AlarmInput K × (Nat → Nat))) : Prop where
  apart : ∀ s ∈ Runs.reached (step cal) (start before) inputs, s.Apart cal before
  marks : ∀ v ∈ Runs.visits (step cal) (start before) inputs, v.1.MarksOwn cal v.2

/-- What leaves the engine is accepted under ids that were free before the run, and finds room
if it has to wait. -/
structure Separate (cal : Calendar) (before : AlarmTables K) (s : AlarmSystem K) (input : AlarmInput K × (Nat → Nat)) :
    Prop where
  accepted : s.Admits cal input
  unused : ∀ batch, s.engine.Publishes input.1 batch → ∀ ev ∈ batch, ∀ month,
    openAlarmTable cal ev.triggerTime = some month → before month ev.id = none
  room : ¬s.engine.Overflows input.1

section Steps
variable {cal : Calendar} {before : AlarmTables K} {s : AlarmSystem K} {input : AlarmInput K × (Nat → Nat)}

/-- The store goes on knowing the alarms of this run only, so it can change no other row. -/
theorem told_step (told : AlarmRecordStore.Told s.store.triggerByAlarmId s.published) :
    AlarmRecordStore.Told (step cal s input).1.store.triggerByAlarmId (step cal s input).1.published ∧
      s.MarksOwn cal input := by
  have known : AlarmRecordStore.Told s.store.triggerByAlarmId (step cal s input).1.published :=
    told.mono fun ev => List.mem_append_left _
  have subset : ∀ x ∈ (s.engine.step input.1).2.zipIdx, ∀ ev ∈ x.1.events, ev ∈ (step cal s input).1.published := by
    intro x member ev said
    exact List.mem_append_right _ (List.mem_flatMap.mpr ⟨x.1, List.fst_mem_of_mem_zipIdx member, said⟩)
  obtain ⟨later, changes⟩ := AlarmRecordStore.foldl_changes cal input.2 known subset
  refine ⟨later, fun month id row present changed => ?_⟩
  obtain ⟨x, member, marks, own⟩ := changes month id row present changed
  exact ⟨⟨x.1, List.fst_mem_of_mem_zipIdx member, marks⟩, own⟩

/-- A step publishes one group that leaves the engine, or nothing. -/
theorem published_step (cal : Calendar) (numbered : s.Numbered) (input : AlarmInput K × (Nat → Nat))
    {ev : AlarmEvent K} :
    ev ∈ (step cal s input).1.published ↔
      ev ∈ s.published ∨ ∃ batch, s.engine.Publishes input.1 batch ∧ ev ∈ batch := by
  rcases step_stores cal numbered input with
    ⟨closed, -, published⟩ | ⟨batch, -, -, leaves, -, published⟩
  · rw [published]
    refine ⟨Or.inl, fun either => either.resolve_right ?_⟩
    rintro ⟨batch, out, -⟩
    exact closed batch out
  · rw [published, List.mem_append]
    refine or_congr Iff.rfl ⟨fun member => ⟨batch, (leaves batch).mpr rfl, member⟩, ?_⟩
    rintro ⟨other, out, member⟩
    exact (leaves other).mp out ▸ member

/-- Unless the queue overflows, every id that was ever drawn is published or waits. -/
theorem raised_step (cal : Calendar) (input : AlarmInput K × (Nat → Nat)) (room : ¬s.engine.Overflows input.1)
    (raised : ∀ id, id ≠ 0 → id ≤ s.engine.alarmIdSeq → ∃ ev ∈ s.published ++ s.engine.pendingStorm, ev.id = id)
    (id : Nat) (positive : id ≠ 0) (bound : id ≤ (step cal s input).1.engine.alarmIdSeq) :
    ∃ ev ∈ (step cal s input).1.published ++ (step cal s input).1.engine.pendingStorm, ev.id = id := by
  have effect := AlarmEngine.publication (e := s.engine) input.1
  rw [engine_step] at bound
  rw [events_step, engine_step]
  cases effect with
  | silent closed quiet seq queue =>
    rw [events_quiet quiet, List.append_nil, queue]
    exact raised id positive (seq ▸ bound)
  | deferred ev fresh closed quiet seq queue =>
    obtain ⟨x, named, longer⟩ := (AlarmEngine.queued_or_overflows input.1 quiet seq).resolve_right room
    rw [quiet, List.flatMap_nil, List.append_nil, longer, ← List.append_assoc]
    rw [seq, ← named] at bound
    by_cases own : x.id = id
    · exact ⟨x, List.mem_append_right _ (List.mem_singleton_self x), own⟩
    · have older : id ≤ s.engine.alarmIdSeq := by
        rw [AlarmEngine.nextAlarmId] at named
        omega
      obtain ⟨y, member, facts⟩ := raised id positive older
      exact ⟨y, List.mem_append_left _ member, facts⟩
  | alone ev fresh leaves told seq queue =>
    rw [told, events_publish]
    by_cases own : ev.id = id
    · exact ⟨ev, List.mem_append_left _ (List.mem_append_right _ (List.mem_singleton_self ev)), own⟩
    · have older : id ≤ s.engine.alarmIdSeq := by
        rw [seq] at bound
        rw [AlarmEngine.nextAlarmId] at fresh bound
        omega
      obtain ⟨y, member, facts⟩ := raised id positive older
      refine ⟨y, ?_, facts⟩
      rcases List.mem_append.mp member with said | waiting
      · exact List.mem_append_left _ (List.mem_append_left _ said)
      · rcases queue with same | longer
        · exact List.mem_append_right _ (same ▸ waiting)
        · exact List.mem_append_right _ (longer ▸ List.mem_append_left _ waiting)
  | flushed waiting leaves total dropped rest told ended seq queue =>
    rw [told, events_storm ended, queue, List.append_nil]
    exact raised id positive (seq ▸ bound)

theorem apart_step (numbered : s.Numbered) (told : AlarmRecordStore.Told s.store.triggerByAlarmId s.published)
    (apart : s.Apart cal before) (separate : s.Separate cal before input) : (step cal s input).1.Apart cal before := by
  have unused : ∀ ev ∈ (step cal s input).1.published, ∀ month, openAlarmTable cal ev.triggerTime = some month →
      before month ev.id = none := by
    intro ev member
    rcases (published_step cal numbered input).mp member with old | ⟨batch, out, new⟩
    · exact apart.unused ev old
    · exact separate.unused batch out ev new
  refine ⟨(persistent_step numbered apart.persistent input separate.accepted).stored, unused, ?_,
    raised_step cal input separate.room apart.raised⟩
  intro month id row present
  by_contra changed
  obtain ⟨-, ev, member, rfl, named⟩ := (told_step told).2 month id row (apart.kept month id row present) changed
  exact absurd (present.symm.trans (unused ev member month named)) (by simp)

theorem unseparated_step (numbered : s.Numbered) (refused : ¬s.Separate cal before input) :
    ¬(step cal s input).1.Apart cal before := by
  intro apart
  have accepted : s.Admits cal input := by
    by_contra refuses
    exact refused_step numbered input refuses apart.persistent
  refine refused ⟨accepted, fun batch out ev member => ?_, fun overflows => ?_⟩
  · exact apart.unused ev ((published_step cal numbered input).mpr (Or.inr ⟨batch, out, member⟩))
  · obtain ⟨seq, queue, closed⟩ := overflows.lost
    have drawn : (step cal s input).1.engine.alarmIdSeq = s.engine.nextAlarmId := seq
    obtain ⟨ev, member, named⟩ := apart.raised s.engine.nextAlarmId (Nat.succ_ne_zero _) drawn.ge
    have older : ev ∈ s.published ++ s.engine.pendingStorm := by
      rcases List.mem_append.mp member with said | waiting
      · rcases (published_step cal numbered input).mp said with old | ⟨batch, out, -⟩
        · exact List.mem_append_left _ old
        · exact absurd out (closed batch)
      · exact List.mem_append_right _ (queue ▸ waiting)
    have bound := numbered.bound ev older
    rw [named, AlarmEngine.nextAlarmId] at bound
    omega

end Steps

/-- One run keeps to itself exactly when everything it publishes is separate from what was there. -/
theorem isolated_iff (cal : Calendar) (before : AlarmTables K) (inputs : List (AlarmInput K × (Nat → Nat))) :
    Isolated cal before inputs ↔
      ∀ v ∈ Runs.visits (step cal) (start before) inputs, v.1.Separate cal before v.2 := by
  have known : (start before).Numbered ∧
      AlarmRecordStore.Told (start before).store.triggerByAlarmId (start before).published :=
    ⟨numbered_start, fun id t unknown => by cases unknown⟩
  have keeps : ∀ (s : AlarmSystem K) (input : AlarmInput K × (Nat → Nat)),
      s.Numbered ∧ AlarmRecordStore.Told s.store.triggerByAlarmId s.published → (step cal s input).1.Numbered ∧
        AlarmRecordStore.Told (step cal s input).1.store.triggerByAlarmId (step cal s input).1.published :=
    fun s input both => ⟨numbered_step cal both.1 input, (told_step both.2).1⟩
  have exact_ := Runs.reached_iff (step cal) inputs (J := Apart cal before) (A := Separate cal before) known keeps
    (apart_start cal before) (fun s apart => apart)
    (fun s input both apart separate => apart_step both.1 both.2 apart separate)
    (fun s input both _ refused => unseparated_step both.1 refused)
  refine ⟨fun isolated => exact_.mp isolated.apart, fun separate => ⟨exact_.mpr separate, fun v visited => ?_⟩⟩
  have both := Runs.reached_always (step cal) inputs known keeps v.1 (Runs.visit_mem_reached visited).1
  exact (told_step both.2).2

/-- A whole run of the process as one step of the data directory. -/
def processRun (cal : Calendar) : Runs.Step (AlarmTables K) (List (AlarmInput K × (Nat → Nat))) (AlarmSignal K) :=
  fun before inputs =>
    ((Runs.run (step cal) (start before) inputs).store.tables, Runs.outputs (step cal) (start before) inputs)

/-- Runs on one data directory keep apart exactly when everything that any of them publishes is
separate from what was there when it started. -/
theorem isolation_iff (cal : Calendar) (before : AlarmTables K) (runs : List (List (AlarmInput K × (Nat → Nat)))) :
    (∀ v ∈ Runs.visits (processRun cal) before runs, Isolated cal v.1 v.2) ↔
      ∀ v ∈ Runs.visits (processRun cal) before runs, ∀ w ∈ Runs.visits (step cal) (start v.1) v.2,
        w.1.Separate cal v.1 w.2 :=
  forall₂_congr fun v _ => isolated_iff cal v.1 v.2

/-- A run in which one alarm is raised. -/
def oneAlarm : List (AlarmInput Int × (Nat → Nat)) :=
  [.reloadRules [{ pointId := 1, onThreshold := 10, offThreshold := 5, onDelayMs := 0 }],
    .dataUpdated 1 20 100000 1767312000000].map (fun input => (input, fun _ => 1767312000200))

/-- The second run of a month draws the id of the first one again, and its row is refused. -/
theorem isolation_fails : ¬∀ v ∈ Runs.visits (processRun oneMonth) (fun _ _ => none) [oneAlarm, oneAlarm],
    Isolated oneMonth v.1 v.2 := by
  intro isolated
  have second := isolated ((processRun oneMonth (fun _ _ => none) oneAlarm).1, oneAlarm)
    (List.mem_cons_of_mem _ (List.mem_singleton_self _))
  have apart := second.apart _ Runs.run_mem_reached
  have raised : ∃ ev ∈ (Runs.run (step oneMonth) (start (processRun oneMonth (fun _ _ => none) oneAlarm).1)
      oneAlarm).published, openAlarmTable oneMonth ev.triggerTime = some "202601" ∧ ev.id = 1 := by decide +kernel
  obtain ⟨ev, member, named, first⟩ := raised
  have free := apart.unused ev member "202601" named
  have taken : (processRun oneMonth (fun _ _ => none) oneAlarm).1 "202601" 1 ≠ none := by decide +kernel
  exact taken (first ▸ free)

end AlarmSystem
end EnerSentry.Business
