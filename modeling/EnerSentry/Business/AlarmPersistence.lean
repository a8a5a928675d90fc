import EnerSentry.Business.AlarmTransitions
import EnerSentry.Business.AlarmRecordStore

/-!
Whether the alarms that are published also reach the tables. An alarm leaves the engine
alone or in a storm batch, a critical one of a storm by both routes, and a batch is one
transaction in the month of its first alarm. A run keeps every alarm exactly when each
group that leaves finds one open table for all of it, with free ids, or is stored already.
-/

namespace EnerSentry.Business
open EnerSentry.Lib EnerSentry.Datahub

variable {K : Type*} [Zero K]

section Tables
variable (cal : Calendar)

/-- The alarm has its row in the table of its own month and in no other table. -/
def Stored (db : AlarmTables K) (ev : AlarmEvent K) : Prop :=
  ∃ month row, openAlarmTable cal ev.triggerTime = some month ∧ db month ev.id = some row ∧
    row.blank = toActiveRecord ev ∧
    ∀ m row', db m ev.id = some row' → row'.blank = toActiveRecord ev → m = month

/-- The alarms of a group belong into one open table, where their ids are free, and have
no row elsewhere; or all of them are stored already. -/
def Accepts (db : AlarmTables K) (batch : List (AlarmEvent K)) : Prop :=
  (∃ month, ∀ ev ∈ batch, openAlarmTable cal ev.triggerTime = some month ∧ db month ev.id = none ∧
    ∀ m row, db m ev.id = some row → row.blank ≠ toActiveRecord ev) ∨ ∀ ev ∈ batch, Stored cal db ev

variable {cal} {db db' : AlarmTables K} {ev : AlarmEvent K} {batch : List (AlarmEvent K)}

theorem blank_toActiveRecord (ev : AlarmEvent K) : (toActiveRecord ev).blank = toActiveRecord ev := rfl

theorem admissible_toActiveRecord (ev : AlarmEvent K) : (toActiveRecord ev).admissible = true := by
  cases level : ev.level <;> simp [AlarmRecord.admissible, toActiveRecord, level, AlarmLevel.toInt]

theorem Stored.of_same (stored : Stored cal db ev) (same : RowsSame db db') : Stored cal db' ev := by
  obtain ⟨month, row, named, present, own, only⟩ := stored
  obtain ⟨row', present', blank⟩ := same.kept month ev.id row present
  refine ⟨month, row', named, present', blank.trans own, fun m x found records => ?_⟩
  have before := same m ev.id
  rw [found, Option.map_some] at before
  obtain ⟨y, old, twin⟩ := Option.map_eq_some_iff.mp before.symm
  exact only m y old (twin.trans records)

/-- The rows of a batch go in together when its alarms belong into one table with free ids. -/
theorem insertAll_records {month : String} (distinct : (batch.map (·.id)).Nodup)
    (free : ∀ ev ∈ batch, db month ev.id = none) :
    ∃ table, KeyedTable.insertAll (·.id) AlarmRecord.admissible (db month) (batch.map toActiveRecord) =
      some table := by
  rw [← Option.isSome_iff_exists, KeyedTable.insertAll_isSome_iff]
  refine ⟨?_, ?_, ?_⟩
  · rw [List.forall_mem_map]
    exact fun ev _ => admissible_toActiveRecord ev
  · rw [List.forall_mem_map]
    exact free
  · rw [List.map_map]
    exact distinct

/-- What a transaction in the table of one month leaves to be found under an id. -/
theorem insertAlarmRecords_of_accepted {month : String} (filled : batch ≠ [])
    (distinct : (batch.map (·.id)).Nodup)
    (named : ∀ ev ∈ batch, openAlarmTable cal ev.triggerTime = some month)
    (free : ∀ ev ∈ batch, db month ev.id = none) :
    ∃ table, KeyedTable.insertAll (·.id) AlarmRecord.admissible (db month) (batch.map toActiveRecord) =
      some table ∧
      (insertAlarmRecords cal db (batch.map toActiveRecord)).1 = Function.update db month table := by
  obtain ⟨table, done⟩ := insertAll_records distinct free
  cases batch with
  | nil => exact absurd rfl filled
  | cons front rest =>
    refine ⟨table, done, ?_⟩
    rcases insertAlarmRecords_cases cal db (toActiveRecord front) (rest.map toActiveRecord) rfl with
      ⟨-, refused⟩ | ⟨m, t, opened, went, after⟩
    · rw [List.map_cons] at done
      rw [refused month (named front (List.mem_cons_self ..))] at done
      cases done
    · have same : m = month := Option.some.inj (opened.symm.trans (named front (List.mem_cons_self ..)))
      subst same
      rw [List.map_cons] at done ⊢
      rw [after, Option.some.inj (went.symm.trans done)]

/-- A group that is stored already is not stored again. -/
theorem insertAlarmRecords_stored (filled : batch ≠ []) (stored : ∀ ev ∈ batch, Stored cal db ev) :
    (insertAlarmRecords cal db (batch.map toActiveRecord)).1 = db := by
  cases batch with
  | nil => exact absurd rfl filled
  | cons front rest =>
    rw [List.map_cons]
    rcases insertAlarmRecords_cases cal db (toActiveRecord front) (rest.map toActiveRecord) rfl with
      ⟨same, -⟩ | ⟨m, t, opened, went, -⟩
    · exact same
    · obtain ⟨month, row, named, present, -, -⟩ := stored front (List.mem_cons_self ..)
      have same : m = month := Option.some.inj (opened.symm.trans named)
      subst same
      have free := (KeyedTable.insertAll_cons.mp went).2.1
      exact absurd (present.symm.trans free) (Option.some_ne_none row)

section Inserted
variable {month : String} {table : KeyedTable.Table Nat (AlarmRecord K)}

/-- An alarm whose group went in has its one row, in the table of its month. -/
theorem stored_of_inserted
    (done : KeyedTable.insertAll (·.id) AlarmRecord.admissible (db month) (batch.map toActiveRecord) = some table)
    (inside : ev ∈ batch) (named : openAlarmTable cal ev.triggerTime = some month)
    (nowhere : ∀ m row, db m ev.id = some row → row.blank ≠ toActiveRecord ev) :
    Stored cal (Function.update db month table) ev := by
  refine ⟨month, toActiveRecord ev, named, ?_, blank_toActiveRecord ev, ?_⟩
  · rw [Function.update_self]
    exact KeyedTable.insertAll_mem done (List.mem_map_of_mem inside)
  · intro m x found records
    by_contra elsewhere
    rw [Function.update_of_ne elsewhere] at found
    exact nowhere m x found records

/-- An alarm that was stored stays stored when a group goes in that has no twin of it. -/
theorem Stored.of_inserted (stored : Stored cal db ev)
    (done : KeyedTable.insertAll (·.id) AlarmRecord.admissible (db month) (batch.map toActiveRecord) = some table)
    (twinless : ∀ ev' ∈ batch, ev'.id = ev.id → ∀ m row, db m ev.id = some row → row.blank ≠ toActiveRecord ev) :
    Stored cal (Function.update db month table) ev := by
  obtain ⟨home, row, named, present, records, only⟩ := stored
  refine ⟨home, row, named, ?_, records, ?_⟩
  · by_cases here : home = month
    · subst here
      rw [Function.update_self]
      exact KeyedTable.insertAll_keeps done present
    · rw [Function.update_of_ne here]
      exact present
  · intro m x found twin
    by_cases here : m = month
    · subst here
      rw [Function.update_self] at found
      rcases (KeyedTable.insertAll_row_iff done).mp found with old | ⟨member, key⟩
      · exact only m x old twin
      · obtain ⟨ev', inBatch, rfl⟩ := List.mem_map.mp member
        exact absurd records (twinless ev' inBatch key home row present)
    · rw [Function.update_of_ne here] at found
      exact only m x found twin

end Inserted

/-- An accepted group is stored as a whole, and an alarm stored before stays stored. -/
theorem Accepts.stored (accepts : Accepts cal db batch) (filled : batch ≠ [])
    (distinct : (batch.map (·.id)).Nodup) (own : ∀ x ∈ batch, x.id = ev.id → x = ev)
    (covered : ev ∈ batch ∨ Stored cal db ev) :
    Stored cal (insertAlarmRecords cal db (batch.map toActiveRecord)).1 ev := by
  rcases accepts with ⟨month, all⟩ | already
  · obtain ⟨table, done, after⟩ := insertAlarmRecords_of_accepted filled distinct
      (fun x member => (all x member).1) (fun x member => (all x member).2.1)
    rw [after]
    rcases covered with inside | stored
    · obtain ⟨named, -, nowhere⟩ := all ev inside
      exact stored_of_inserted done inside named nowhere
    · apply stored.of_inserted done
      intro ev' inBatch same
      obtain rfl := own ev' inBatch same
      exact (all ev' inBatch).2.2
  · rw [insertAlarmRecords_stored filled already]
    exact covered.elim (already ev) id

/-- A group that is stored after its transaction was accepted. -/
theorem accepts_of_stored (filled : batch ≠ [])
    (stored : ∀ ev ∈ batch, Stored cal (insertAlarmRecords cal db (batch.map toActiveRecord)).1 ev) :
    Accepts cal db batch := by
  obtain ⟨front, rest, rfl⟩ := List.exists_cons_of_ne_nil filled
  rw [List.map_cons] at stored
  rcases insertAlarmRecords_cases cal db (toActiveRecord front) (rest.map toActiveRecord) rfl with
    ⟨same, -⟩ | ⟨month, table, -, done, after⟩
  · rw [same] at stored
    exact Or.inr stored
  · rw [after] at stored
    refine Or.inl ⟨month, fun ev member => ?_⟩
    rw [← List.map_cons] at done
    have placed : Function.update db month table month ev.id = some (toActiveRecord ev) := by
      rw [Function.update_self]
      exact KeyedTable.insertAll_mem done (List.mem_map_of_mem member)
    have free : db month ev.id = none :=
      (KeyedTable.insertAll_isSome_iff.mp (by rw [done]; rfl)).2.1 _ (List.mem_map_of_mem member)
    obtain ⟨home, row, named, -, -, only⟩ := stored ev member
    have here : month = home := only month _ placed (blank_toActiveRecord ev)
    refine ⟨here ▸ named, free, fun m x found twin => ?_⟩
    have elsewhere : m ≠ month := by
      rintro rfl
      exact absurd (found.symm.trans free) (Option.some_ne_none x)
    refine elsewhere ((only m x ?_ twin).trans here.symm)
    rw [Function.update_of_ne elsewhere]
    exact found

end Tables

namespace AlarmEngine
theorem queue_cases {d e : AlarmEngine K} {ev : AlarmEvent K} {p : Prop} [Decidable p]
    (queue : d.pendingStorm = if p then e.pendingStorm ++ [ev] else e.pendingStorm) :
    d.pendingStorm = e.pendingStorm ∨ d.pendingStorm = e.pendingStorm ++ [ev] := by
  split at queue
  · exact Or.inr queue
  · exact Or.inl queue

variable [LT K] [DecidableLT K] [ToString K]

/-- The groups in which alarms leave the engine: a raise outside a storm or of a critical
alarm, and the queue of a storm when it is flushed. -/
inductive Publishes (e : AlarmEngine K) : AlarmInput K → List (AlarmEvent K) → Prop
  | alone {pid : UInt32} {value : K} {nowMono : Int} {nowEpoch : Nat} (r : AlarmRule K)
      (due : e.Due pid value nowMono r) (window : (e.stateOf pid).suppressed r nowMono = false)
      (route : (e.isStormTriggered nowMono).stormActive = false ∨ r.level = .critical) :
      e.Publishes (.dataUpdated pid value nowMono nowEpoch) [e.raisedEvent pid r value nowEpoch]
  | queued {nowMono : Int} (storm : e.stormActive = true) (waiting : e.pendingStorm ≠ []) :
      e.Publishes (.stormFlush nowMono) e.pendingStorm

/-- What a step publishes, and what it does to the queue and the id counter. -/
inductive Publication (e : AlarmEngine K) (input : AlarmInput K) (d : AlarmEngine K)
    (signals : List (AlarmSignal K)) : Prop
  | silent (closed : ∀ batch, ¬e.Publishes input batch) (quiet : ∀ x ∈ signals, x.events = [])
      (seq : d.alarmIdSeq = e.alarmIdSeq) (queue : d.pendingStorm = e.pendingStorm)
  | deferred (ev : AlarmEvent K) (fresh : ev.id = e.nextAlarmId) (closed : ∀ batch, ¬e.Publishes input batch)
      (quiet : signals = []) (seq : d.alarmIdSeq = e.nextAlarmId)
      (queue : d.pendingStorm = e.pendingStorm ∨ d.pendingStorm = e.pendingStorm ++ [ev])
  | alone (ev : AlarmEvent K) (fresh : ev.id = e.nextAlarmId)
      (leaves : ∀ batch, e.Publishes input batch ↔ batch = [ev]) (told : signals = publish ev)
      (seq : d.alarmIdSeq = e.nextAlarmId)
      (queue : d.pendingStorm = e.pendingStorm ∨ d.pendingStorm = e.pendingStorm ++ [ev])
  | flushed (waiting : e.pendingStorm ≠ [])
      (leaves : ∀ batch, e.Publishes input batch ↔ batch = e.pendingStorm)
      (total dropped : Nat) (rest : List (AlarmSignal K))
      (told : signals = .alarmStormTriggered total dropped e.pendingStorm :: rest)
      (ended : rest = [] ∨ rest = [.alarmStormCleared])
      (seq : d.alarmIdSeq = e.alarmIdSeq) (queue : d.pendingStorm = [])

variable {e : AlarmEngine K}

/-- What leaves at a sample that is due is its alarm, of no storm or critical. -/
theorem Publishes.at_once {pid : UInt32} {value : K} {nowMono : Int} {nowEpoch : Nat} {batch : List (AlarmEvent K)}
    (leaves : e.Publishes (.dataUpdated pid value nowMono nowEpoch) batch) {r : AlarmRule K}
    (due : e.Due pid value nowMono r) : ((e.isStormTriggered nowMono).stormActive = false ∨ r.level = .critical) ∧
      batch = [e.raisedEvent pid r value nowEpoch] := by
  cases leaves with
  | alone r' due' window route =>
    rw [due'.watches.unique due.watches] at route ⊢
    exact ⟨route, rfl⟩

theorem publication_sample (pid : UInt32) (value : K) (nowMono : Int) (nowEpoch : Nat) :
    Publication e (.dataUpdated pid value nowMono nowEpoch) (e.evaluate pid value nowMono nowEpoch).1
      (e.evaluate pid value nowMono nowEpoch).2 := by
  have effect := evaluated (e := e) pid value nowMono nowEpoch
  generalize e.evaluate pid value nowMono nowEpoch = result at effect
  obtain ⟨d, signals⟩ := result
  -- A sample that issues no id meets no completed delay outside the window.
  have closed (seq : d.alarmIdSeq = e.alarmIdSeq) (batch : List (AlarmEvent K)) :
      ¬e.Publishes (.dataUpdated pid value nowMono nowEpoch) batch := by
    intro leaves
    cases leaves with
    | alone r due window route =>
      rcases effect.due due with ⟨inside, -, -⟩ | ⟨-, -, issued, -⟩
      · exact absurd (window.symm.trans inside) (by decide)
      · rw [seq, nextAlarmId] at issued
        omega
  have calm (quiet : Quiet e d signals) : Publication e (.dataUpdated pid value nowMono nowEpoch) d signals :=
    .silent (closed quiet.alarmIdSeq) (by simp [quiet.signals]) quiet.alarmIdSeq quiet.pendingStorm
  cases effect with
  | ignored unwatched same silent => exact calm ⟨congrArg _ same, congrArg _ same, silent⟩
  | waitsOn r watches on moves early quiet => exact calm quiet
  | swallows r due window moves quiet => exact calm quiet
  | raises r due window moves seq queue published =>
    by_cases held : (e.isStormTriggered nowMono).stormActive = true ∧ r.level ≠ .critical
    · rw [if_pos held] at published
      refine .deferred (e.raisedEvent pid r value nowEpoch) rfl (fun batch leaves => ?_) published seq
        (queue_cases queue)
      rcases (leaves.at_once due).1 with calm | critical
      · exact absurd (held.1.symm.trans calm) (by decide)
      · exact held.2 critical
    · rw [if_neg held] at published
      have route : (e.isStormTriggered nowMono).stormActive = false ∨ r.level = .critical := by
        rcases not_and_or.mp held with calm | critical
        · exact Or.inl (Bool.not_eq_true _ ▸ calm)
        · exact Or.inr (not_not.mp critical)
      refine .alone (e.raisedEvent pid r value nowEpoch) rfl (fun batch => ⟨fun leaves => ?_, ?_⟩) published seq
        (queue_cases queue)
      · exact (leaves.at_once due).2
      · rintro rfl
        exact .alone r due window route
  | waitsOff r watches on off early moves quiet => exact calm quiet
  | calms r watches on off elapsed idle moves quiet => exact calm quiet
  | recovers r watches on off elapsed alarming moves seq queue told =>
    refine .silent (closed seq) ?_ seq queue
    rw [told]
    simp [AlarmSignal.events]
  | between r watches on off moves quiet => exact calm quiet

variable [BEq K]

/-- A flush gives the whole queue away, unless the storm is over or nothing waits. -/
theorem publication_flush (nowMono : Int) :
    Publication e (.stormFlush nowMono) (e.step (.stormFlush nowMono)).1 (e.step (.stormFlush nowMono)).2 := by
  rcases onStormFlush_cases (e := e) nowMono with ⟨unserved, same⟩ | ⟨⟨storm, waiting⟩, active, rest, ended, same⟩
  · rw [step, same]
    refine .silent (fun batch leaves => ?_) (by simp) rfl rfl
    cases leaves with
    | queued storm waiting => exact unserved ⟨storm, waiting⟩
  · have leaves (batch : List (AlarmEvent K)) :
        e.Publishes (.stormFlush nowMono) batch ↔ batch = e.pendingStorm :=
      ⟨fun leaves => by cases leaves; rfl, by rintro rfl; exact .queued storm waiting⟩
    rw [step, same]
    exact .flushed waiting leaves _ _ _ rfl ended rfl rfl

theorem publication (input : AlarmInput K) : Publication e input (e.step input).1 (e.step input).2 := by
  cases input with
  | dataUpdated pid value nowMono nowEpoch => exact publication_sample pid value nowMono nowEpoch
  | reloadRules rules =>
    refine .silent (fun batch leaves => by cases leaves) ?_ rfl rfl
    simp only [step, doReloadRules, List.forall_mem_map]
    exact fun _ _ => rfl
  | suppressPoint pointId expireTimeEpoch nowEpoch =>
    exact .silent (fun batch leaves => by cases leaves) (by simp [step]) rfl rfl
  | unsuppressPoint pointId => exact .silent (fun batch leaves => by cases leaves) (by simp [step]) rfl rfl
  | setStormConfig cfg => exact .silent (fun batch leaves => by cases leaves) (by simp [step]) rfl rfl
  | acknowledgeAlarm alarmId user =>
    obtain ⟨-, queue, seq, -⟩ := acknowledgeAlarm_frame (e := e) alarmId user
    refine .silent (fun batch leaves => by cases leaves) ?_ seq queue
    simp [step, acknowledgeAlarm_signals, AlarmSignal.events]
  | acknowledgeAlarms ids user =>
    obtain ⟨-, queue, seq, -⟩ := acknowledgeAlarms_frame (e := e) ids user
    refine .silent (fun batch leaves => by cases leaves) ?_ seq queue
    simp only [step, acknowledgeAlarms_signals, List.forall_mem_map]
    exact fun _ _ => rfl
  | stormFlush nowMono => exact publication_flush nowMono

end AlarmEngine

namespace AlarmRecordStore
variable {cal : Calendar} {s : AlarmRecordStore K}

/-- A signal without alarms only marks rows as recovered or confirmed. -/
theorem receive_same (now : Nat) {x : AlarmSignal K} (quiet : x.events = []) :
    RowsSame s.tables (s.receive cal now x).tables := by
  cases x with
  | alarmTriggered ev => simp [AlarmSignal.events] at quiet
  | alarmRecovered alarmId =>
    simp only [receive, onAlarmRecovered]
    split
    · exact RowsSame.refl _
    · exact setAlarmRecovered_same
  | alarmAcknowledged alarmId user =>
    simp only [receive, onAlarmAcknowledged]
    split
    · exact RowsSame.refl _
    · exact setAlarmConfirmed_same
  | blackBoxRequested pointId alarmTimeEpoch level => exact RowsSame.refl _
  | alarmStormTriggered total dropped samples =>
    have none : samples = [] := quiet
    simp only [receive, onStormBatch, none]
    exact RowsSame.refl _
  | alarmStormCleared => exact RowsSame.refl _

theorem foldl_same (clock : Nat → Nat) (signals : List (AlarmSignal K × Nat))
    (quiet : ∀ x ∈ signals, x.1.events = []) :
    RowsSame s.tables (signals.foldl (fun s x => s.receive cal (clock x.2) x.1) s).tables := by
  induction signals generalizing s with
  | nil => exact RowsSame.refl _
  | cons x signals ih =>
    rw [List.foldl_cons]
    exact (receive_same _ (quiet x (List.mem_cons_self ..))).trans
      (ih fun y member => quiet y (List.mem_cons_of_mem _ member))

theorem receiveAll_same (clock : Nat → Nat) {signals : List (AlarmSignal K)}
    (quiet : ∀ x ∈ signals, x.events = []) : RowsSame s.tables (s.receiveAll cal clock signals).tables :=
  foldl_same clock signals.zipIdx fun x member => quiet x.1 (List.fst_mem_of_mem_zipIdx member)

theorem receiveAll_publish (clock : Nat → Nat) (ev : AlarmEvent K) :
    (s.receiveAll cal clock (AlarmEngine.publish ev)).tables =
      (insertAlarmRecords cal s.tables [toActiveRecord ev]).1 := by
  unfold AlarmEngine.publish
  split <;> rfl

theorem receiveAll_storm (clock : Nat → Nat) {total dropped : Nat} {batch : List (AlarmEvent K)}
    {rest : List (AlarmSignal K)} (filled : batch ≠ []) (ended : rest = [] ∨ rest = [.alarmStormCleared]) :
    (s.receiveAll cal clock (.alarmStormTriggered total dropped batch :: rest)).tables =
      (insertAlarmRecords cal s.tables (batch.map toActiveRecord)).1 := by
  have alone : (s.onStormBatch cal batch).tables =
      (insertAlarmRecords cal s.tables (batch.map toActiveRecord)).1 := by
    simp [onStormBatch, wrote, filled]
  rcases ended with rfl | rfl <;> exact alone

end AlarmRecordStore

namespace AlarmSystem

/-- Ids are issued once: two published or waiting alarms with one id are one alarm. -/
structure Numbered (s : AlarmSystem K) : Prop where
  bound : ∀ ev ∈ s.published ++ s.engine.pendingStorm, ev.id ≤ s.engine.alarmIdSeq
  unique : ∀ ev ∈ s.published ++ s.engine.pendingStorm, ∀ ev' ∈ s.published ++ s.engine.pendingStorm,
    ev.id = ev'.id → ev = ev'
  queue : (s.engine.pendingStorm.map (·.id)).Nodup

/-- Every published alarm has exactly its one row, and no row of before the run is lost. -/
structure Persistent (cal : Calendar) (before : AlarmTables K) (s : AlarmSystem K) : Prop where
  stored : ∀ ev ∈ s.published, Stored cal s.store.tables ev
  kept : RowsKept before s.store.tables

section Numbering
variable {s : AlarmSystem K} {before : AlarmTables K}

/-- Alarms that come from the run so far, but for one with the next id. -/
theorem Numbered.extend {d : AlarmSystem K} (numbered : s.Numbered) {ev : AlarmEvent K}
    (fresh : ev.id = s.engine.nextAlarmId) (seq : d.engine.alarmIdSeq = s.engine.nextAlarmId)
    (from_run : ∀ x ∈ d.published ++ d.engine.pendingStorm,
      x ∈ s.published ++ s.engine.pendingStorm ∨ x = ev)
    (queue : d.engine.pendingStorm = s.engine.pendingStorm ∨ d.engine.pendingStorm = s.engine.pendingStorm ++ [ev]) :
    d.Numbered := by
  have older : ∀ x ∈ s.published ++ s.engine.pendingStorm, x.id ≠ ev.id := by
    intro x member same
    have bound := numbered.bound x member
    rw [same, fresh, AlarmEngine.nextAlarmId] at bound
    omega
  constructor
  · intro x member
    rw [seq, AlarmEngine.nextAlarmId]
    rcases from_run x member with old | rfl
    · exact Nat.le_succ_of_le (numbered.bound x old)
    · exact fresh.le
  · intro x member y other same
    rcases from_run x member with old | rfl
    · rcases from_run y other with old' | rfl
      · exact numbered.unique x old y old' same
      · exact absurd same (older x old)
    · rcases from_run y other with old' | rfl
      · exact absurd same.symm (older y old')
      · rfl
  · rcases queue with same | longer
    · rw [same]
      exact numbered.queue
    · rw [longer, List.map_append]
      apply numbered.queue.append (List.nodup_singleton _)
      intro id inQueue isNew
      obtain ⟨x, member, rfl⟩ := List.mem_map.mp inQueue
      exact older x (List.mem_append_right _ member) (List.mem_singleton.mp isNew)

/-- Alarms that come from the run so far. -/
theorem Numbered.restrict {d : AlarmSystem K} (numbered : s.Numbered)
    (seq : d.engine.alarmIdSeq = s.engine.alarmIdSeq)
    (from_run : ∀ x ∈ d.published ++ d.engine.pendingStorm, x ∈ s.published ++ s.engine.pendingStorm)
    (queue : (d.engine.pendingStorm.map (·.id)).Nodup) : d.Numbered :=
  ⟨fun x member => seq ▸ numbered.bound x (from_run x member),
    fun x member y other => numbered.unique x (from_run x member) y (from_run y other), queue⟩

theorem numbered_start : (start before).Numbered := ⟨by simp [start], by simp [start], by simp [start]⟩

theorem events_quiet {signals : List (AlarmSignal K)} (quiet : ∀ x ∈ signals, x.events = []) :
    signals.flatMap AlarmSignal.events = [] := by
  rw [List.flatMap_eq_nil_iff]
  exact quiet

theorem events_publish (ev : AlarmEvent K) : (AlarmEngine.publish ev).flatMap AlarmSignal.events = [ev] := by
  unfold AlarmEngine.publish
  split <;> rfl

theorem events_storm {total dropped : Nat} {batch : List (AlarmEvent K)} {rest : List (AlarmSignal K)}
    (ended : rest = [] ∨ rest = [.alarmStormCleared]) :
    (AlarmSignal.alarmStormTriggered total dropped batch :: rest).flatMap AlarmSignal.events = batch := by
  rcases ended with rfl | rfl <;> simp [AlarmSignal.events]

end Numbering

variable [LT K] [DecidableLT K] [BEq K] [ToString K]

/-- The groups that leave the engine with this input are accepted by the tables. -/
def Admits (cal : Calendar) (s : AlarmSystem K) (input : AlarmInput K × (Nat → Nat)) : Prop :=
  ∀ batch, s.engine.Publishes input.1 batch → Accepts cal s.store.tables batch

variable {cal : Calendar} {s : AlarmSystem K} {before : AlarmTables K}

theorem engine_step (cal : Calendar) (s : AlarmSystem K) (input : AlarmInput K × (Nat → Nat)) :
    (step cal s input).1.engine = (s.engine.step input.1).1 := rfl

theorem events_step (cal : Calendar) (s : AlarmSystem K) (input : AlarmInput K × (Nat → Nat)) :
    (step cal s input).1.published = s.published ++ (s.engine.step input.1).2.flatMap AlarmSignal.events := rfl

theorem store_step (cal : Calendar) (s : AlarmSystem K) (input : AlarmInput K × (Nat → Nat)) :
    (step cal s input).1.store = s.store.receiveAll cal input.2 (s.engine.step input.1).2 := rfl

theorem numbered_step (cal : Calendar) (numbered : s.Numbered) (input : AlarmInput K × (Nat → Nat)) :
    (step cal s input).1.Numbered := by
  have published := events_step cal s input
  have effect := AlarmEngine.publication (e := s.engine) input.1
  rw [← engine_step cal s input] at effect
  cases effect with
  | silent closed quiet seq queue =>
    rw [events_quiet quiet, List.append_nil] at published
    apply numbered.restrict seq
    · rw [published, queue]
      exact fun x member => member
    · rw [queue]
      exact numbered.queue
  | deferred ev fresh closed quiet seq queue =>
    rw [quiet, List.flatMap_nil, List.append_nil] at published
    refine numbered.extend fresh seq (fun x member => ?_) queue
    rw [published] at member
    rcases queue with same | longer
    · exact Or.inl (same ▸ member)
    · rw [longer, ← List.append_assoc] at member
      exact (List.mem_append.mp member).imp id List.mem_singleton.mp
  | alone ev fresh leaves told seq queue =>
    rw [told, events_publish] at published
    refine numbered.extend fresh seq (fun x member => ?_) queue
    rw [published] at member
    rcases List.mem_append.mp member with said | waiting
    · rcases List.mem_append.mp said with old | new
      · exact Or.inl (List.mem_append_left _ old)
      · exact Or.inr (List.mem_singleton.mp new)
    · rcases queue with same | longer
      · exact Or.inl (List.mem_append_right _ (same ▸ waiting))
      · rw [longer] at waiting
        exact (List.mem_append.mp waiting).imp (List.mem_append_right _) List.mem_singleton.mp
  | flushed waiting leaves total dropped rest told ended seq queue =>
    rw [told, events_storm ended] at published
    apply numbered.restrict seq
    · rw [published, queue, List.append_nil]
      exact fun x member => member
    · rw [queue]
      exact List.nodup_nil

/-- A step stores nothing new, or one group in one transaction. -/
theorem step_stores (cal : Calendar) (numbered : s.Numbered) (input : AlarmInput K × (Nat → Nat)) :
    ((∀ batch, ¬s.engine.Publishes input.1 batch) ∧
      RowsSame s.store.tables (step cal s input).1.store.tables ∧
      (step cal s input).1.published = s.published) ∨
    ∃ batch, batch ≠ [] ∧ (batch.map (·.id)).Nodup ∧ (∀ b, s.engine.Publishes input.1 b ↔ b = batch) ∧
      (step cal s input).1.store.tables =
        (insertAlarmRecords cal s.store.tables (batch.map toActiveRecord)).1 ∧
      (step cal s input).1.published = s.published ++ batch := by
  rw [events_step, store_step]
  have effect := AlarmEngine.publication (e := s.engine) input.1
  cases effect with
  | silent closed quiet seq queue =>
    refine Or.inl ⟨closed, AlarmRecordStore.receiveAll_same input.2 quiet, ?_⟩
    rw [events_quiet quiet, List.append_nil]
  | deferred ev fresh closed quiet seq queue =>
    rw [quiet]
    exact Or.inl ⟨closed, RowsSame.refl _, by rw [List.flatMap_nil, List.append_nil]⟩
  | alone ev fresh leaves told seq queue =>
    rw [told, events_publish, AlarmRecordStore.receiveAll_publish]
    exact Or.inr ⟨[ev], List.cons_ne_nil _ _, List.nodup_singleton _, leaves, rfl, rfl⟩
  | flushed waiting leaves total dropped rest told ended seq queue =>
    rw [told, events_storm ended, AlarmRecordStore.receiveAll_storm input.2 waiting ended]
    exact Or.inr ⟨s.engine.pendingStorm, waiting, numbered.queue, leaves, rfl, rfl⟩

theorem persistent_step (numbered : s.Numbered) (persistent : s.Persistent cal before)
    (input : AlarmInput K × (Nat → Nat)) (admits : s.Admits cal input) :
    (step cal s input).1.Persistent cal before := by
  have unique := (numbered_step cal numbered input).unique
  rcases step_stores cal numbered input with
    ⟨-, same, published⟩ | ⟨batch, filled, distinct, leaves, tables, published⟩
  · refine ⟨?_, persistent.kept.trans same.kept⟩
    rw [published]
    exact fun ev member => (persistent.stored ev member).of_same same
  · have accepts := admits batch ((leaves batch).mpr rfl)
    constructor
    · rw [tables]
      intro ev member
      have said := member
      rw [published] at said
      refine accepts.stored filled distinct (fun x inBatch sameId => ?_) ?_
      · apply unique x (List.mem_append_left _ ?_) ev (List.mem_append_left _ member) sameId
        rw [published]
        exact List.mem_append_right _ inBatch
      · exact (List.mem_append.mp said).symm.imp id (persistent.stored ev)
    · rw [tables]
      exact persistent.kept.trans insertAlarmRecords_kept

theorem refused_step (numbered : s.Numbered) (input : AlarmInput K × (Nat → Nat))
    (refused : ¬s.Admits cal input) : ¬(step cal s input).1.Persistent cal before := by
  intro persistent
  apply refused
  intro b out
  rcases step_stores cal numbered input with
    ⟨closed, -, -⟩ | ⟨batch, filled, distinct, leaves, tables, published⟩
  · exact absurd out (closed b)
  · rw [(leaves b).mp out]
    apply accepts_of_stored filled
    rw [← tables]
    intro ev member
    apply persistent.stored
    rw [published]
    exact List.mem_append_right _ member

/-- Throughout a run every published alarm has its one row exactly when every group that
leaves the engine is accepted by the tables. -/
theorem persistence_iff (cal : Calendar) (before : AlarmTables K)
    (inputs : List (AlarmInput K × (Nat → Nat))) :
    (∀ s ∈ Runs.reached (step cal) (start before) inputs, s.Persistent cal before) ↔
      ∀ v ∈ Runs.visits (step cal) (start before) inputs, v.1.Admits cal v.2 := by
  apply Runs.reached_iff (step cal) inputs (B := Numbered) (J := Persistent cal before)
    (A := Admits cal)
  · exact numbered_start
  · exact fun s input numbered => numbered_step cal numbered input
  · exact ⟨by simp [start], RowsKept.refl before⟩
  · exact fun s persistent => persistent
  · exact fun s input numbered persistent admits => persistent_step numbered persistent input admits
  · exact fun s input numbered _ refused => refused_step numbered input refused

/-- All times of the example lie in one month. -/
def oneMonth : Calendar := { month := fun _ => "202601", monthStart := fun _ => 1767225600000 }

/-- A critical alarm and a warning raised in one storm, and the flush of their queue. -/
def criticalStorm : List (AlarmInput Int × (Nat → Nat)) :=
  [.setStormConfig { threshold := 0 },
    .reloadRules [{ pointId := 1, level := .critical, onThreshold := 10, offThreshold := 5, onDelayMs := 0 },
      { pointId := 2, onThreshold := 10, offThreshold := 5, onDelayMs := 0 }],
    .dataUpdated 1 20 100000 1767312000000, .dataUpdated 2 20 100100 1767312000100,
    .stormFlush 100200].map (fun input => (input, fun _ => 1767312000200))

/-- The critical alarm is stored already, so the transaction with the warning fails. -/
theorem persistence_fails : ¬∀ s ∈ Runs.reached (step oneMonth) (start fun _ _ => none) criticalStorm,
    s.Persistent oneMonth (fun _ _ => none) := by
  intro persistent
  have run := persistent _ Runs.run_mem_reached
  have warned : ∃ ev ∈ (Runs.run (step oneMonth) (start fun _ _ => none) criticalStorm).published, ev.id = 2 := by
    decide +kernel
  obtain ⟨ev, member, second⟩ := warned
  obtain ⟨month, row, named, present, -, -⟩ := run.stored ev member
  have home : month = "202601" := by
    rw [openAlarmTable, Option.filter_eq_some_iff, alarmTableNameOf] at named
    split at named
    · cases named.1
    · exact (Option.some.inj named.1).symm
  have lost : (Runs.run (step oneMonth) (start fun _ _ => none) criticalStorm).store.tables "202601" 2 = none := by
    decide +kernel
  rw [home, second, lost] at present
  cases present

end AlarmSystem

end EnerSentry.Business
