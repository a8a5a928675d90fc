import EnerSentry.Business.AlarmLifeCycle
import EnerSentry.Business.AlarmPersistence

/-!
Whether the status of an alarm's row is that of the alarm. A monitor follows the engine and
says what each row should show. The store looks an alarm up in a map that only its own
inserts fill, so news of an alarm that still waits in the storm queue is lost to it, and a
batch that spans months puts rows where later updates do not find them.
-/

namespace EnerSentry.Business
open EnerSentry.Lib EnerSentry.Datahub

variable {K : Type*} [Zero K]

/-- The ids that were given out and recovered, and the user who confirmed an alarm. -/
structure Statuses where
  ledger : Ledger UInt32 Nat := {}
  confirmed : Nat → Option String := fun _ => none

/-- What the row of an alarm should show. -/
def Statuses.Shows (m : Statuses) (id : Nat) (row : AlarmRecord K) : Prop :=
  if id ∈ m.ledger.retired then row.status = 2
  else
    match m.confirmed id with
    | some user => row.status = 1 ∧ row.confirmUser = user
    | none => row.status = 0

/-- The row was not there when the run began. -/
def NewRow (before after : AlarmTables K) (month : String) (id : Nat) (row : AlarmRecord K) : Prop :=
  after month id = some row ∧ before month id = none

def RowsShow (before : AlarmTables K) (s : AlarmRecordStore K) (m : Statuses) : Prop :=
  ∀ month id row, NewRow before s.tables month id row → m.Shows id row

/-- The rows of a run show what they should, stand in the month of their trigger time, and
those that can still change are known to the store. -/
structure Filed (cal : Calendar) (before : AlarmTables K) (s : AlarmRecordStore K) (m : Statuses) : Prop where
  shows : RowsShow before s m
  issued : ∀ month id row, NewRow before s.tables month id row → id ∈ m.ledger.ids
  homed : ∀ month id row, NewRow before s.tables month id row → openAlarmTable cal row.triggerTime = some month
  known : ∀ month id row, NewRow before s.tables month id row → id ∉ m.ledger.retired →
    s.triggerByAlarmId id = some row.triggerTime

section Store
variable {cal : Calendar} {before : AlarmTables K} {s : AlarmRecordStore K} {m m' : Statuses} {id : Nat}

/-- Only what is retired and what is issued matters, not in which order. -/
theorem Filed.congr (filed : Filed cal before s m) (retired : ∀ id, id ∈ m'.ledger.retired ↔ id ∈ m.ledger.retired)
    (issued : ∀ id, id ∈ m.ledger.ids → id ∈ m'.ledger.ids) (confirmed : m'.confirmed = m.confirmed) :
    Filed cal before s m' := by
  refine ⟨?_, ?_, filed.homed, ?_⟩
  · intro month id row new
    have shows := filed.shows month id row new
    simpa only [Statuses.Shows, retired, confirmed] using shows
  · intro month id row new
    exact issued id (filed.issued month id row new)
  · intro month id row new live
    exact filed.known month id row new (fun ended => live ((retired id).mpr ended))

/-- What a recovery leaves of the new rows: the row of its alarm is over, the others stay. -/
theorem Filed.recovered_rows (filed : Filed cal before s m) (live : id ∉ m.ledger.retired) (now : Nat) {month : String}
    {i : Nat} {row : AlarmRecord K} (new : NewRow before (s.onAlarmRecovered cal id now).tables month i row) :
    ∃ old, NewRow before s.tables month i old ∧ row.triggerTime = old.triggerTime ∧
      (if i = id then row.status = 2 else row = old) := by
  obtain ⟨present, absent⟩ := new
  cases mapped : s.triggerByAlarmId id with
  | none =>
    simp only [AlarmRecordStore.onAlarmRecovered, mapped] at present
    refine ⟨row, ⟨present, absent⟩, rfl, ?_⟩
    by_cases own : i = id
    · subst own
      have known := filed.known month i row ⟨present, absent⟩ live
      exact absurd (mapped.symm.trans known) (by simp)
    · rw [if_neg own]
  | some t =>
    simp only [AlarmRecordStore.onAlarmRecovered, mapped, AlarmRecordStore.wrote, setAlarmRecovered,
      updateAlarm_row] at present
    by_cases own : i = id
    · subst own
      split at present
      · obtain ⟨old, stored, rfl⟩ := Option.map_eq_some_iff.mp present
        exact ⟨old, ⟨stored, absent⟩, rfl, by rw [if_pos rfl]⟩
      · rename_i elsewhere
        have known := filed.known month i row ⟨present, absent⟩ live
        have homed := filed.homed month i row ⟨present, absent⟩
        rw [mapped, Option.some.injEq] at known
        exact absurd ⟨known ▸ homed, rfl⟩ elsewhere
    · rw [if_neg (fun both => own both.2)] at present
      exact ⟨row, ⟨present, absent⟩, rfl, by rw [if_neg own]⟩

/-- A recovery forgets the trigger time of its own alarm only. -/
theorem onAlarmRecovered_map_other {i : Nat} (other : i ≠ id) (now : Nat) :
    (s.onAlarmRecovered cal id now).triggerByAlarmId i = s.triggerByAlarmId i := by
  cases mapped : s.triggerByAlarmId id with
  | none => simp only [AlarmRecordStore.onAlarmRecovered, mapped]
  | some t => simp only [AlarmRecordStore.onAlarmRecovered, mapped, AlarmRecordStore.wrote, Function.update_of_ne other]

/-- The alarm of a row that can still change is over. -/
theorem Filed.recovered (filed : Filed cal before s m) (live : id ∉ m.ledger.retired) (now : Nat) :
    Filed cal before (s.onAlarmRecovered cal id now) { m with ledger := m.ledger.retire [id] } := by
  refine ⟨?_, ?_, ?_, ?_⟩
  · intro month i row new
    obtain ⟨old, was, -, change⟩ := filed.recovered_rows live now new
    by_cases own : i = id
    · subst own
      simp only [Statuses.Shows, Ledger.retire, List.singleton_append, List.mem_cons_self, if_true]
      simpa using change
    · rw [if_neg own] at change
      subst change
      simpa [Statuses.Shows, Ledger.retire, own] using filed.shows month i row was
  · intro month i row new
    obtain ⟨old, was, -⟩ := filed.recovered_rows live now new
    exact filed.issued month i old was
  · intro month i row new
    obtain ⟨old, was, time, -⟩ := filed.recovered_rows live now new
    rw [time]
    exact filed.homed month i old was
  · intro month i row new open_
    obtain ⟨old, was, time, -⟩ := filed.recovered_rows live now new
    simp only [Ledger.retire, List.singleton_append, List.mem_cons, not_or] at open_
    rw [onAlarmRecovered_map_other open_.1, time]
    exact filed.known month i old was open_.2

/-- What an acknowledgement leaves of the new rows. -/
theorem Filed.acknowledged_rows (filed : Filed cal before s m) (user : String) (now : Nat) {month : String} {i : Nat}
    {row : AlarmRecord K} (new : NewRow before (s.onAlarmAcknowledged cal id user now).tables month i row) :
    ∃ old, NewRow before s.tables month i old ∧ row.triggerTime = old.triggerTime ∧
      (row = old ∨ i = id ∧ old.status = 0 ∧ row.status = 1 ∧ row.confirmUser = user) ∧
      (i = id → id ∉ m.ledger.retired → old.status = 0 → row.status = 1 ∧ row.confirmUser = user) := by
  obtain ⟨present, absent⟩ := new
  cases mapped : s.triggerByAlarmId id with
  | none =>
    simp only [AlarmRecordStore.onAlarmAcknowledged, mapped] at present
    refine ⟨row, ⟨present, absent⟩, rfl, Or.inl rfl, ?_⟩
    rintro rfl live -
    have known := filed.known month i row ⟨present, absent⟩ live
    exact absurd (mapped.symm.trans known) (by simp)
  | some t =>
    simp only [AlarmRecordStore.onAlarmAcknowledged, mapped, AlarmRecordStore.wrote, setAlarmConfirmed,
      updateAlarm_row] at present
    by_cases hit : openAlarmTable cal t = some month ∧ i = id
    · rw [if_pos hit] at present
      obtain ⟨old, stored, rfl⟩ := Option.map_eq_some_iff.mp present
      by_cases active : old.status = 0
      · simp only [if_pos active]
        exact ⟨old, ⟨stored, absent⟩, rfl, Or.inr ⟨hit.2, active, trivial, trivial⟩, fun _ _ _ => ⟨trivial, trivial⟩⟩
      · simp only [if_neg active]
        exact ⟨old, ⟨stored, absent⟩, rfl, Or.inl rfl, fun _ _ now => absurd now active⟩
    · rw [if_neg hit] at present
      refine ⟨row, ⟨present, absent⟩, rfl, Or.inl rfl, ?_⟩
      rintro rfl live -
      have known := filed.known month i row ⟨present, absent⟩ live
      have homed := filed.homed month i row ⟨present, absent⟩
      rw [mapped, Option.some.injEq] at known
      exact absurd ⟨known ▸ homed, rfl⟩ hit

theorem onAlarmAcknowledged_map (user : String) (now : Nat) :
    (s.onAlarmAcknowledged cal id user now).triggerByAlarmId = s.triggerByAlarmId := by
  unfold AlarmRecordStore.onAlarmAcknowledged
  split <;> rfl

/-- The frame of an acknowledgement: the rows stay where they are. -/
theorem Filed.acknowledged (filed : Filed cal before s m) (user : String) (now : Nat)
    (ledger : m'.ledger = m.ledger) (shows : RowsShow before (s.onAlarmAcknowledged cal id user now) m') :
    Filed cal before (s.onAlarmAcknowledged cal id user now) m' := by
  refine ⟨shows, ?_, ?_, ?_⟩
  · intro month i row new
    obtain ⟨old, was, -⟩ := filed.acknowledged_rows user now new
    exact ledger ▸ filed.issued month i old was
  · intro month i row new
    obtain ⟨old, was, time, -⟩ := filed.acknowledged_rows user now new
    exact time ▸ filed.homed month i old was
  · intro month i row new live
    obtain ⟨old, was, time, -⟩ := filed.acknowledged_rows user now new
    rw [onAlarmAcknowledged_map, time]
    exact filed.known month i old was (ledger ▸ live)

/-- The first confirmation of an alarm that is not over. -/
theorem Filed.confirmed (filed : Filed cal before s m) (live : id ∉ m.ledger.retired) (active : m.confirmed id = none)
    (user : String) (now : Nat) : Filed cal before (s.onAlarmAcknowledged cal id user now)
      { m with confirmed := Function.update m.confirmed id (some user) } := by
  refine filed.acknowledged user now rfl fun month i row new => ?_
  obtain ⟨old, was, -, change, hit⟩ := filed.acknowledged_rows user now new
  have shows := filed.shows month i old was
  by_cases own : i = id
  · subst own
    simp only [Statuses.Shows, if_neg live, active] at shows
    simp only [Statuses.Shows, if_neg live, Function.update_self]
    exact hit rfl live shows
  · have same : row = old := change.resolve_right fun other => own other.1
    simpa only [Statuses.Shows, Function.update_of_ne own, same] using shows

/-- An acknowledgement of an alarm that was confirmed before, or is over, or never was. -/
theorem Filed.repeated (filed : Filed cal before s m)
    (settled : id ∈ m.ledger.ids → id ∈ m.ledger.retired ∨ (m.confirmed id).isSome = true) (user : String) (now : Nat) :
    Filed cal before (s.onAlarmAcknowledged cal id user now) m := by
  refine filed.acknowledged user now rfl fun month i row new => ?_
  obtain ⟨old, was, -, change, -⟩ := filed.acknowledged_rows user now new
  have shows := filed.shows month i old was
  rcases change with same | ⟨rfl, active, -⟩
  · exact same ▸ shows
  · rcases settled (filed.issued month i old was) with ended | confirmed
    · simp only [Statuses.Shows, if_pos ended, active] at shows
      exact absurd shows (by decide)
    · obtain ⟨user', named⟩ := Option.isSome_iff_exists.mp confirmed
      simp only [Statuses.Shows, named, active] at shows
      split at shows
      · exact absurd shows (by decide)
      · exact absurd shows.1 (by decide)

end Store

section Insert
variable {cal : Calendar} {before : AlarmTables K} {s : AlarmRecordStore K} {m : Statuses}

/-- A new row was there or came with the batch, into the table of its first alarm. -/
theorem newRow_inserted {db : AlarmTables K} {front : AlarmEvent K} {rest : List (AlarmEvent K)} {month : String}
    {id : Nat} {row : AlarmRecord K}
    (new : NewRow before (insertAlarmRecords cal db ((front :: rest).map toActiveRecord)).1 month id row) :
    NewRow before db month id row ∨
      (∃ ev ∈ front :: rest, ev.id = id ∧ row = toActiveRecord ev) ∧
        openAlarmTable cal front.triggerTime = some month ∧ (∀ ev ∈ front :: rest, db month ev.id = none) ∧
        ((front :: rest).map (·.id)).Nodup := by
  obtain ⟨present, absent⟩ := new
  rw [List.map_cons] at present
  rcases insertAlarmRecords_cases cal db (toActiveRecord front) (rest.map toActiveRecord) rfl with
    ⟨same, -⟩ | ⟨home, table, named, done, after⟩
  · exact Or.inl ⟨same ▸ present, absent⟩
  · rw [after] at present
    by_cases here : month = home
    · subst here
      rw [Function.update_self] at present
      rcases (KeyedTable.insertAll_row_iff done).mp present with old | ⟨member, key⟩
      · exact Or.inl ⟨old, absent⟩
      · rw [← List.map_cons] at member done
        obtain ⟨ev, inside, rfl⟩ := List.mem_map.mp member
        obtain ⟨-, free, distinct⟩ := KeyedTable.insertAll_isSome_iff.mp (Option.isSome_iff_exists.mpr ⟨_, done⟩)
        refine Or.inr ⟨⟨ev, inside, key, rfl⟩, named, ?_, ?_⟩
        · rwa [List.forall_mem_map] at free
        · rwa [List.map_map] at distinct
    · rw [Function.update_of_ne here] at present
      exact Or.inl ⟨present, absent⟩

/-- A new row after an alarm was told was there or is that of the alarm. -/
theorem newRow_triggered {ev : AlarmEvent K} {month : String} {id : Nat} {row : AlarmRecord K}
    (new : NewRow before (s.onAlarmTriggered cal ev).tables month id row) : NewRow before s.tables month id row ∨
      ev.id = id ∧ row = toActiveRecord ev ∧ openAlarmTable cal ev.triggerTime = some month := by
  have placed : NewRow before (insertAlarmRecords cal s.tables ([ev].map toActiveRecord)).1 month id row := new
  rcases newRow_inserted placed with was | ⟨⟨x, inside, same, shown⟩, named, -⟩
  · exact Or.inl was
  · obtain rfl := List.mem_singleton.mp inside
    exact Or.inr ⟨same, shown, named⟩

/-- An alarm in the storm queue, seen from the store: one that was told at once has a row in
its way, another has had no news yet. -/
structure Waits (cal : Calendar) (before : AlarmTables K) (s : AlarmRecordStore K) (m : Statuses) (ev : AlarmEvent K) :
    Prop where
  issued : ev.id ∈ m.ledger.ids
  time : ∀ month row, NewRow before s.tables month ev.id row → row.triggerTime = ev.triggerTime
  told : ev.level = .critical → ∀ month, openAlarmTable cal ev.triggerTime = some month → s.tables month ev.id ≠ none
  unheard : ev.level ≠ .critical → ev.id ∉ m.ledger.retired ∧ m.confirmed ev.id = none

/-- The rows of a fresh alarm are its own. -/
theorem Filed.triggered_rows (filed : Filed cal before s m) {ev : AlarmEvent K} (fresh : ev.id ∉ m.ledger.ids)
    {month : String} {i : Nat} {row : AlarmRecord K}
    (new : NewRow before (s.onAlarmTriggered cal ev).tables month i row) :
    (i ≠ ev.id ∧ NewRow before s.tables month i row) ∨
      i = ev.id ∧ row = toActiveRecord ev ∧ openAlarmTable cal ev.triggerTime = some month := by
  rcases newRow_triggered new with was | ⟨rfl, rfl, named⟩
  · exact Or.inl ⟨fun same => fresh (same ▸ filed.issued month i row was), was⟩
  · exact Or.inr ⟨rfl, rfl, named⟩

/-- A fresh alarm is told at once. -/
theorem Filed.triggered (filed : Filed cal before s m) {ev : AlarmEvent K} (fresh : ev.id ∉ m.ledger.ids)
    (live : ev.id ∉ m.ledger.retired) (active : m.confirmed ev.id = none) (p : UInt32) :
    Filed cal before (s.onAlarmTriggered cal ev) { m with ledger := m.ledger.issue p ev.id } := by
  refine ⟨?_, ?_, ?_, ?_⟩
  · intro month i row new
    rcases filed.triggered_rows fresh new with ⟨-, was⟩ | ⟨rfl, rfl, -⟩
    · exact filed.shows month i row was
    · simp only [Statuses.Shows, Ledger.issue, if_neg live, active]
      rfl
  · intro month i row new
    rcases filed.triggered_rows fresh new with ⟨-, was⟩ | ⟨rfl, -⟩
    · exact List.mem_cons_of_mem _ (filed.issued month i row was)
    · exact List.mem_cons_self ..
  · intro month i row new
    rcases filed.triggered_rows fresh new with ⟨-, was⟩ | ⟨-, rfl, named⟩
    · exact filed.homed month i row was
    · exact named
  · intro month i row new open_
    rcases filed.triggered_rows fresh new with ⟨other, was⟩ | ⟨rfl, rfl, -⟩
    · simp only [AlarmRecordStore.onAlarmTriggered, AlarmRecordStore.wrote, Function.update_of_ne other]
      exact filed.known month i row was open_
    · simp only [AlarmRecordStore.onAlarmTriggered, AlarmRecordStore.wrote, Function.update_self]
      rfl

/-- The map after a batch: the trigger times of its alarms, the others as they were. -/
theorem onStormBatch_map {samples : List (AlarmEvent K)} {id t : Nat}
    (agree : ∀ ev ∈ samples, ev.id = id → ev.triggerTime = t)
    (known : s.triggerByAlarmId id = some t ∨ ∃ ev ∈ samples, ev.id = id) :
    (s.onStormBatch cal samples).triggerByAlarmId id = some t := by
  have folded : ∀ (xs : List (AlarmEvent K)) (f : Nat → Option Nat), (∀ ev ∈ xs, ev.id = id → ev.triggerTime = t) →
      (f id = some t ∨ ∃ ev ∈ xs, ev.id = id) →
      xs.foldl (fun (f : Nat → Option Nat) ev => Function.update f ev.id (some ev.triggerTime)) f id = some t := by
    intro xs
    induction xs with
    | nil =>
      intro f _ known
      exact known.resolve_right (by simp)
    | cons ev xs ih =>
      intro f agree known
      rw [List.foldl_cons]
      apply ih _ fun x member => agree x (List.mem_cons_of_mem _ member)
      by_cases own : ev.id = id
      · left
        rw [own, Function.update_self, agree ev (List.mem_cons_self ..) own]
      · rw [Function.update_of_ne (Ne.symm own)]
        refine known.imp_right fun ⟨x, member, named⟩ => ?_
        rcases List.mem_cons.mp member with rfl | later
        · exact absurd named own
        · exact ⟨x, later, named⟩
  unfold AlarmRecordStore.onStormBatch
  split
  · rename_i empty
    obtain rfl := List.isEmpty_iff.mp empty
    exact known.resolve_right (by simp)
  · exact folded samples s.triggerByAlarmId agree known

/-- What a batch of one month adds: the rows of its alarms, of which there has been no news. -/
theorem newRow_batch {front : AlarmEvent K} {rest : List (AlarmEvent K)}
    (waits : ∀ ev ∈ front :: rest, Waits cal before s m ev)
    (together : ∀ month, openAlarmTable cal front.triggerTime = some month →
      (∀ ev ∈ front :: rest, s.tables month ev.id = none) →
      ∀ ev ∈ front :: rest, openAlarmTable cal ev.triggerTime = some month) {month : String} {i : Nat}
    {row : AlarmRecord K} (new : NewRow before (s.onStormBatch cal (front :: rest)).tables month i row) :
    NewRow before s.tables month i row ∨ ∃ ev ∈ front :: rest, ev.id = i ∧ row = toActiveRecord ev ∧
      openAlarmTable cal ev.triggerTime = some month ∧ (i ∉ m.ledger.retired ∧ m.confirmed i = none) ∧
      ∀ x ∈ front :: rest, x.id = i → x = ev := by
  rcases newRow_inserted new with was | ⟨⟨ev, inside, rfl, rfl⟩, named, free, distinct⟩
  · exact Or.inl was
  · have home := together month named free ev inside
    have plain : ev.level ≠ .critical := fun critical => (waits ev inside).told critical month home (free ev inside)
    refine Or.inr ⟨ev, inside, rfl, rfl, home, (waits ev inside).unheard plain, ?_⟩
    intro x member same
    exact List.inj_on_of_nodup_map distinct member inside same

/-- A batch of one month goes in as active alarms. -/
theorem Filed.batch (filed : Filed cal before s m) {front : AlarmEvent K} {rest : List (AlarmEvent K)}
    (waits : ∀ ev ∈ front :: rest, Waits cal before s m ev)
    (together : ∀ month, openAlarmTable cal front.triggerTime = some month →
      (∀ ev ∈ front :: rest, s.tables month ev.id = none) →
      ∀ ev ∈ front :: rest, openAlarmTable cal ev.triggerTime = some month) :
    Filed cal before (s.onStormBatch cal (front :: rest)) m := by
  refine ⟨?_, ?_, ?_, ?_⟩
  · intro month i row new
    rcases newRow_batch waits together new with was | ⟨ev, inside, -, rfl, -, ⟨live, active⟩, -⟩
    · exact filed.shows month i row was
    · simp only [Statuses.Shows, if_neg live, active]
      rfl
  · intro month i row new
    rcases newRow_batch waits together new with was | ⟨ev, inside, rfl, -⟩
    · exact filed.issued month i row was
    · exact (waits ev inside).issued
  · intro month i row new
    rcases newRow_batch waits together new with was | ⟨ev, inside, -, rfl, home, -⟩
    · exact filed.homed month i row was
    · exact home
  · intro month i row new open_
    rcases newRow_batch waits together new with was | ⟨ev, inside, rfl, rfl, -, -, only⟩
    · refine onStormBatch_map (fun x member same => ?_) (Or.inl (filed.known month i row was open_))
      subst same
      exact ((waits x member).time month row was).symm
    · refine onStormBatch_map (fun x member same => ?_) (Or.inr ⟨ev, inside, rfl⟩)
      rw [only x member same]
      rfl

theorem Waits.of_same (ev : AlarmEvent K) {s' : AlarmRecordStore K} {m' : Statuses} (waits : Waits cal before s m ev)
    (same : RowsSame s.tables s'.tables) (issued : ev.id ∈ m'.ledger.ids)
    (unheard : ev.level ≠ .critical → ev.id ∉ m'.ledger.retired ∧ m'.confirmed ev.id = none) :
    Waits cal before s' m' ev := by
  refine ⟨issued, ?_, ?_, unheard⟩
  · intro month row ⟨present, absent⟩
    have twin := same month ev.id
    rw [present, Option.map_some] at twin
    obtain ⟨old, stored, alike⟩ := Option.map_eq_some_iff.mp twin.symm
    have time : old.triggerTime = row.triggerTime := congrArg (·.triggerTime) alike
    exact time ▸ waits.time month old ⟨stored, absent⟩
  · intro critical month named gone
    have twin := same month ev.id
    rw [gone, Option.map_none] at twin
    exact waits.told critical month named (Option.map_eq_none_iff.mp twin.symm)

/-- An id given to another alarm changes nothing for one that waits. -/
theorem Waits.of_issued {ev : AlarmEvent K} (waits : Waits cal before s m ev) (p : UInt32) (id : Nat) :
    Waits cal before s { m with ledger := m.ledger.issue p id } ev :=
  waits.of_same ev (RowsSame.refl _) (List.mem_cons_of_mem _ waits.issued) waits.unheard

/-- An alarm that is not told has no row while it waits, and there is no news of it. -/
theorem waits_untold (filed : Filed cal before s m) {ev : AlarmEvent K} (fresh : ev.id ∉ m.ledger.ids)
    (live : ev.id ∉ m.ledger.retired) (active : m.confirmed ev.id = none) (plain : ev.level ≠ .critical) (p : UInt32) :
    Waits cal before s { m with ledger := m.ledger.issue p ev.id } ev := by
  refine ⟨List.mem_cons_self .., ?_, fun critical => absurd critical plain, fun _ => ⟨live, active⟩⟩
  intro month row new
  exact absurd (filed.issued month ev.id row new) fresh

/-- Another alarm that is told changes nothing for one that waits. -/
theorem Waits.of_triggered {ev other : AlarmEvent K} (waits : Waits cal before s m ev) (apart : ev.id ≠ other.id)
    (p : UInt32) :
    Waits cal before (s.onAlarmTriggered cal other) { m with ledger := m.ledger.issue p other.id } ev := by
  refine ⟨List.mem_cons_of_mem _ waits.issued, ?_, ?_, waits.unheard⟩
  · intro month row new
    rcases newRow_triggered new with was | ⟨same, -⟩
    · exact waits.time month row was
    · exact absurd same.symm apart
  · intro critical month named gone
    cases stored : s.tables month ev.id with
    | none => exact waits.told critical month named stored
    | some row =>
      have stays : RowsKept s.tables (s.onAlarmTriggered cal other).tables := insertAlarmRecords_kept
      obtain ⟨row', kept, -⟩ := stays month ev.id row stored
      exact absurd (gone.symm.trans kept) (by simp)

/-- A critical alarm of a storm is told and then waits. -/
theorem waits_triggered (filed : Filed cal before s m) {ev : AlarmEvent K} (fresh : ev.id ∉ m.ledger.ids)
    (critical : ev.level = .critical) (p : UInt32) :
    Waits cal before (s.onAlarmTriggered cal ev) { m with ledger := m.ledger.issue p ev.id } ev := by
  refine ⟨List.mem_cons_self .., ?_, ?_, fun plain => absurd critical plain⟩
  · intro month row new
    rcases newRow_triggered new with was | ⟨-, rfl, -⟩
    · exact absurd (filed.issued month ev.id row was) fresh
    · rfl
  · intro _ month named gone
    rcases insertAlarmRecords_cases cal s.tables (toActiveRecord ev) [] rfl with
      ⟨same, refused⟩ | ⟨home, table, opened, done, after⟩
    · have unchanged : (s.onAlarmTriggered cal ev).tables = s.tables := same
      have free : s.tables month ev.id = none := unchanged ▸ gone
      have alone : ([ev].map (·.id)).Nodup := List.nodup_singleton ev.id
      obtain ⟨table, done⟩ := insertAll_records alone (List.forall_mem_singleton.mpr free)
      exact absurd (done.symm.trans (refused month named)) (by simp)
    · have changed : (s.onAlarmTriggered cal ev).tables = Function.update s.tables home table := after
      obtain rfl : home = month := Option.some.inj (opened.symm.trans named)
      rw [changed, Function.update_self] at gone
      have put := KeyedTable.insertAll_mem done (List.mem_singleton_self _)
      exact absurd (gone.symm.trans put) (by simp)

end Insert

section Signals
variable {cal : Calendar} {before : AlarmTables K} {s : AlarmRecordStore K} {m : Statuses}

theorem receiveAll_cons (clock : Nat → Nat) (x : AlarmSignal K) (xs : List (AlarmSignal K)) :
    s.receiveAll cal clock (x :: xs) = (s.receive cal (clock 0) x).receiveAll cal (fun i => clock (i + 1)) xs := by
  simp only [AlarmRecordStore.receiveAll, List.zipIdx_cons, List.foldl_cons, Nat.zero_add]
  rw [List.zipIdx_succ, List.foldl_map]

/-- All recoveries of one call. -/
theorem Filed.recoveredAll (filed : Filed cal before s m) {ended : List Nat} (once : ended.Nodup)
    (live : ∀ id ∈ ended, id ∉ m.ledger.retired) (clock : Nat → Nat) :
    Filed cal before (s.receiveAll cal clock (ended.map .alarmRecovered))
      { m with ledger := m.ledger.retire ended } := by
  induction ended generalizing s m clock with
  | nil => exact filed
  | cons id ended ih =>
    rw [List.map_cons, receiveAll_cons]
    obtain ⟨apart, once⟩ := List.nodup_cons.mp once
    have first := filed.recovered (live id (List.mem_cons_self ..)) (clock 0)
    refine (ih first once (fun x member => ?_) _).congr (fun x => ?_) (fun _ issued => issued) rfl
    · simp only [Ledger.retire, List.singleton_append, List.mem_cons, not_or]
      exact ⟨fun same => apart (same ▸ member), live x (List.mem_cons_of_mem _ member)⟩
    · simp only [Ledger.retire, List.mem_append, List.mem_cons, List.not_mem_nil, or_false]
      tauto

end Signals

namespace AlarmEngine

/-- The confirmations that a list of acknowledgements brings. An alarm is active until its
first one, so none is replaced. -/
def confirmations (e : AlarmEngine K) (user : String) (confirmed : Nat → Option String) : List Nat → Nat → Option String
  | [] => confirmed
  | id :: ids =>
      (e.acknowledgeAlarm id user).1.confirmations user
        (if (e.acknowledged id).isSome then Function.update confirmed id (some user) else confirmed) ids

/-- The monitor's view of the alarms is the engine's. -/
structure Confirming (e : AlarmEngine K) (m : Statuses) : Prop where
  balanced : m.ledger.Balanced e.openAlarm
  status : ∀ p id, e.openAlarm p = some id → ((e.stateOf p).status = .confirmed ↔ (m.confirmed id).isSome = true)
  issued : ∀ id, (m.confirmed id).isSome = true → id ∈ m.ledger.ids

/-- Open alarms and statuses are all that the view depends on. -/
theorem Confirming.of_same {e d : AlarmEngine K} {m : Statuses} (confirming : e.Confirming m)
    (kept : d.openAlarm = e.openAlarm) (status : ∀ p, (d.stateOf p).status = (e.stateOf p).status) :
    d.Confirming m := by
  refine ⟨kept ▸ confirming.balanced, ?_, confirming.issued⟩
  intro p id open_
  rw [status p]
  exact confirming.status p id (kept ▸ open_)

section Acknowledge
variable {e : AlarmEngine K} {m : Statuses} {alarmId : Nat} {user : String}

theorem acknowledged_none (missing : e.acknowledged alarmId = none) (p : UInt32) :
    ¬((e.stateOf p).status = .active ∧ (e.stateOf p).activeId = alarmId) := by
  rintro ⟨active, named⟩
  cases stored : e.states[p]? with
  | none => simp [stateOf, stored] at active
  | some st =>
    have own : e.stateOf p = st := by rw [stateOf, stored, Option.getD_some]
    have listed := Std.TreeMap.mem_toList_iff_getElem?_eq_some.mpr stored
    have skipped := List.find?_eq_none.mp missing _ listed
    simp [← own, active, named] at skipped

theorem acknowledged_some {x : UInt32 × PointAlarmState K} (found : e.acknowledged alarmId = some x) :
    e.stateOf x.1 = x.2 ∧ x.2.status = .active ∧ x.2.activeId = alarmId := by
  have stored := Std.TreeMap.mem_toList_iff_getElem?_eq_some.mp (List.mem_of_find?_eq_some found)
  have named := List.find?_some found
  rw [Bool.and_eq_true, beq_iff_eq, beq_iff_eq] at named
  exact ⟨by rw [stateOf, stored, Option.getD_some], named.2, named.1⟩

/-- An alarm that no active point has is over or confirmed, or never was. -/
theorem Confirming.settled (confirming : Confirming e m) (missing : e.acknowledged alarmId = none)
    (issued : alarmId ∈ m.ledger.ids) : alarmId ∈ m.ledger.retired ∨ (m.confirmed alarmId).isSome = true := by
  by_contra neither
  rw [not_or] at neither
  obtain ⟨⟨p, id⟩, member, rfl⟩ := List.mem_map.mp issued
  have holds := (confirming.balanced.holds p id).mpr ⟨member, neither.1⟩
  obtain ⟨alarming, named⟩ := openAlarm_eq_some.mp holds
  have plain := mt (confirming.status p id holds).mp neither.2
  have active : (e.stateOf p).status = .active := by
    simpa [PointAlarmState.alarming, plain] using alarming
  exact acknowledged_none missing p ⟨active, named⟩

theorem Confirming.acknowledge {cal : Calendar} {before : AlarmTables K} {s : AlarmRecordStore K}
    (confirming : Confirming e m) (filed : Filed cal before s m) (alarmId : Nat) (user : String) (now : Nat) :
    let m' : Statuses := { m with
      confirmed :=
        if (e.acknowledged alarmId).isSome then Function.update m.confirmed alarmId (some user) else m.confirmed }
    Confirming (e.acknowledgeAlarm alarmId user).1 m' ∧
      Filed cal before (s.onAlarmAcknowledged cal alarmId user now) m' := by
  cases found : e.acknowledged alarmId with
  | none =>
    have same : (e.acknowledgeAlarm alarmId user).1 = e := by simp only [acknowledgeAlarm, found]
    simp only [same, Option.isSome_none, Bool.false_eq_true, if_false]
    exact ⟨confirming, filed.repeated (confirming.settled found) user now⟩
  | some x =>
    obtain ⟨own, active, named⟩ := acknowledged_some found
    have changed : (e.acknowledgeAlarm alarmId user).1 = e.setState x.1 { x.2 with status := .confirmed } := by
      simp only [acknowledgeAlarm, found]
    have holds : e.openAlarm x.1 = some alarmId :=
      openAlarm_eq_some.mpr ⟨by simp [own, PointAlarmState.alarming, active], own ▸ named⟩
    have unconfirmed : m.confirmed alarmId = none := by
      rw [← Option.not_isSome_iff_eq_none, ← confirming.status x.1 alarmId holds, own, active]
      decide
    obtain ⟨issued, live⟩ := (confirming.balanced.holds x.1 alarmId).mp holds
    simp only [Option.isSome_some, if_true]
    refine ⟨⟨?_, ?_, ?_⟩, filed.confirmed live unconfirmed user now⟩
    · rw [openAlarm_acknowledgeAlarm]
      exact confirming.balanced
    · intro p id open_
      rw [openAlarm_acknowledgeAlarm] at open_
      rw [changed, stateOf_setState]
      by_cases same : p = x.1
      · obtain rfl : alarmId = id := by
          rw [same, holds] at open_
          exact Option.some.inj open_
        simp only [same, Function.update_self, Option.isSome_some]
      · have other : id ≠ alarmId := by
          rintro rfl
          exact same (confirming.balanced.apart open_ holds)
        simp only [Function.update_of_ne same, Function.update_of_ne other]
        exact confirming.status p id open_
    · intro id confirmed
      by_cases same : id = alarmId
      · subst same
        exact Ledger.mem_ids_of_issued issued
      · simp only [Function.update_of_ne same] at confirmed
        exact confirming.issued id confirmed

/-- All acknowledgements of one call. -/
theorem Confirming.acknowledgeAll {cal : Calendar} {before : AlarmTables K} {s : AlarmRecordStore K}
    (confirming : Confirming e m) (filed : Filed cal before s m) (ids : List Nat) (user : String) (clock : Nat → Nat) :
    Confirming (e.acknowledgeAlarms user ids).1 { m with confirmed := e.confirmations user m.confirmed ids } ∧
      Filed cal before (s.receiveAll cal clock (ids.map fun id => .alarmAcknowledged id user))
        { m with confirmed := e.confirmations user m.confirmed ids } := by
  induction ids generalizing e s m clock with
  | nil => exact ⟨confirming, filed⟩
  | cons id ids ih =>
    rw [List.map_cons, receiveAll_cons]
    obtain ⟨first, stored⟩ := confirming.acknowledge filed id user (clock 0)
    exact ih first stored fun i => clock (i + 1)

theorem confirmations_other {id : Nat} {ids : List Nat} (apart : id ∉ ids) (confirmed : Nat → Option String) :
    e.confirmations user confirmed ids id = confirmed id := by
  induction ids generalizing e confirmed with
  | nil => rfl
  | cons first ids ih =>
    rw [List.mem_cons, not_or] at apart
    rw [confirmations, ih apart.2]
    split
    · exact Function.update_of_ne apart.1 _ _
    · rfl

end Acknowledge

/-- The statuses of all points but one. -/
def SameStatus (e d : AlarmEngine K) (pid : UInt32) : Prop :=
  ∀ p, p ≠ pid → (d.stateOf p).status = (e.stateOf p).status

theorem Moves.others {e d : AlarmEngine K} {pid : UInt32} {st : PointAlarmState K} (moves : Moves e d pid st) :
    SameStatus e d pid := by
  intro p other
  rw [moves.stateOf, Function.update_of_ne other]

theorem Confirming.raised {e d : AlarmEngine K} {m : Statuses} (confirming : Confirming e m) {pid : UInt32} {id : Nat}
    (balanced : (m.ledger.issue pid id).Balanced d.openAlarm) (unconfirmed : m.confirmed id = none)
    (opened : d.openAlarm = Function.update e.openAlarm pid (some id)) (active : (d.stateOf pid).status = .active)
    (others : SameStatus e d pid) : Confirming d { m with ledger := m.ledger.issue pid id } := by
  refine ⟨balanced, fun p i open_ => ?_, fun i confirmed => List.mem_cons_of_mem _ (confirming.issued i confirmed)⟩
  rw [opened] at open_
  by_cases own : p = pid
  · subst own
    obtain rfl : id = i := by simpa using open_
    simp [active, unconfirmed]
  · rw [Function.update_of_ne own] at open_
    rw [others p own]
    exact confirming.status p i open_

section News
variable [LT K] [DecidableLT K]

/-- An input ends an alarm, or acknowledges it. -/
inductive Settles (e : AlarmEngine K) : AlarmInput K → Nat → Prop
  | recovers {pid : UInt32} {value : K} {nowMono : Int} {nowEpoch id : Nat} (r : AlarmRule K)
      (watches : e.Watches pid r) (on : r.inOnSide value = false) (off : r.inOffSide value = true)
      (elapsed : ((e.seen pid value).awaitOff nowMono).offElapsed r nowMono = true)
      (open_ : e.openAlarm pid = some id) : e.Settles (.dataUpdated pid value nowMono nowEpoch) id
  | unruled {rules : List (AlarmRule K)} {p : UInt32} {id : Nat} (gone : ¬RuledBy rules p)
      (open_ : e.openAlarm p = some id) : e.Settles (.reloadRules rules) id
  | acknowledges {id : Nat} {user : String} : e.Settles (.acknowledgeAlarm id user) id
  | acknowledgesAll {ids : List Nat} {user : String} {id : Nat} (named : id ∈ ids) :
      e.Settles (.acknowledgeAlarms ids user) id

variable [ToString K]

/-- What a sample says of alarms, and what it does to the queue. -/
inductive SampleNews (e : AlarmEngine K) (pid : UInt32) (input : AlarmInput K) (d : AlarmEngine K)
    (signals : List (AlarmSignal K)) : Prop
  | nothing (kept : d.openAlarm = e.openAlarm) (status : ∀ p, (d.stateOf p).status = (e.stateOf p).status)
      (queue : d.pendingStorm = e.pendingStorm) (silent : signals = []) (none : e.raised input = none)
  | raised (ev : AlarmEvent K) (fresh : ev.id = e.alarmIdSeq + 1) (drawn : e.raised input = some (pid, ev.id))
      (opened : d.openAlarm = Function.update e.openAlarm pid (some ev.id))
      (active : (d.stateOf pid).status = .active) (others : SameStatus e d pid)
      (told : signals = [] ∧ ev.level ≠ .critical ∨ signals = publish ev)
      (queue : d.pendingStorm = e.pendingStorm ∨
        d.pendingStorm = e.pendingStorm ++ [ev] ∧ (signals = [] ∨ ev.level = .critical))
  | recovered (id : Nat) (open_ : e.openAlarm pid = some id) (settles : e.Settles input id)
      (closed : d.openAlarm = Function.update e.openAlarm pid none) (others : SameStatus e d pid)
      (queue : d.pendingStorm = e.pendingStorm) (told : signals = [.alarmRecovered id]) (none : e.raised input = none)

variable {e : AlarmEngine K}

theorem sampleNews (pid : UInt32) (value : K) (nowMono : Int) (nowEpoch : Nat) :
    SampleNews e pid (.dataUpdated pid value nowMono nowEpoch) (e.evaluate pid value nowMono nowEpoch).1
      (e.evaluate pid value nowMono nowEpoch).2 := by
  have on := (e.seen pid value).awaitOn_frame nowMono
  have off := (e.seen pid value).awaitOff_frame nowMono
  have quietly : ∀ {st : PointAlarmState K}, Moves e (e.evaluate pid value nowMono nowEpoch).1 pid st →
      st.status = (e.stateOf pid).status → st.activeId = (e.stateOf pid).activeId →
      Quiet e (e.evaluate pid value nowMono nowEpoch).1 (e.evaluate pid value nowMono nowEpoch).2 →
      SampleNews e pid (.dataUpdated pid value nowMono nowEpoch) (e.evaluate pid value nowMono nowEpoch).1
        (e.evaluate pid value nowMono nowEpoch).2 := by
    intro st moves status id quiet
    refine .nothing (moves.openAlarm status id) (fun p => ?_) quiet.pendingStorm quiet.signals
      (raised_of_seq quiet.alarmIdSeq)
    by_cases own : p = pid
    · rw [own, moves.own, status]
    · exact moves.others p own
  have effect := evaluated (e := e) pid value nowMono nowEpoch
  cases effect with
  | ignored unwatched same silent =>
    exact .nothing (by rw [same]) (by simp [same]) (by rw [same]) silent (raised_of_seq (by rw [same]))
  | waitsOn r watches on' moves early quiet => exact quietly moves on.2.1 on.2.2.1 quiet
  | swallows r due window moves quiet => exact quietly moves on.2.1 on.2.2.1 quiet
  | raises r due window moves seq queue published =>
    refine .raised (e.raisedEvent pid r value nowEpoch) rfl (raised_of_moves moves seq) (moves.openAlarm_raised rfl)
      (by rw [moves.own]) moves.others ?_ ?_
    · split at published
      · rename_i held
        exact Or.inl ⟨published, held.2⟩
      · exact Or.inr published
    · split at queue
      · rename_i room
        refine Or.inr ⟨queue, ?_⟩
        by_cases critical : r.level = .critical
        · exact Or.inr critical
        · exact Or.inl (published.trans (if_pos ⟨room.1, critical⟩))
      · exact Or.inl queue
  | waitsOff r watches on' off' early moves quiet => exact quietly moves off.2.1 off.2.2.1 quiet
  | calms r watches on' off' elapsed idle moves quiet => exact quietly moves off.2.1 off.2.2.1 quiet
  | recovers r watches on' off' elapsed alarming moves seq queue told =>
    have open_ : e.openAlarm pid = some (e.stateOf pid).activeId := openAlarm_eq_some.mpr ⟨alarming, rfl⟩
    exact .recovered _ open_ (.recovers r watches on' off' elapsed open_) (moves.openAlarm_recovered rfl) moves.others
      queue told (raised_of_seq seq)
  | between r watches on' off' moves quiet => exact quietly moves rfl rfl quiet

end News
end AlarmEngine

namespace AlarmSystem

/-- Rows, queue and engine agree with the monitor. -/
structure Agreed (cal : Calendar) (before : AlarmTables K) (x : AlarmSystem K × Statuses) : Prop where
  accounted : AlarmEngine.Accounted (x.1.engine, x.2.ledger)
  confirming : x.1.engine.Confirming x.2
  filed : Filed cal before x.1.store x.2
  waits : ∀ ev ∈ x.1.engine.pendingStorm, Waits cal before x.1.store x.2 ev

/-- The queue as it was, or with one more alarm. -/
theorem forall_queued {queue queue' : List (AlarmEvent K)} {ev : AlarmEvent K} {held : Prop} {P : AlarmEvent K → Prop}
    (grown : queue' = queue ∨ queue' = queue ++ [ev] ∧ held) (old : ∀ y ∈ queue, P y) (last : held → P ev) :
    ∀ y ∈ queue', P y := by
  rcases grown with same | ⟨longer, why⟩
  · rwa [same]
  · rw [longer, List.forall_mem_append, List.forall_mem_singleton]
    exact ⟨old, last why⟩

/-- Of the next id there has been nothing. -/
theorem Agreed.unheard {cal : Calendar} {before : AlarmTables K} {x : AlarmSystem K × Statuses}
    (agreed : Agreed cal before x) {id : Nat} (fresh : id = x.1.engine.alarmIdSeq + 1) :
    id ∉ x.2.ledger.ids ∧ id ∉ x.2.ledger.retired ∧ x.2.confirmed id = none := by
  have unissued : id ∉ x.2.ledger.ids := by
    intro member
    have ahead : id ≤ x.1.engine.alarmIdSeq := (agreed.accounted.bounded _ member).2
    omega
  refine ⟨unissued, fun ended => unissued (agreed.confirming.balanced.retired _ ended), ?_⟩
  rw [← Option.not_isSome_iff_eq_none]
  exact fun confirmed => unissued (agreed.confirming.issued _ confirmed)

theorem agreed_start (cal : Calendar) (before : AlarmTables K) : Agreed cal before (start before, {}) := by
  have none : ∀ month id row, ¬NewRow before before month id row := by
    rintro month id row ⟨present, absent⟩
    exact Option.some_ne_none _ (present.symm.trans absent)
  have accounted : AlarmEngine.Accounted (({} : AlarmEngine K), ({} : Ledger UInt32 Nat)) := AlarmEngine.accounted_start
  refine ⟨accounted, ⟨accounted.balanced, fun p id open_ => ?_, by simp⟩, ?_, by simp [start]⟩
  · simp [start, AlarmEngine.openAlarm, AlarmEngine.stateOf, PointAlarmState.alarming] at open_
  · exact ⟨fun month id row new => absurd new (none month id row),
      fun month id row new => absurd new (none month id row),
      fun month id row new => absurd new (none month id row), fun month id row new => absurd new (none month id row)⟩

section Queue
variable [LT K] [DecidableLT K]

/-- No alarm is settled while it waits in the storm queue, unless it was told at once; and a
batch that goes into a table belongs there. -/
structure Undisturbed (cal : Calendar) (s : AlarmSystem K) (input : AlarmInput K × (Nat → Nat)) : Prop where
  unsettled : ∀ ev ∈ s.engine.pendingStorm, s.engine.Settles input.1 ev.id → ev.level = .critical
  together : ∀ nowMono, input.1 = .stormFlush nowMono → s.engine.stormActive = true →
    ∀ front, s.engine.pendingStorm.head? = some front → ∀ month, openAlarmTable cal front.triggerTime = some month →
      (∀ ev ∈ s.engine.pendingStorm, s.store.tables month ev.id = none) →
        ∀ ev ∈ s.engine.pendingStorm, openAlarmTable cal ev.triggerTime = some month

/-- Nothing waits but a single alarm that the input flushes. -/
def settledQueue (s : AlarmSystem K) (input : AlarmInput K × (Nat → Nat)) : Bool :=
  match input.1 with
  | .stormFlush _ => s.engine.pendingStorm.length ≤ 1
  | _ => s.engine.pendingStorm.isEmpty

theorem undisturbed_of_settled {cal : Calendar} {s : AlarmSystem K} {input : AlarmInput K × (Nat → Nat)}
    (settled : s.settledQueue input = true) : Undisturbed cal s input := by
  obtain ⟨input, clock⟩ := input
  cases input with
  | stormFlush nowMono =>
    simp only [settledQueue, decide_eq_true_eq] at settled
    refine ⟨fun ev _ settles => ?_, fun _ _ _ front first month named _ ev member => ?_⟩
    · cases settles
    obtain ⟨rest, queue⟩ := List.head?_eq_some_iff.mp first
    obtain rfl : rest = [] := by simpa [queue] using settled
    rw [queue] at member
    exact List.mem_singleton.mp member ▸ named
  | _ =>
    have empty : s.engine.pendingStorm = [] := List.isEmpty_iff.mp settled
    exact ⟨by simp [empty], by simp⟩

end Queue

variable [LT K] [DecidableLT K] [BEq K] [ToString K]

/-- The monitor: ids given out and recovered, and who confirmed what. -/
def trackStatuses (s : AlarmSystem K) (m : Statuses) (input : AlarmInput K × (Nat → Nat))
    (signals : List (AlarmSignal K)) : Statuses where
  ledger := AlarmEngine.trackIds s.engine m.ledger input.1 signals
  confirmed :=
    match input.1 with
    | .acknowledgeAlarm id user => s.engine.confirmations user m.confirmed [id]
    | .acknowledgeAlarms ids user => s.engine.confirmations user m.confirmed ids
    | _ => m.confirmed

def statusing (cal : Calendar) : Runs.Step (AlarmSystem K × Statuses) (AlarmInput K × (Nat → Nat)) (AlarmSignal K) :=
  Runs.watch (step cal) trackStatuses

section Steps
variable {cal : Calendar} {before : AlarmTables K} {x : AlarmSystem K × Statuses} {input : AlarmInput K × (Nat → Nat)}

theorem accounted_statusing (agreed : Agreed cal before x) (input : AlarmInput K × (Nat → Nat)) :
    AlarmEngine.Accounted ((statusing cal x input).1.1.engine, (statusing cal x input).1.2.ledger) :=
  agreed.accounted.step input.1

theorem engine_statusing : (statusing cal x input).1.1.engine = (x.1.engine.step input.1).1 := rfl

theorem store_statusing :
    (statusing cal x input).1.1.store = x.1.store.receiveAll cal input.2 (x.1.engine.step input.1).2 := rfl

/-- A step that raises nothing retires the ids that it reports as over. -/
theorem statuses_retire (x : AlarmSystem K × Statuses) (input : AlarmInput K × (Nat → Nat))
    (none : x.1.engine.raised input.1 = none) {ended : List Nat}
    (said : AlarmEngine.recoveries (x.1.engine.step input.1).2 = ended) {confirmed : Nat → Option String}
    (other : (statusing cal x input).1.2.confirmed = confirmed) :
    (statusing cal x input).1.2 = { ledger := x.2.ledger.retire ended, confirmed := confirmed } := by
  have reported : AlarmEngine.recoveries (step cal x.1 input).2 = ended := said
  refine congrArg₂ Statuses.mk ?_ other
  simp only [AlarmEngine.trackIds, none, reported]

/-- A step that raises an alarm issues its id, and reports nothing as over. -/
theorem statuses_issue (x : AlarmSystem K × Statuses) (input : AlarmInput K × (Nat → Nat)) {p : UInt32} {id : Nat}
    (drawn : x.1.engine.raised input.1 = some (p, id))
    (said : AlarmEngine.recoveries (x.1.engine.step input.1).2 = [])
    (other : (statusing cal x input).1.2.confirmed = x.2.confirmed) :
    (statusing cal x input).1.2 = { x.2 with ledger := x.2.ledger.issue p id } := by
  have reported : AlarmEngine.recoveries (step cal x.1 input).2 = [] := said
  refine congrArg₂ Statuses.mk ?_ other
  simp only [AlarmEngine.trackIds, drawn, reported]
  rfl

/-- A step that says nothing, draws no id and leaves statuses and queue alone. -/
theorem Agreed.silent (agreed : Agreed cal before x)
    (kept : (x.1.engine.step input.1).1.openAlarm = x.1.engine.openAlarm)
    (status : ∀ p, ((x.1.engine.step input.1).1.stateOf p).status = (x.1.engine.stateOf p).status)
    (queue : (x.1.engine.step input.1).1.pendingStorm = x.1.engine.pendingStorm)
    (silent : (x.1.engine.step input.1).2 = []) (none : x.1.engine.raised input.1 = none)
    (other : (statusing cal x input).1.2.confirmed = x.2.confirmed) : Agreed cal before (statusing cal x input).1 := by
  have same : (statusing cal x input).1.2 = x.2 :=
    statuses_retire x input none (congrArg AlarmEngine.recoveries silent) other
  have store : (statusing cal x input).1.1.store = x.1.store := by
    rw [store_statusing, silent]
    rfl
  refine ⟨accounted_statusing agreed input, ?_, ?_, ?_⟩
  · rw [engine_statusing, same]
    refine ⟨kept ▸ agreed.confirming.balanced, fun p id open_ => ?_, agreed.confirming.issued⟩
    rw [status p]
    exact agreed.confirming.status p id (kept ▸ open_)
  · rw [store, same]
    exact agreed.filed
  · rw [engine_statusing, queue, store, same]
    exact agreed.waits

/-- A sample that raises an alarm. -/
theorem Agreed.raised (agreed : Agreed cal before x) {pid : UInt32} {ev : AlarmEvent K}
    (fresh : ev.id = x.1.engine.alarmIdSeq + 1) (drawn : x.1.engine.raised input.1 = some (pid, ev.id))
    (opened : (x.1.engine.step input.1).1.openAlarm = Function.update x.1.engine.openAlarm pid (some ev.id))
    (active : ((x.1.engine.step input.1).1.stateOf pid).status = .active)
    (others : AlarmEngine.SameStatus x.1.engine (x.1.engine.step input.1).1 pid)
    (told : (x.1.engine.step input.1).2 = [] ∧ ev.level ≠ .critical ∨
      (x.1.engine.step input.1).2 = AlarmEngine.publish ev)
    (queue : (x.1.engine.step input.1).1.pendingStorm = x.1.engine.pendingStorm ∨
      (x.1.engine.step input.1).1.pendingStorm = x.1.engine.pendingStorm ++ [ev] ∧
        ((x.1.engine.step input.1).2 = [] ∨ ev.level = .critical))
    (other : (statusing cal x input).1.2.confirmed = x.2.confirmed) :
    Agreed cal before (statusing cal x input).1 := by
  have accounted := accounted_statusing agreed input
  obtain ⟨unissued, live, unconfirmed⟩ := agreed.unheard fresh
  have silent : AlarmEngine.recoveries (x.1.engine.step input.1).2 = [] := by
    rcases told with ⟨nothing, -⟩ | published
    · rw [nothing]
      rfl
    · rw [published, AlarmEngine.recoveries_publish]
  have ledger : (statusing cal x input).1.2 = { x.2 with ledger := x.2.ledger.issue pid ev.id } :=
    statuses_issue x input drawn silent other
  have balanced : (x.2.ledger.issue pid ev.id).Balanced (x.1.engine.step input.1).1.openAlarm := by
    rw [ledger] at accounted
    exact accounted.balanced
  have confirming : (x.1.engine.step input.1).1.Confirming (statusing cal x input).1.2 := by
    rw [ledger]
    exact agreed.confirming.raised balanced unconfirmed opened active others
  rcases told with ⟨nothing, plain⟩ | published
  · have store : (statusing cal x input).1.1.store = x.1.store := by
      rw [store_statusing, nothing]
      rfl
    refine ⟨accounted, confirming, ?_, ?_⟩
    · rw [store, ledger]
      exact agreed.filed.congr (fun id => Iff.rfl) (fun id => List.mem_cons_of_mem _) rfl
    · rw [engine_statusing, store, ledger]
      refine forall_queued queue ?_ ?_
      · exact fun y member => (agreed.waits y member).of_issued pid ev.id
      · exact fun _ => waits_untold agreed.filed unissued live unconfirmed plain pid
  · have store : (statusing cal x input).1.1.store = x.1.store.onAlarmTriggered cal ev := by
      rw [store_statusing, published]
      unfold AlarmEngine.publish
      split <;> rfl
    refine ⟨accounted, confirming, ?_, ?_⟩
    · rw [store, ledger]
      exact agreed.filed.triggered unissued live unconfirmed pid
    · rw [engine_statusing, store, ledger]
      refine forall_queued queue ?_ ?_
      · intro y member
        have apart : y.id ≠ ev.id := fun same => unissued (same ▸ (agreed.waits y member).issued)
        exact (agreed.waits y member).of_triggered apart pid
      · intro why
        have critical : ev.level = .critical := why.resolve_left fun nothing => by
          rw [published] at nothing
          simp [AlarmEngine.publish] at nothing
        exact waits_triggered agreed.filed unissued critical pid

/-- A step whose signals only mark rows: what is left to show is said of the rows alone. -/
theorem Agreed.marked (agreed : Agreed cal before x) (undisturbed : Undisturbed cal x.1 input)
    (quiet : ∀ y ∈ (x.1.engine.step input.1).2, y.events = [])
    (queue : (x.1.engine.step input.1).1.pendingStorm = x.1.engine.pendingStorm)
    (issued : ∀ id, id ∈ x.2.ledger.ids → id ∈ (statusing cal x input).1.2.ledger.ids)
    (untouched : ∀ id, ¬x.1.engine.Settles input.1 id → id ∉ x.2.ledger.retired ∧ x.2.confirmed id = none →
      id ∉ (statusing cal x input).1.2.ledger.retired ∧ (statusing cal x input).1.2.confirmed id = none)
    (confirming : (x.1.engine.step input.1).1.Confirming (statusing cal x input).1.2)
    (filed : Filed cal before (statusing cal x input).1.1.store (statusing cal x input).1.2) :
    Agreed cal before (statusing cal x input).1 := by
  refine ⟨accounted_statusing agreed input, confirming, filed, ?_⟩
  rw [engine_statusing, queue]
  intro ev member
  have waits := agreed.waits ev member
  refine waits.of_same ev (AlarmRecordStore.receiveAll_same input.2 quiet) (issued _ waits.issued) fun plain => ?_
  exact untouched ev.id (fun settles => plain (undisturbed.unsettled ev member settles)) (waits.unheard plain)

/-- A sample that recovers the alarm of its point. -/
theorem Agreed.recovered (agreed : Agreed cal before x) (undisturbed : Undisturbed cal x.1 input) {pid : UInt32}
    {id : Nat} (open_ : x.1.engine.openAlarm pid = some id) (settles : x.1.engine.Settles input.1 id)
    (closed : (x.1.engine.step input.1).1.openAlarm = Function.update x.1.engine.openAlarm pid none)
    (others : AlarmEngine.SameStatus x.1.engine (x.1.engine.step input.1).1 pid)
    (queue : (x.1.engine.step input.1).1.pendingStorm = x.1.engine.pendingStorm)
    (told : (x.1.engine.step input.1).2 = [.alarmRecovered id]) (none : x.1.engine.raised input.1 = none)
    (other : (statusing cal x input).1.2.confirmed = x.2.confirmed) : Agreed cal before (statusing cal x input).1 := by
  have live := ((agreed.confirming.balanced.holds pid id).mp open_).2
  have accounted := accounted_statusing agreed input
  have ledger : (statusing cal x input).1.2 = { x.2 with ledger := x.2.ledger.retire [id] } :=
    statuses_retire x input none (congrArg AlarmEngine.recoveries told) other
  have store : (statusing cal x input).1.1.store = x.1.store.onAlarmRecovered cal id (input.2 0) := by
    rw [store_statusing, told]
    rfl
  refine agreed.marked undisturbed ?_ queue ?_ ?_ ?_ ?_
  · simp only [told, List.mem_singleton, forall_eq]
    rfl
  · rw [ledger]
    exact fun i issued => issued
  · rw [ledger]
    intro i unsettled unheard
    refine ⟨?_, unheard.2⟩
    simp only [Ledger.retire, List.singleton_append, List.mem_cons, not_or]
    exact ⟨fun same => unsettled (same ▸ settles), unheard.1⟩
  · refine ⟨accounted.balanced, fun p i opens => ?_, ?_⟩
    · have apart : p ≠ pid := by
        rintro rfl
        simp [closed] at opens
      rw [closed, Function.update_of_ne apart] at opens
      rw [ledger, others p apart]
      exact agreed.confirming.status p i opens
    · rw [ledger]
      exact agreed.confirming.issued
  · rw [ledger, store]
    exact agreed.filed.recovered live (input.2 0)

theorem Agreed.sample (agreed : Agreed cal before x) {pid : UInt32} {value : K} {nowMono : Int} {nowEpoch : Nat}
    {clock : Nat → Nat} (undisturbed : Undisturbed cal x.1 (.dataUpdated pid value nowMono nowEpoch, clock)) :
    Agreed cal before (statusing cal x (.dataUpdated pid value nowMono nowEpoch, clock)).1 := by
  have news := AlarmEngine.sampleNews (e := x.1.engine) pid value nowMono nowEpoch
  cases news with
  | nothing kept status queue silent none => exact agreed.silent kept status queue silent none rfl
  | raised ev fresh drawn opened active others told queue =>
    exact agreed.raised fresh drawn opened active others told queue rfl
  | recovered id open_ settles closed others queue told none =>
    exact agreed.recovered undisturbed open_ settles closed others queue told none rfl

theorem Agreed.reload (agreed : Agreed cal before x) {rules : List (AlarmRule K)} {clock : Nat → Nat}
    (undisturbed : Undisturbed cal x.1 (.reloadRules rules, clock)) :
    Agreed cal before (statusing cal x (.reloadRules rules, clock)).1 := by
  have balanced := agreed.confirming.balanced
  have orphaned : ∀ id ∈ x.1.engine.orphans (AlarmEngine.newRules rules), x.1.engine.Settles (.reloadRules rules) id ∧
      id ∉ x.2.ledger.retired := by
    intro id member
    obtain ⟨p, gone, open_⟩ := AlarmEngine.mem_orphans.mp member
    exact ⟨.unruled ((AlarmEngine.newRules_eq_none_iff p).mp gone) open_, ((balanced.holds p id).mp open_).2⟩
  have ledger : (statusing cal x (.reloadRules rules, clock)).1.2 =
      { x.2 with ledger := x.2.ledger.retire (x.1.engine.orphans (AlarmEngine.newRules rules)) } :=
    statuses_retire x (.reloadRules rules, clock) rfl AlarmEngine.recoveries_doReloadRules rfl
  have accounted := accounted_statusing agreed (.reloadRules rules, clock)
  refine agreed.marked undisturbed ?_ rfl ?_ ?_ ?_ ?_
  · simp only [AlarmEngine.step, AlarmEngine.doReloadRules, List.forall_mem_map]
    exact fun _ _ => rfl
  · rw [ledger]
    exact fun i issued => issued
  · rw [ledger]
    intro i unsettled unheard
    refine ⟨fun retired => ?_, unheard.2⟩
    exact (List.mem_append.mp retired).elim (fun ended => unsettled (orphaned i ended).1) unheard.1
  · refine ⟨accounted.balanced, fun p i opens => ?_, ?_⟩
    · rw [AlarmEngine.step, AlarmEngine.openAlarm_doReloadRules] at opens
      split at opens
      · rename_i ruled
        rw [((agreed.accounted.reloaded rules).kept p ruled).1.2, ledger]
        exact agreed.confirming.status p i opens
      · cases opens
    · rw [ledger]
      exact agreed.confirming.issued
  · rw [ledger]
    refine agreed.filed.recoveredAll ?_ (fun id member => (orphaned id member).2) clock
    exact AlarmEngine.nodup_orphans (fun p q id => balanced.apart) _

theorem Agreed.acknowledge (agreed : Agreed cal before x) {ids : List Nat} {user : String}
    (undisturbed : Undisturbed cal x.1 input)
    (engine : x.1.engine.step input.1 = x.1.engine.acknowledgeAlarms user ids)
    (confirmed : (statusing cal x input).1.2.confirmed = x.1.engine.confirmations user x.2.confirmed ids)
    (none : x.1.engine.raised input.1 = none) (settles : ∀ id ∈ ids, x.1.engine.Settles input.1 id) :
    Agreed cal before (statusing cal x input).1 := by
  have signals : (x.1.engine.step input.1).2 = ids.map fun id => .alarmAcknowledged id user := by
    rw [engine, AlarmEngine.acknowledgeAlarms_signals]
  have nothing : AlarmEngine.recoveries (x.1.engine.step input.1).2 = [] := by
    simp [signals, AlarmEngine.recoveries]
  have same : (statusing cal x input).1.2 =
      { x.2 with confirmed := x.1.engine.confirmations user x.2.confirmed ids } :=
    statuses_retire x input none nothing confirmed
  have store : (statusing cal x input).1.1.store =
      x.1.store.receiveAll cal input.2 (ids.map fun id => .alarmAcknowledged id user) := by
    rw [store_statusing, signals]
  obtain ⟨confirming, filed⟩ := agreed.confirming.acknowledgeAll agreed.filed ids user input.2
  refine agreed.marked undisturbed ?_ ?_ ?_ ?_ ?_ ?_
  · rw [engine, AlarmEngine.acknowledgeAlarms_signals, List.forall_mem_map]
    exact fun _ _ => rfl
  · rw [engine]
    exact (AlarmEngine.acknowledgeAlarms_frame ids user).2.1
  · rw [same]
    exact fun i issued => issued
  · rw [same]
    intro i unsettled unheard
    refine ⟨unheard.1, ?_⟩
    exact (AlarmEngine.confirmations_other (fun member => unsettled (settles i member)) _).trans unheard.2
  · rw [engine, same]
    exact confirming
  · rw [store, same]
    exact filed

theorem Agreed.flush (agreed : Agreed cal before x) {nowMono : Int} {clock : Nat → Nat}
    (undisturbed : Undisturbed cal x.1 (.stormFlush nowMono, clock)) :
    Agreed cal before (statusing cal x (.stormFlush nowMono, clock)).1 := by
  rcases AlarmEngine.onStormFlush_cases (e := x.1.engine) nowMono with
    ⟨-, same⟩ | ⟨⟨storm, waiting⟩, active, rest, ended, same⟩
  · have idle : x.1.engine.step (.stormFlush nowMono) = (x.1.engine, []) := same
    exact agreed.silent (by rw [idle]) (fun p => by rw [idle]) (by rw [idle]) (by rw [idle]) rfl rfl
  · obtain ⟨front, others, queue⟩ := List.exists_cons_of_ne_nil waiting
    have served : x.1.engine.step (.stormFlush nowMono) = _ := same
    have silent : AlarmEngine.recoveries (x.1.engine.step (.stormFlush nowMono)).2 = [] := by
      rw [served]
      rcases ended with rfl | rfl <;> rfl
    have stored : x.1.store.receiveAll cal clock (x.1.engine.step (.stormFlush nowMono)).2 =
        x.1.store.onStormBatch cal x.1.engine.pendingStorm := by
      rw [served]
      rcases ended with rfl | rfl <;> rfl
    have kept : (statusing cal x (.stormFlush nowMono, clock)).1.2 = x.2 :=
      statuses_retire x (.stormFlush nowMono, clock) rfl silent rfl
    refine ⟨accounted_statusing agreed (.stormFlush nowMono, clock), ?_, ?_, ?_⟩
    · rw [engine_statusing, kept, served]
      exact agreed.confirming.of_same rfl fun _ => rfl
    · rw [store_statusing, stored, kept, queue]
      refine agreed.filed.batch (queue ▸ agreed.waits) fun month named free => ?_
      have together := undisturbed.together nowMono rfl storm front (by rw [queue]; rfl) month named
      rw [queue] at together
      exact together free
    · rw [engine_statusing, served]
      simp

theorem Agreed.step (agreed : Agreed cal before x) (input : AlarmInput K × (Nat → Nat))
    (undisturbed : Undisturbed cal x.1 input) : Agreed cal before (statusing cal x input).1 := by
  obtain ⟨input, clock⟩ := input
  cases input with
  | dataUpdated pid value nowMono nowEpoch => exact agreed.sample undisturbed
  | reloadRules rules => exact agreed.reload undisturbed
  | acknowledgeAlarm id user =>
    have one : x.1.engine.step (.acknowledgeAlarm id user) = x.1.engine.acknowledgeAlarms user [id] := by
      simp [AlarmEngine.step, AlarmEngine.acknowledgeAlarms]
    refine agreed.acknowledge undisturbed one rfl rfl fun i member => ?_
    obtain rfl := List.mem_singleton.mp member
    exact .acknowledges
  | acknowledgeAlarms ids user =>
    exact agreed.acknowledge undisturbed rfl rfl rfl fun i member => .acknowledgesAll member
  | stormFlush nowMono => exact agreed.flush undisturbed
  | _ => exact agreed.silent rfl (fun _ => rfl) rfl rfl rfl rfl

end Steps

/-- While no alarm is settled in the storm queue, and batches go where they belong, the rows of
a run show the status of their alarms whenever the queue is empty. -/
theorem status_agrees (cal : Calendar) (before : AlarmTables K) (inputs : List (AlarmInput K × (Nat → Nat)))
    (undisturbed : ∀ v ∈ Runs.visits (statusing cal) (start before, {}) inputs, Undisturbed cal v.1.1 v.2) :
    ∀ x ∈ Runs.reached (statusing cal) (start before, {}) inputs, x.1.engine.pendingStorm = [] →
      RowsShow before x.1.store x.2 := by
  intro x member _
  have agreed := Runs.reached_invariant (statusing cal) inputs (I := Agreed cal before)
    (A := fun x input => Undisturbed cal x.1 input) (agreed_start cal before)
    (fun x input agreed undisturbed => agreed.step input undisturbed) undisturbed x member
  exact agreed.filed.shows

/-- A warning of a storm that is flushed, acknowledged and recovered. -/
def flushedWarning : List (AlarmInput Int × (Nat → Nat)) :=
  [.setStormConfig { threshold := 0 },
    .reloadRules [{ pointId := 1, onThreshold := 10, offThreshold := 5, onDelayMs := 0, offDelayMs := 0 }],
    .dataUpdated 1 20 100000 1767312000000, .stormFlush 100200, .acknowledgeAlarm 1 "operator",
    .dataUpdated 1 0 100400 1767312000400].map (fun input => (input, fun _ => 1767312000500))

theorem status_agrees_flushed :
    RowsShow (fun _ _ => none) (Runs.run (statusing oneMonth) (start (fun _ _ => none), {}) flushedWarning).1.store
      (Runs.run (statusing oneMonth) (start (fun _ _ => none), {}) flushedWarning).2 := by
  have settled : ∀ v ∈ Runs.visits (statusing oneMonth) (start (fun _ _ => none), {}) flushedWarning,
      v.1.1.settledQueue v.2 = true := by decide +kernel
  exact status_agrees oneMonth (fun _ _ => none) flushedWarning
    (fun v visited => undisturbed_of_settled (settled v visited))
    _ Runs.run_mem_reached (by decide +kernel)

/-- A warning of a storm that is over before its queue is flushed. -/
def recoveredInQueue : List (AlarmInput Int × (Nat → Nat)) :=
  [.setStormConfig { threshold := 0 },
    .reloadRules [{ pointId := 1, onThreshold := 10, offThreshold := 5, onDelayMs := 0, offDelayMs := 0 }],
    .dataUpdated 1 20 100000 1767312000000, .dataUpdated 1 0 100100 1767312000100,
    .stormFlush 100200].map (fun input => (input, fun _ => 1767312000500))

/-- The recovery comes before the row, which then stays active for good. -/
theorem status_disagrees : ¬∀ x ∈ Runs.reached (statusing oneMonth) (start (fun _ _ => none), {}) recoveredInQueue,
    x.1.engine.pendingStorm = [] → RowsShow (fun _ _ => none) x.1.store x.2 := by
  intro agree
  have final := agree _ Runs.run_mem_reached (by decide +kernel)
  have written : ((Runs.run (statusing oneMonth) (start (fun _ _ => none), {}) recoveredInQueue).1.store.tables
      "202601" 1).map (·.status) = some 0 := by decide +kernel
  have ended : 1 ∈ (Runs.run (statusing oneMonth) (start (fun _ _ => none), {}) recoveredInQueue).2.ledger.retired := by
    decide +kernel
  obtain ⟨row, present, active⟩ := Option.map_eq_some_iff.mp written
  have shows := final "202601" 1 row ⟨present, rfl⟩
  rw [Statuses.Shows, if_pos ended, active] at shows
  exact absurd shows (by decide)

end AlarmSystem
end EnerSentry.Business
