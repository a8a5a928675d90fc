import Mathlib.Algebra.Notation.Defs
import EnerSentry.Lib.KeyedTable

/-!
The alarm part of the data access layer: one table a month, keyed by alarm id, written in
transactions. A month is named by the local calendar, which the platform provides; a table
is usable when the start of its month, read back from the name, names the same month.
-/

namespace EnerSentry.Datahub
open EnerSentry.Lib

/-- The local calendar: the month of a time stamp as `yyyyMM`, and where a named month
starts, in milliseconds. -/
structure Calendar where
  month : Nat → String
  monthStart : String → Nat

structure AlarmRecord (K : Type*) [Zero K] where
  id : Nat := 0
  pointId : UInt32 := 0
  level : Int := 0
  status : Int := 0
  triggerTime : Nat := 0
  recoverTime : Nat := 0
  confirmUser : String := ""
  confirmTime : Nat := 0
  alarmValue : K := 0
  threshold : K := 0
  description : String := ""
  blackboxId : Nat := 0
  deriving DecidableEq, Repr

variable {K : Type*} [Zero K]

namespace AlarmRecord

/-- The `CHECK` constraints of the table. -/
def admissible (r : AlarmRecord K) : Bool := 0 ≤ r.level && r.level ≤ 2 && 0 ≤ r.status && r.status ≤ 2

/-- A record without what recovery and confirmation write. -/
def blank (r : AlarmRecord K) : AlarmRecord K :=
  { r with status := 0, recoverTime := 0, confirmUser := "", confirmTime := 0 }

end AlarmRecord

/-- The monthly tables, one row for each id at most. -/
abbrev AlarmTables (K : Type*) [Zero K] := String → KeyedTable.Table Nat (AlarmRecord K)

def maxSaneTs : Nat := 4102444800000

section Tables
variable (cal : Calendar)

def alarmTableNameOf (timestamp : Nat) : Option String :=
  if timestamp = 0 ∨ maxSaneTs < timestamp then none else some (cal.month timestamp)

/-- The table of a month is created under the name of the month's start. -/
def ensureAlarmSchema (month : String) : Bool :=
  cal.monthStart month ≠ 0 && alarmTableNameOf cal (cal.monthStart month) = some month

/-- The table that takes a record of this time, once it is open. -/
def openAlarmTable (timestamp : Nat) : Option String :=
  (alarmTableNameOf cal timestamp).filter (ensureAlarmSchema cal)

/-- One transaction in the table of the first record's month. -/
def insertAlarmRecords (db : AlarmTables K) (records : List (AlarmRecord K)) : AlarmTables K × Bool :=
  match records with
  | [] => (db, true)
  | front :: _ =>
      match openAlarmTable cal front.triggerTime with
      | none => (db, false)
      | some month =>
          match KeyedTable.insertAll (·.id) AlarmRecord.admissible (db month) records with
          | none => (db, false)
          | some table => (Function.update db month table, true)

/-- An update of the row of one id; a missing row is no error. -/
def updateAlarm (db : AlarmTables K) (triggerTime alarmId : Nat) (change : AlarmRecord K → AlarmRecord K) :
    AlarmTables K × Bool :=
  match openAlarmTable cal triggerTime with
  | none => (db, false)
  | some month => (Function.update db month (KeyedTable.modify (db month) alarmId change), true)

def setAlarmRecovered (db : AlarmTables K) (triggerTime alarmId recoverTime : Nat) : AlarmTables K × Bool :=
  updateAlarm cal db triggerTime alarmId (fun r => { r with status := 2, recoverTime := recoverTime })

def setAlarmConfirmed (db : AlarmTables K) (triggerTime alarmId : Nat) (user : String) (confirmTime : Nat) :
    AlarmTables K × Bool :=
  updateAlarm cal db triggerTime alarmId (fun r =>
    if r.status = 0 then { r with status := 1, confirmUser := user, confirmTime := confirmTime } else r)

end Tables

section Effects
variable {cal : Calendar} {db : AlarmTables K} {records : List (AlarmRecord K)}

/-- A transaction either leaves everything as it was or puts its rows into one table, where
their ids were free. -/
theorem insertAlarmRecords_cases (cal : Calendar) (db : AlarmTables K) (front : AlarmRecord K)
    (rest : List (AlarmRecord K))
    (all : records = front :: rest) :
    ((insertAlarmRecords cal db records).1 = db ∧
      ∀ month, openAlarmTable cal front.triggerTime = some month →
        KeyedTable.insertAll (·.id) AlarmRecord.admissible (db month) records = none) ∨
    ∃ month table, openAlarmTable cal front.triggerTime = some month ∧
      KeyedTable.insertAll (·.id) AlarmRecord.admissible (db month) records = some table ∧
      (insertAlarmRecords cal db records).1 = Function.update db month table := by
  subst all
  cases named : openAlarmTable cal front.triggerTime with
  | none => exact Or.inl ⟨by simp only [insertAlarmRecords, named], fun month found => by cases found⟩
  | some month =>
    cases done : KeyedTable.insertAll (·.id) AlarmRecord.admissible (db month) (front :: rest) with
    | none =>
      refine Or.inl ⟨by simp only [insertAlarmRecords, named, done], fun m found => ?_⟩
      rw [← Option.some.inj found]
      exact done
    | some table => exact Or.inr ⟨month, table, rfl, done, by simp only [insertAlarmRecords, named, done]⟩

/-- An update reaches the row of one id in the table of one month. -/
theorem updateAlarm_row {triggerTime alarmId : Nat} {change : AlarmRecord K → AlarmRecord K} (month : String)
    (id : Nat) :
    (updateAlarm cal db triggerTime alarmId change).1 month id =
      if openAlarmTable cal triggerTime = some month ∧ id = alarmId then (db month id).map change else db month id := by
  unfold updateAlarm
  cases openAlarmTable cal triggerTime with
  | none => simp
  | some home =>
    simp only [Option.some.injEq]
    by_cases here : month = home
    · subst here
      rw [Function.update_self]
      by_cases own : id = alarmId
      · rw [if_pos ⟨rfl, own⟩, own, KeyedTable.modify_self]
      · rw [if_neg (fun both => own both.2), KeyedTable.modify_of_ne own]
    · rw [Function.update_of_ne here, if_neg (fun both => here both.1.symm)]

/-- Every row that is there stays, as it was but for recovery and confirmation. -/
def RowsKept (before after : AlarmTables K) : Prop :=
  ∀ month id row, before month id = some row → ∃ row', after month id = some row' ∧ row'.blank = row.blank

/-- No row appears or changes but for recovery and confirmation. -/
def RowsSame (before after : AlarmTables K) : Prop :=
  ∀ month id, (after month id).map AlarmRecord.blank = (before month id).map AlarmRecord.blank

theorem RowsKept.refl (db : AlarmTables K) : RowsKept db db := fun _ _ row present => ⟨row, present, rfl⟩

theorem RowsKept.trans {a b c : AlarmTables K} (first : RowsKept a b) (second : RowsKept b c) : RowsKept a c := by
  intro month id row present
  obtain ⟨row', present', same⟩ := first month id row present
  obtain ⟨row'', present'', same'⟩ := second month id row' present'
  exact ⟨row'', present'', same'.trans same⟩

theorem RowsSame.refl (db : AlarmTables K) : RowsSame db db := fun _ _ => rfl

theorem RowsSame.trans {a b c : AlarmTables K} (first : RowsSame a b) (second : RowsSame b c) : RowsSame a c :=
  fun month id => (second month id).trans (first month id)

theorem RowsSame.kept {a b : AlarmTables K} (same : RowsSame a b) : RowsKept a b := by
  intro month id row present
  have after := same month id
  rw [present, Option.map_some] at after
  exact Option.map_eq_some_iff.mp after

/-- A transaction changes no row that is there. -/
theorem insertAlarmRecords_keeps {month : String} {id : Nat} {row : AlarmRecord K} (present : db month id = some row) :
    (insertAlarmRecords cal db records).1 month id = some row := by
  cases records with
  | nil => exact present
  | cons front rest =>
    rcases insertAlarmRecords_cases cal db front rest rfl with ⟨same, -⟩ | ⟨home, table, -, done, after⟩
    · rwa [same]
    · rw [after]
      by_cases here : month = home
      · subst here
        rw [Function.update_self]
        exact KeyedTable.insertAll_keeps done present
      · rwa [Function.update_of_ne here]

theorem insertAlarmRecords_kept : RowsKept db (insertAlarmRecords cal db records).1 :=
  fun _ _ row present => ⟨row, insertAlarmRecords_keeps present, rfl⟩

theorem updateAlarm_same {triggerTime alarmId : Nat} {change : AlarmRecord K → AlarmRecord K}
    (harmless : ∀ r, (change r).blank = r.blank) : RowsSame db (updateAlarm cal db triggerTime alarmId change).1 := by
  intro month id
  rw [updateAlarm_row]
  split
  · rw [Option.map_map]
    congr 1
    funext r
    exact harmless r
  · rfl

theorem setAlarmRecovered_same {triggerTime alarmId recoverTime : Nat} :
    RowsSame db (setAlarmRecovered cal db triggerTime alarmId recoverTime).1 :=
  updateAlarm_same fun _ => rfl

theorem setAlarmConfirmed_same {triggerTime alarmId : Nat} {user : String} {confirmTime : Nat} :
    RowsSame db (setAlarmConfirmed cal db triggerTime alarmId user confirmTime).1 := by
  apply updateAlarm_same
  intro r
  split <;> rfl

end Effects

end EnerSentry.Datahub
