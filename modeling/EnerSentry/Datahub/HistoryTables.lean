import EnerSentry.Datahub.AlarmTables
import EnerSentry.Datahub.DownSampler

/-!
The history part of the data access layer: one database a month, in it one table for each
granularity, keyed by point and time stamp. A batch is written in one transaction. Whether
opening, preparing and committing succeed is up to the platform.
-/

namespace EnerSentry.Datahub
open EnerSentry.Lib

variable {K : Type*}

namespace DownSampledSample

/-- The primary key of a history table. -/
def key (r : DownSampledSample K) : UInt32 × Nat := (r.pointId, r.timestamp)

/-- The `NOT NULL` constraints: a value that is not a number is stored as `NULL`. -/
def storable [Reading K] (r : DownSampledSample K) : Bool :=
  !Reading.isNaN r.maxValue && !Reading.isNaN r.minValue && !Reading.isNaN r.avgValue

end DownSampledSample

/-- A table is named by its granularity and month. -/
abbrev TableName := HistoryGranularity × String

abbrev HistoryTable (K : Type*) := KeyedTable.Table (UInt32 × Nat) (DownSampledSample K)

/-- The monthly databases; a database is named by its month. -/
abbrev HistoryTables (K : Type*) := String → TableName → HistoryTable K

def getTableName (cal : Calendar) (timestamp : Nat) (gran : HistoryGranularity) : Option TableName :=
  if timestamp = 0 ∨ maxSaneTs < timestamp then none else some (gran, cal.month timestamp)

/-- The table that a month's rows go to, once its database is open. -/
def tableOf (cal : Calendar) (month : String) (gran : HistoryGranularity) : Option TableName :=
  if cal.monthStart month = 0 then none else getTableName cal (cal.monthStart month) gran

/-- A batch breaks the primary key of a table: two of its rows have one key, or a key is taken. -/
def ViolatesPrimaryKey (t : HistoryTable K) (samples : List (DownSampledSample K)) : Prop :=
  ¬((samples.map DownSampledSample.key).Nodup ∧ ∀ r ∈ samples, t r.key = none)

variable [Reading K]

/-- One transaction; `healthy` says whether all but the rows themselves goes well. -/
def batchInsert (cal : Calendar) (healthy : Bool) (db : HistoryTables K) (month : String)
    (gran : HistoryGranularity) (samples : List (DownSampledSample K)) : HistoryTables K × Bool :=
  if samples = [] then (db, true)
  else
    match tableOf cal month gran with
    | none => (db, false)
    | some name =>
        if !healthy then (db, false)
        else
          match KeyedTable.insertAll DownSampledSample.key DownSampledSample.storable (db month name) samples with
          | none => (db, false)
          | some table => (Function.update db month (Function.update (db month) name table), true)

section Effects
variable {cal : Calendar} {healthy : Bool} {db : HistoryTables K} {month : String}
  {gran : HistoryGranularity} {samples : List (DownSampledSample K)}

/-- A batch takes effect as a whole or not at all. -/
theorem batchInsert_cases (cal : Calendar) (healthy : Bool) (db : HistoryTables K) (month : String)
    (gran : HistoryGranularity) (samples : List (DownSampledSample K)) :
    (batchInsert cal healthy db month gran samples).1 = db ∨
      ∃ name table, KeyedTable.insertAll DownSampledSample.key DownSampledSample.storable (db month name)
          samples = some table ∧
        (batchInsert cal healthy db month gran samples).1 =
          Function.update db month (Function.update (db month) name table) := by
  unfold batchInsert
  by_cases none : samples = []
  · exact Or.inl (by rw [if_pos none])
  · rw [if_neg none]
    split
    · exact Or.inl rfl
    · rename_i name _
      split
      · exact Or.inl rfl
      · split
        · exact Or.inl rfl
        · rename_i table done
          exact Or.inr ⟨name, table, done, rfl⟩

/-- A batch that comes to its table goes in unless a row cannot be stored or the primary key is broken. -/
theorem batchInsert_succeeds_iff {name : TableName} (some_ : samples ≠ [])
    (named : tableOf cal month gran = some name) :
    (batchInsert cal true db month gran samples).2 = true ↔
      (∀ r ∈ samples, r.storable = true) ∧ ¬ViolatesPrimaryKey (db month name) samples := by
  have goes : (batchInsert cal true db month gran samples).2 = true ↔
      (KeyedTable.insertAll DownSampledSample.key DownSampledSample.storable (db month name) samples).isSome =
        true := by
    simp only [batchInsert, if_neg some_, named, Bool.not_true, Bool.false_eq_true, ↓reduceIte]
    split
    · rename_i failed
      rw [failed]
      exact Iff.rfl
    · rename_i done
      rw [done]
      exact Iff.rfl
  rw [goes, KeyedTable.insertAll_isSome_iff, ViolatesPrimaryKey, not_not, and_comm (a := (samples.map _).Nodup)]

/-- Every row of a database was there or came with the batch. -/
theorem batchInsert_rows {m : String} {name : TableName} {k : UInt32 × Nat} {row : DownSampledSample K}
    (present : (batchInsert cal healthy db month gran samples).1 m name k = some row) :
    db m name k = some row ∨ k ∈ samples.map DownSampledSample.key := by
  rcases batchInsert_cases cal healthy db month gran samples with same | ⟨own, table, done, after⟩
  · exact Or.inl (same ▸ present)
  · rw [after] at present
    by_cases here : m = month
    · subst here
      rw [Function.update_self] at present
      by_cases mine : name = own
      · subst mine
        rw [Function.update_self] at present
        rcases (KeyedTable.insertAll_row_iff done).mp present with before | ⟨member, rfl⟩
        · exact Or.inl before
        · exact Or.inr (List.mem_map_of_mem member)
      · rw [Function.update_of_ne mine] at present
        exact Or.inl present
    · rw [Function.update_of_ne here] at present
      exact Or.inl present

/-- The databases of other months stay as they are. -/
theorem batchInsert_other {m : String} (other : m ≠ month) :
    (batchInsert cal healthy db month gran samples).1 m = db m := by
  rcases batchInsert_cases cal healthy db month gran samples with same | ⟨own, table, -, after⟩
  · rw [same]
  · rw [after, Function.update_of_ne other]

end Effects

end EnerSentry.Datahub
