import EnerSentry.Datahub.HistoryTables

/-!
The history store: a write buffer that drops its oldest records beyond its capacity, and a
flush that empties it into the monthly databases, one transaction for each month.
-/

namespace EnerSentry.Datahub

variable {K : Type*}

structure L2HistoryStore (K : Type*) where
  writeBuffer : List (DownSampledSample K) := []
  capacity : Nat := 100000
  droppedCount : Nat := 0

/-- What a flush meets: the months whose database works, and the order of the month table. -/
structure FlushConditions where
  healthy : String → Bool
  order : HashOrder String

namespace L2HistoryStore

def enqueueSample (store : L2HistoryStore K) (s : DownSampledSample K) : L2HistoryStore K :=
  let buffer := store.writeBuffer ++ [s]
  if store.capacity < buffer.length then
    let excess := buffer.length - store.capacity
    { store with writeBuffer := buffer.drop excess, droppedCount := store.droppedCount + excess }
  else { store with writeBuffer := buffer }

section Flush
variable (cal : Calendar)

def months (batch : List (DownSampledSample K)) : List String := (batch.map (fun s => cal.month s.timestamp)).dedup

def rowsOf (batch : List (DownSampledSample K)) (month : String) : List (DownSampledSample K) :=
  batch.filter (fun s => cal.month s.timestamp = month)

variable [Reading K]

/-- The transactions of a flush, one month after the other. -/
def insertMonths (healthy : String → Bool) (batch : List (DownSampledSample K)) (months : List String)
    (db : HistoryTables K) : HistoryTables K × Bool :=
  months.foldl (fun done month =>
    let inserted := batchInsert cal (healthy month) done.1 month .gran1s (rowsOf cal batch month)
    (inserted.1, done.2 && inserted.2)) (db, true)

def flush (conditions : FlushConditions) (store : L2HistoryStore K) (db : HistoryTables K) :
    L2HistoryStore K × HistoryTables K × Bool :=
  if store.writeBuffer = [] then (store, db, true)
  else
    ({ store with writeBuffer := [] },
      insertMonths cal conditions.healthy store.writeBuffer
        (conditions.order.visit (months cal store.writeBuffer)) db)

end Flush

section Effects
variable {cal : Calendar} {conditions : FlushConditions} {store : L2HistoryStore K} {db : HistoryTables K}

/-- The buffer of a store is the end of what it held with the new record behind it. -/
theorem enqueueSample_suffix (store : L2HistoryStore K) (s : DownSampledSample K) :
    (store.enqueueSample s).writeBuffer <:+ store.writeBuffer ++ [s] := by
  simp only [enqueueSample]
  split
  · exact List.drop_suffix ..
  · exact List.suffix_refl _

variable [Reading K]

theorem insertMonths_concat (healthy : String → Bool) (batch : List (DownSampledSample K)) (ms : List String)
    (month : String) : (insertMonths cal healthy batch (ms ++ [month]) db).1 =
      (batchInsert cal (healthy month) (insertMonths cal healthy batch ms db).1 month .gran1s
        (rowsOf cal batch month)).1 := by
  rw [insertMonths, List.foldl_concat]
  rfl

/-- Every row of the databases was there or came with the batch. -/
theorem insertMonths_rows {healthy : String → Bool} {batch : List (DownSampledSample K)} {ms : List String}
    {m : String} {name : TableName} {k : UInt32 × Nat} {row : DownSampledSample K}
    (present : (insertMonths cal healthy batch ms db).1 m name k = some row) :
    db m name k = some row ∨ k ∈ batch.map DownSampledSample.key := by
  induction ms using List.reverseRecOn with
  | nil => exact Or.inl present
  | append_singleton ms month ih =>
    rw [insertMonths_concat] at present
    rcases batchInsert_rows present with before | new
    · exact ih before
    · exact Or.inr ((List.filter_sublist.map _).subset new)

/-- The months before it in a flush leave a month's database alone. -/
theorem insertMonths_other {healthy : String → Bool} {batch : List (DownSampledSample K)} {ms : List String}
    {m : String} (other : m ∉ ms) : (insertMonths cal healthy batch ms db).1 m = db m := by
  induction ms using List.reverseRecOn with
  | nil => rfl
  | append_singleton ms month ih =>
    rw [List.mem_append, List.mem_singleton, not_or] at other
    rw [insertMonths_concat, batchInsert_other other.2, ih other.1]

theorem flush_writeBuffer : (store.flush cal conditions db).1.writeBuffer = [] := by
  unfold flush
  split
  · rename_i none
    exact none
  · rfl

theorem flush_rows {m : String} {name : TableName} {k : UInt32 × Nat} {row : DownSampledSample K}
    (present : (store.flush cal conditions db).2.1 m name k = some row) :
    db m name k = some row ∨ k ∈ store.writeBuffer.map DownSampledSample.key := by
  unfold flush at present
  split at present
  · exact Or.inl present
  · exact insertMonths_rows present

end Effects
end L2HistoryStore
end EnerSentry.Datahub
