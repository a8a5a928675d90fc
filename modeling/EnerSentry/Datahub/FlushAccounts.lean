import Mathlib.Algebra.Order.Group.Multiset
import Mathlib.Data.List.Dedup
import EnerSentry.Datahub.L2HistoryStore
import EnerSentry.Datahub.WindowAccounts
import EnerSentry.Lib.Runs

/-!
Where the records go that are handed to the history store. A record waits in the buffer until it is
pushed out, or until a flush writes it with its month. The months of a flush are transactions of their
own: one that fails takes its records with it, and leaves the other months alone.
-/

namespace EnerSentry.Datahub
open EnerSentry.Lib

variable {K : Type*}

/-- A call of the store. -/
inductive StoreCall (K : Type*) where
  | enqueueSample (s : DownSampledSample K)
  | flush (conditions : FlushConditions)

/-- All records handed over, and what became of those that do not wait any more. -/
structure RecordAccounts (K : Type*) where
  enqueued : List (DownSampledSample K) := []
  dropped : List (DownSampledSample K) := []
  stored : List (DownSampledSample K) := []
  lost : List (DownSampledSample K) := []

/-- A record stands in the table of its own month. -/
def Stored (cal : Calendar) (db : HistoryTables K) (s : DownSampledSample K) : Prop :=
  ∃ name, tableOf cal (cal.month s.timestamp) .gran1s = some name ∧ db (cal.month s.timestamp) name s.key = some s

section Places
variable {α : Type*} {all dropped stored lost pending : List α}

/-- One more item comes in at the end of those that wait, and the first of them go out. -/
theorem perm_push {s : α} {oldest waiting : List α} (places : all.Perm (dropped ++ stored ++ lost ++ pending))
    (split : oldest ++ waiting = pending ++ [s]) :
    (all ++ [s]).Perm (dropped ++ oldest ++ stored ++ lost ++ waiting) := by
  apply Multiset.coe_eq_coe.mp
  have before := Multiset.coe_eq_coe.mpr places
  have moved := congrArg (fun l : List α => (l : Multiset α)) split
  simp only [← Multiset.coe_add] at before moved ⊢
  calc (all + [s] : Multiset α) = dropped + stored + lost + (pending + [s]) := by rw [before, add_assoc]
    _ = dropped + stored + lost + (oldest + waiting) := by rw [moved]
    _ = dropped + oldest + stored + lost + waiting := by ac_rfl

/-- Those that wait are sorted into two heaps. -/
theorem perm_settle (p : α → Bool) (places : all.Perm (dropped ++ stored ++ lost ++ pending)) :
    all.Perm (dropped ++ (stored ++ pending.filter p) ++ (lost ++ pending.filter fun s => !p s) ++ []) := by
  apply Multiset.coe_eq_coe.mp
  have before := Multiset.coe_eq_coe.mpr places
  have parts := Multiset.coe_eq_coe.mpr (List.filter_append_perm p pending)
  simp only [← Multiset.coe_add, Multiset.coe_nil, add_zero] at before parts ⊢
  calc (all : Multiset α) = dropped + stored + lost + (pending.filter p + pending.filter fun s => !p s) := by
        rw [before, parts]
    _ = dropped + (stored + pending.filter p) + (lost + pending.filter fun s => !p s) := by ac_rfl

end Places

section Buffer
variable {cal : Calendar} {db db' : HistoryTables K} {batch : List (DownSampledSample K)} {month : String}

theorem mem_months : month ∈ L2HistoryStore.months cal batch ↔ ∃ s ∈ batch, cal.month s.timestamp = month := by
  rw [L2HistoryStore.months, List.mem_dedup, List.mem_map]

theorem nodup_visited (conditions : FlushConditions) (batch : List (DownSampledSample K)) :
    (conditions.order.visit (L2HistoryStore.months cal batch)).Nodup :=
  (conditions.order.perm _).nodup_iff.mpr (List.nodup_dedup _)

theorem Stored.of_month {s : DownSampledSample K} (stored : Stored cal db s)
    (same : db' (cal.month s.timestamp) = db (cal.month s.timestamp)) : Stored cal db' s := by
  obtain ⟨name, named, row⟩ := stored
  exact ⟨name, named, same ▸ row⟩

/-- What is pushed out are the oldest records, as many as are too many. -/
theorem enqueueSample_split (store : L2HistoryStore K) (s : DownSampledSample K) :
    (store.writeBuffer ++ [s]).take ((store.writeBuffer ++ [s]).length - store.capacity) ++
        (store.enqueueSample s).writeBuffer = store.writeBuffer ++ [s] ∧
      (store.enqueueSample s).droppedCount = store.droppedCount +
        ((store.writeBuffer ++ [s]).take ((store.writeBuffer ++ [s]).length - store.capacity)).length ∧
      (store.enqueueSample s).capacity = store.capacity := by
  simp only [L2HistoryStore.enqueueSample]
  split
  · refine ⟨List.take_append_drop _ _, ?_, rfl⟩
    rw [List.length_take, Nat.min_eq_left (Nat.sub_le _ _)]
  · rename_i room
    rw [Nat.sub_eq_zero_of_le (Nat.not_lt.mp room), List.take_zero]
    exact ⟨rfl, rfl, rfl⟩

end Buffer

/-- Where all records are: each is pending, dropped, stored or lost. -/
structure Accounted (cal : Calendar) (x : L2HistoryStore K × HistoryTables K) (a : RecordAccounts K) : Prop where
  places : a.enqueued.Perm (a.dropped ++ a.stored ++ a.lost ++ x.1.writeBuffer)
  order : x.1.writeBuffer <:+ a.enqueued
  counted : x.1.droppedCount = a.dropped.length
  stored : ∀ s ∈ a.stored, Stored cal x.2 s

theorem accounted_fresh (cal : Calendar) (capacity : Nat) (db : HistoryTables K) :
    Accounted cal ({ capacity := capacity }, db) {} :=
  ⟨.refl _, List.suffix_refl _, rfl, fun _ none => (List.not_mem_nil none).elim⟩

variable [Reading K] (cal : Calendar)

/-- The state of the store and the databases; a flush answers whether all went well. -/
def storing : Runs.Step (L2HistoryStore K × HistoryTables K) (StoreCall K) Bool
  | (store, db), .enqueueSample s => ((store.enqueueSample s, db), [])
  | (store, db), .flush conditions =>
      let flushed := store.flush cal conditions db
      ((flushed.1, flushed.2.1), [flushed.2.2])

/-- The transaction of one month in a flush. -/
def transaction (conditions : FlushConditions) (db : HistoryTables K) (batch : List (DownSampledSample K))
    (month : String) : HistoryTables K × Bool :=
  batchInsert cal (conditions.healthy month) db month .gran1s (L2HistoryStore.rowsOf cal batch month)

/-- The month of a record goes in. -/
def goesIn (conditions : FlushConditions) (db : HistoryTables K) (batch : List (DownSampledSample K))
    (s : DownSampledSample K) : Bool :=
  (transaction cal conditions db batch (cal.month s.timestamp)).2

def account (x : L2HistoryStore K × HistoryTables K) (a : RecordAccounts K) (call : StoreCall K) (_ : List Bool) :
    RecordAccounts K :=
  let batch := x.1.writeBuffer
  match call with
  | .enqueueSample s =>
      { a with
        enqueued := a.enqueued ++ [s]
        dropped := a.dropped ++ (batch ++ [s]).take ((batch ++ [s]).length - x.1.capacity) }
  | .flush conditions =>
      { a with
        stored := a.stored ++ batch.filter (goesIn cal conditions x.2 batch)
        lost := a.lost ++ batch.filter fun s => !goesIn cal conditions x.2 batch s }

def accounting : Runs.Step ((L2HistoryStore K × HistoryTables K) × RecordAccounts K) (StoreCall K) Bool :=
  Runs.watch (storing cal) (account cal)

section Months
variable {cal} {db db' : HistoryTables K} {conditions : FlushConditions} {batch : List (DownSampledSample K)}
  {month m : String} {ms : List String}

/-- A transaction looks at the database of its own month only. -/
theorem transaction_congr (same : db month = db' month) :
    (transaction cal conditions db batch month).1 month = (transaction cal conditions db' batch month).1 month ∧
      (transaction cal conditions db batch month).2 = (transaction cal conditions db' batch month).2 := by
  unfold transaction batchInsert
  split
  · exact ⟨same, rfl⟩
  · split
    · exact ⟨same, rfl⟩
    · split
      · exact ⟨same, rfl⟩
      · rw [same]
        split
        · exact ⟨same, rfl⟩
        · simp only [Function.update_self, and_self]

/-- A transaction fails, has nothing to do, or puts its rows into the table of its month. -/
theorem transaction_cases (cal : Calendar) (conditions : FlushConditions) (db : HistoryTables K)
    (batch : List (DownSampledSample K)) (month : String) :
    transaction cal conditions db batch month = (db, false) ∨
      (L2HistoryStore.rowsOf cal batch month = [] ∧ transaction cal conditions db batch month = (db, true)) ∨
      ∃ name table, tableOf cal month .gran1s = some name ∧
        KeyedTable.insertAll DownSampledSample.key DownSampledSample.storable (db month name)
          (L2HistoryStore.rowsOf cal batch month) = some table ∧
        (transaction cal conditions db batch month).2 = true ∧ (transaction cal conditions db batch month).1 =
          Function.update db month (Function.update (db month) name table) := by
  unfold transaction batchInsert
  split
  · rename_i none
    exact Or.inr (Or.inl ⟨none, rfl⟩)
  · split
    · exact Or.inl rfl
    · rename_i name named
      split
      · exact Or.inl rfl
      · split
        · exact Or.inl rfl
        · rename_i table written
          exact Or.inr (Or.inr ⟨name, table, named, written, rfl, rfl⟩)

theorem insertMonths_concat_eq (ms : List String) (month : String) :
    L2HistoryStore.insertMonths cal conditions.healthy batch (ms ++ [month]) db =
      ((transaction cal conditions (L2HistoryStore.insertMonths cal conditions.healthy batch ms db).1 batch month).1,
        (L2HistoryStore.insertMonths cal conditions.healthy batch ms db).2 &&
          (transaction cal conditions (L2HistoryStore.insertMonths cal conditions.healthy batch ms db).1 batch
            month).2) := by
  rw [L2HistoryStore.insertMonths, List.foldl_concat]
  rfl

/-- In a flush each month comes out as if it were the only one. -/
theorem insertMonths_own (distinct : ms.Nodup) (member : m ∈ ms) :
    (L2HistoryStore.insertMonths cal conditions.healthy batch ms db).1 m =
      (transaction cal conditions db batch m).1 m := by
  induction ms using List.reverseRecOn with
  | nil => cases member
  | append_singleton ms month ih =>
    obtain ⟨others, -, apart⟩ := List.nodup_append.mp distinct
    rw [insertMonths_concat_eq]
    by_cases own : m = month
    · subst own
      have fresh : m ∉ ms := fun earlier => apart m earlier m (List.mem_singleton_self m) rfl
      exact (transaction_congr (L2HistoryStore.insertMonths_other fresh)).1
    · have earlier : m ∈ ms := by
        rcases List.mem_append.mp member with here | last
        · exact here
        · exact absurd (List.mem_singleton.mp last) own
      rw [← ih others earlier]
      exact batchInsert_other own

theorem insertMonths_ok (distinct : ms.Nodup) :
    (L2HistoryStore.insertMonths cal conditions.healthy batch ms db).2 = true ↔
      ∀ month ∈ ms, (transaction cal conditions db batch month).2 = true := by
  induction ms using List.reverseRecOn with
  | nil => simp [L2HistoryStore.insertMonths]
  | append_singleton ms month ih =>
    obtain ⟨others, -, apart⟩ := List.nodup_append.mp distinct
    have fresh : month ∉ ms := fun earlier => apart month earlier month (List.mem_singleton_self month) rfl
    rw [insertMonths_concat_eq, Bool.and_eq_true, ih others,
      (transaction_congr (L2HistoryStore.insertMonths_other fresh)).2, List.forall_mem_append,
      List.forall_mem_singleton]

/-- A month without records is left alone. -/
theorem transaction_none (absent : month ∉ L2HistoryStore.months cal batch) :
    transaction cal conditions db batch month = (db, true) := by
  have none : L2HistoryStore.rowsOf cal batch month = [] := by
    rw [L2HistoryStore.rowsOf, List.filter_eq_nil_iff]
    intro s member same
    exact absent (mem_months.mpr ⟨s, member, of_decide_eq_true same⟩)
  rw [transaction, none, batchInsert, if_pos rfl]

/-- The records of a month that goes in stand in its table. -/
theorem stored_transaction {s : DownSampledSample K} (member : s ∈ batch)
    (done : (transaction cal conditions db batch (cal.month s.timestamp)).2 = true) :
    Stored cal (transaction cal conditions db batch (cal.month s.timestamp)).1 s := by
  have row : s ∈ L2HistoryStore.rowsOf cal batch (cal.month s.timestamp) :=
    List.mem_filter.mpr ⟨member, decide_eq_true rfl⟩
  rcases transaction_cases cal conditions db batch (cal.month s.timestamp) with
    failed | ⟨none, -⟩ | ⟨name, table, named, written, -, after⟩
  · rw [failed] at done
    cases done
  · exact absurd row (none ▸ List.not_mem_nil)
  · rw [after]
    refine ⟨name, named, ?_⟩
    rw [Function.update_self, Function.update_self]
    exact KeyedTable.insertAll_mem written row

/-- What stands in a table stays there. -/
theorem Stored.kept {s : DownSampledSample K} (stored : Stored cal db s) :
    Stored cal (transaction cal conditions db batch month).1 s := by
  obtain ⟨name, named, row⟩ := stored
  refine ⟨name, named, ?_⟩
  rcases transaction_cases cal conditions db batch month with same | ⟨-, same⟩ | ⟨own, table, -, written, -, after⟩
  · rw [same]
    exact row
  · rw [same]
    exact row
  · rw [after]
    by_cases here : cal.month s.timestamp = month
    · subst here
      rw [Function.update_self]
      by_cases mine : name = own
      · subst mine
        rw [Function.update_self]
        exact KeyedTable.insertAll_keeps written row
      · rwa [Function.update_of_ne mine]
    · rwa [Function.update_of_ne here]

end Months

section Flush
variable {cal} {store : L2HistoryStore K} {db : HistoryTables K} {conditions : FlushConditions}
  {s : DownSampledSample K}

/-- After a flush every month's database is as its own transaction leaves it. -/
theorem flush_tables (month : String) : (store.flush cal conditions db).2.1 month =
    (transaction cal conditions db store.writeBuffer month).1 month := by
  unfold L2HistoryStore.flush
  split
  · rename_i none
    rw [none, transaction_none (by rw [mem_months]; simp)]
  · by_cases member : month ∈ L2HistoryStore.months cal store.writeBuffer
    · exact insertMonths_own (nodup_visited _ _) ((conditions.order.perm _).mem_iff.mpr member)
    · rw [transaction_none member]
      exact L2HistoryStore.insertMonths_other fun visited => member ((conditions.order.perm _).mem_iff.mp visited)

/-- A flush answers that all went well when the transactions of all months did. -/
theorem flush_ok : (store.flush cal conditions db).2.2 = true ↔
    ∀ s ∈ store.writeBuffer, goesIn cal conditions db store.writeBuffer s = true := by
  unfold L2HistoryStore.flush
  split
  · rename_i none
    simp [none]
  · refine (insertMonths_ok (nodup_visited _ _)).trans ?_
    constructor
    · intro all s member
      exact all _ ((conditions.order.perm _).mem_iff.mpr (mem_months.mpr ⟨s, member, rfl⟩))
    · intro all month visited
      obtain ⟨s, member, rfl⟩ := mem_months.mp ((conditions.order.perm _).mem_iff.mp visited)
      exact all s member

theorem stored_flush (member : s ∈ store.writeBuffer)
    (done : goesIn cal conditions db store.writeBuffer s = true) : Stored cal (store.flush cal conditions db).2.1 s :=
  (stored_transaction member done).of_month (flush_tables _)

theorem Stored.flush (stored : Stored cal db s) : Stored cal (store.flush cal conditions db).2.1 s :=
  stored.kept.of_month (flush_tables _)

end Flush

/-- What a call does: the oldest records are pushed out and counted, and a flush does to each month's
database what the transaction of that month alone does to it. -/
def Separate (x : L2HistoryStore K × HistoryTables K) (call : StoreCall K) : Prop :=
  let next := (storing cal x call).1
  match call with
  | .enqueueSample s => next.2 = x.2 ∧ ∃ oldest, x.1.writeBuffer ++ [s] = oldest ++ next.1.writeBuffer ∧
      next.1.droppedCount = x.1.droppedCount + oldest.length
  | .flush conditions => next.1.writeBuffer = [] ∧ next.1.droppedCount = x.1.droppedCount ∧
      (∀ month, next.2 month = (transaction cal conditions x.2 x.1.writeBuffer month).1 month) ∧
      ((storing cal x call).2 = [true] ↔
        ∀ s ∈ x.1.writeBuffer, goesIn cal conditions x.2 x.1.writeBuffer s = true)

section Run
variable {cal} {x : L2HistoryStore K × HistoryTables K} {a : RecordAccounts K}

theorem flush_droppedCount {conditions : FlushConditions} (store : L2HistoryStore K) (db : HistoryTables K) :
    (store.flush cal conditions db).1.droppedCount = store.droppedCount := by
  unfold L2HistoryStore.flush
  split <;> rfl

theorem separate_call (x : L2HistoryStore K × HistoryTables K) (call : StoreCall K) : Separate cal x call := by
  cases call with
  | enqueueSample s =>
    obtain ⟨split, counted, -⟩ := enqueueSample_split x.1 s
    exact ⟨rfl, _, split.symm, counted⟩
  | flush conditions =>
    refine ⟨L2HistoryStore.flush_writeBuffer, flush_droppedCount _ _, flush_tables, ?_⟩
    rw [← flush_ok]
    simp [storing]

/-- Every call keeps account of every record. -/
theorem accounted_step (accounted : Accounted cal x a) (call : StoreCall K) :
    Accounted cal (accounting cal (x, a) call).1.1 (accounting cal (x, a) call).1.2 := by
  obtain ⟨places, order, counted, stored⟩ := accounted
  cases call with
  | enqueueSample s =>
    obtain ⟨split, dropped, -⟩ := enqueueSample_split x.1 s
    refine ⟨perm_push places split, ?_, ?_, stored⟩
    · obtain ⟨before, whole⟩ := order
      refine (L2HistoryStore.enqueueSample_suffix x.1 s).trans ⟨before, ?_⟩
      rw [← List.append_assoc, whole]
      rfl
    · rw [counted, ← List.length_append] at dropped
      exact dropped
  | flush conditions =>
    have empty : (x.1.flush cal conditions x.2).1.writeBuffer = [] := L2HistoryStore.flush_writeBuffer
    have sorted := perm_settle (goesIn cal conditions x.2 x.1.writeBuffer) places
    refine ⟨?_, ?_, ?_, fun s member => ?_⟩
    · rw [← empty] at sorted
      exact sorted
    · exact empty ▸ List.nil_suffix
    · exact (flush_droppedCount _ _).trans counted
    · rcases List.mem_append.mp member with old | new
      · exact (stored s old).flush
      · obtain ⟨here, done⟩ := List.mem_filter.mp new
        exact stored_flush here done

end Run

/-- Every record handed over is at all times pending in its order, dropped and counted, stored in the table
of its month, or lost with a transaction of its month that failed; and the months do not touch each other. -/
theorem accounted_run (cal : Calendar) (capacity : Nat) (db : HistoryTables K) (calls : List (StoreCall K)) :
    (∀ t ∈ Runs.reached (accounting cal) (({ capacity := capacity }, db), {}) calls, Accounted cal t.1 t.2) ∧
      ∀ v ∈ Runs.visits (storing cal) ({ capacity := capacity }, db) calls, Separate cal v.1 v.2 := by
  refine ⟨?_, fun v _ => separate_call v.1 v.2⟩
  exact Runs.reached_always (accounting cal) calls (I := fun t => Accounted cal t.1 t.2)
    (accounted_fresh cal capacity db) (fun t call accounted => accounted_step accounted call)

section Lost

/-- No record is lost: each is pending, dropped and counted, or stored. -/
def InOnePlace (x : L2HistoryStore K × HistoryTables K) (enqueued : List (DownSampledSample K)) : Prop :=
  ∃ dropped stored, enqueued.Perm (dropped ++ stored ++ x.1.writeBuffer) ∧ x.1.writeBuffer <:+ enqueued ∧
    dropped.length = x.1.droppedCount ∧ ∀ s ∈ stored, Stored cal x.2 s

def january2024 : Calendar := ⟨fun _ => "202401", fun _ => 1704067200000⟩

def twoSamples : DownSampledSample (Extended ℚ) := ⟨1, 1704067200000, .num 3, .num 1, .num 2, 2⟩

/-- A record, and a flush while the database of its month does not work. -/
def brokenMonth : List (StoreCall (Extended ℚ)) :=
  [.enqueueSample twoSamples, .flush ⟨fun _ => false, HashOrder.insertion String⟩]

/-- The record is nowhere after the flush. -/
theorem lost_flush : ¬∀ t ∈ Runs.reached (accounting january2024)
    (({ capacity := 100000 }, fun _ _ _ => none), {}) brokenMonth, InOnePlace january2024 t.1 t.2.enqueued := by
  intro kept
  obtain ⟨dropped, stored, places, -, counted, present⟩ := kept _ Runs.run_mem_reached
  have none : dropped = [] := List.eq_nil_of_length_eq_zero counted
  have here : twoSamples ∈ stored := by
    have enqueued : twoSamples ∈ dropped ++ stored ++ [] := places.mem_iff.mp (List.mem_singleton_self _)
    rwa [none, List.nil_append, List.append_nil] at enqueued
  obtain ⟨name, -, row⟩ := present twoSamples here
  cases row

end Lost
end EnerSentry.Datahub
