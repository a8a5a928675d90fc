import EnerSentry.Datahub.FlushAccounts
import EnerSentry.Datahub.MonthCalendar

/-!
The history query. It reads the months of its range one after the other, each from the table that the start
of the clipped range names; the records were put there by their flushes, under the name of their month. A range
that ends after the last month which the platform can date is never gone through.
-/

namespace EnerSentry.Datahub
open EnerSentry.Lib

variable {K : Type*}

/-- The database of a month opens when the table of seconds can be set up in it. -/
def openMonth (cal : Calendar) (month : String) : Bool := (tableOf cal month .gran1s).isSome

/-- The rows of a point between two times, in the order of their times. -/
def selectRange (table : HistoryTable K) (pointId : UInt32) (qBegin qEnd : Nat) : List (DownSampledSample K) :=
  (List.range' qBegin (qEnd - qBegin)).filterMap fun ts =>
    (table (pointId, ts)).map fun row => { row with pointId := pointId, timestamp := ts }

/-- What a month has of a range. -/
def queryMonth (cal : MonthCalendar) (db : HistoryTables K) (pointId : UInt32) (beginMs endMs : UInt64)
    (gran : HistoryGranularity) (cur : Option ℤ) : List (DownSampledSample K) :=
  let qBegin := cal.qBegin beginMs cur
  let qEnd := cal.qEnd endMs cur
  if qBegin < qEnd then
    match getTableName cal.toCalendar qBegin gran with
    | none => []
    | some table =>
        if openMonth cal.toCalendar (cal.month qBegin) then
          selectRange (db (cal.month qBegin) table) pointId qBegin qEnd
        else []
  else []

/-- The query, as long as the fuel lasts. -/
def queryRange (cal : MonthCalendar) (db : HistoryTables K) (pointId : UInt32) (beginMs endMs : UInt64)
    (gran : HistoryGranularity) (fuel : Nat) : Option (List (DownSampledSample K)) :=
  if endMs ≤ beginMs then some []
  else cal.throughMonths endMs (queryMonth cal db pointId beginMs endMs gran) fuel (cal.firstMonth beginMs)

/-- What the months of a range have together. -/
def rangeRows (cal : MonthCalendar) (db : HistoryTables K) (pointId : UInt32) (beginMs endMs : UInt64)
    (gran : HistoryGranularity) : List (DownSampledSample K) :=
  (cal.visited beginMs endMs).flatMap fun i => queryMonth cal db pointId beginMs endMs gran (some i)

section Select
variable {table : HistoryTable K} {pointId : UInt32} {qBegin qEnd : Nat} {s : DownSampledSample K}

theorem mem_selectRange : s ∈ selectRange table pointId qBegin qEnd ↔ (qBegin ≤ s.timestamp ∧ s.timestamp < qEnd) ∧
    ∃ row, table (pointId, s.timestamp) = some row ∧
      { row with pointId := pointId, timestamp := s.timestamp } = s := by
  simp only [selectRange, List.mem_filterMap, List.mem_range'_1, Option.map_eq_some_iff]
  constructor
  · rintro ⟨ts, between, row, present, rfl⟩
    exact ⟨by dsimp only; omega, row, present, rfl⟩
  · rintro ⟨between, row, present, same⟩
    exact ⟨s.timestamp, by omega, row, present, same⟩

theorem selectRange_ascending :
    (selectRange table pointId qBegin qEnd).Pairwise fun a b => (a.timestamp : ℤ) < b.timestamp := by
  rw [selectRange, List.pairwise_filterMap]
  apply (List.pairwise_lt_range' (s := qBegin)).imp
  intro ts us before a first b second
  obtain ⟨-, -, rfl⟩ := Option.map_eq_some_iff.mp first
  obtain ⟨-, -, rfl⟩ := Option.map_eq_some_iff.mp second
  exact Int.ofNat_lt.mpr before

end Select
section Rows
variable [Reading K] {cal : Calendar} {db : HistoryTables K} {conditions : FlushConditions}
  {batch : List (DownSampledSample K)} {s : DownSampledSample K}

/-- A row of a month was there or came with a transaction that went in. -/
theorem transaction_rows {month : String} {name : TableName} {k : UInt32 × Nat}
    (present : (transaction cal conditions db batch month).1 month name k = some s) :
    db month name k = some s ∨ (s ∈ batch ∧ goesIn cal conditions db batch s = true) ∧ s.key = k := by
  rcases transaction_cases cal conditions db batch month with same | ⟨-, same⟩ | ⟨own, table, -, written, done, after⟩
  · rw [same] at present
    exact Or.inl present
  · rw [same] at present
    exact Or.inl present
  · rw [after, Function.update_self] at present
    by_cases mine : name = own
    · subst mine
      rw [Function.update_self] at present
      rcases (KeyedTable.insertAll_row_iff written).mp present with before | ⟨row, key⟩
      · exact Or.inl before
      · obtain ⟨member, same⟩ := List.mem_filter.mp row
        refine Or.inr ⟨⟨member, ?_⟩, key⟩
        rw [goesIn, of_decide_eq_true same, done]
    · rw [Function.update_of_ne mine] at present
      exact Or.inl present

/-- The keys of a record's transaction that goes in are distinct and free. -/
theorem keys_of_goesIn (member : s ∈ batch) (done : goesIn cal conditions db batch s = true) :
    (∀ r : DownSampledSample K, r.key = s.key → ¬Stored cal db r) ∧
      ((L2HistoryStore.rowsOf cal batch (cal.month s.timestamp)).map DownSampledSample.key).Nodup := by
  have row : s ∈ L2HistoryStore.rowsOf cal batch (cal.month s.timestamp) :=
    List.mem_filter.mpr ⟨member, decide_eq_true rfl⟩
  rcases transaction_cases cal conditions db batch (cal.month s.timestamp) with
    failed | ⟨none, -⟩ | ⟨own, table, named, written, -, -⟩
  · rw [goesIn, failed] at done
    cases done
  · exact absurd row (none ▸ List.not_mem_nil)
  · obtain ⟨-, free, distinct⟩ := KeyedTable.insertAll_isSome_iff.mp (Option.isSome_of_eq_some written)
    refine ⟨?_, distinct⟩
    rintro r same ⟨name, named', present⟩
    have month : cal.month r.timestamp = cal.month s.timestamp := congrArg (fun k => cal.month k.2) same
    rw [month, named] at named'
    rw [month, same, ← Option.some.inj named', free s row] at present
    cases present

/-- Of the records that go in, no two have one key. -/
theorem distinct_goesIn : ((batch.filter (goesIn cal conditions db batch)).map DownSampledSample.key).Nodup := by
  rw [List.Nodup, List.pairwise_map, List.pairwise_filter, List.pairwise_iff_forall_sublist]
  intro a b pair first _ same
  have month : cal.month b.timestamp = cal.month a.timestamp := congrArg (fun k => cal.month k.2) same.symm
  have rows : [a, b].Sublist (L2HistoryStore.rowsOf cal batch (cal.month a.timestamp)) := by
    have both := pair.filter fun s => decide (cal.month s.timestamp = cal.month a.timestamp)
    simpa [month, L2HistoryStore.rowsOf] using both
  have distinct := (keys_of_goesIn (pair.subset (List.mem_cons_self ..)) first).2.sublist (rows.map _)
  simp [same] at distinct

/-- What is kept in the databases are the stored records, under distinct keys. -/
structure Kept (db : HistoryTables K) (stored : List (DownSampledSample K)) : Prop where
  rows : ∀ month name k s, db month name k = some s → s ∈ stored ∧ s.key = k
  distinct : (stored.map DownSampledSample.key).Nodup

/-- A flush adds the records that go in. -/
theorem kept_flush {store : L2HistoryStore K} {stored : List (DownSampledSample K)} (kept : Kept db stored)
    (present : ∀ s ∈ stored, Stored cal db s) : Kept (store.flush cal conditions db).2.1
      (stored ++ store.writeBuffer.filter (goesIn cal conditions db store.writeBuffer)) := by
  constructor
  · intro month name k s row
    rw [flush_tables] at row
    rcases transaction_rows row with old | ⟨new, key⟩
    · obtain ⟨member, key⟩ := kept.rows month name k s old
      exact ⟨List.mem_append_left _ member, key⟩
    · exact ⟨List.mem_append_right _ (List.mem_filter.mpr new), key⟩
  · rw [List.map_append]
    refine List.nodup_append.mpr ⟨kept.distinct, distinct_goesIn, ?_⟩
    intro k old k' new same
    subst same
    obtain ⟨a, member, rfl⟩ := List.mem_map.mp old
    obtain ⟨b, fresh, same⟩ := List.mem_map.mp new
    obtain ⟨pending, done⟩ := List.mem_filter.mp fresh
    exact (keys_of_goesIn pending done).1 a same.symm (present a member)

variable {x : L2HistoryStore K × HistoryTables K} {a : RecordAccounts K}

theorem kept_step (kept : Kept x.2 a.stored) (present : ∀ s ∈ a.stored, Stored cal x.2 s) (call : StoreCall K) :
    Kept (accounting cal (x, a) call).1.1.2 (accounting cal (x, a) call).1.2.stored := by
  cases call with
  | enqueueSample s => exact kept
  | flush conditions => exact kept_flush kept present

theorem kept_run (cal : Calendar) (capacity : Nat) (calls : List (StoreCall K)) :
    ∀ t ∈ Runs.reached (accounting cal) (({ capacity := capacity }, fun _ _ _ => none), {}) calls,
      (∀ s ∈ t.2.stored, Stored cal t.1.2 s) ∧ Kept t.1.2 t.2.stored := by
  have start : Kept (fun _ _ _ => none) ([] : List (DownSampledSample K)) :=
    ⟨fun _ _ _ _ row => (nomatch row), List.nodup_nil⟩
  have both := Runs.reached_always (accounting cal) calls
    (s := (({ capacity := capacity }, fun _ _ _ => none), {}))
    (I := fun t => Accounted cal t.1 t.2 ∧ Kept t.1.2 t.2.stored)
    ⟨accounted_fresh cal _ _, start⟩
    (fun t call invariant => ⟨accounted_step invariant.1 call, kept_step invariant.2 invariant.1.stored call⟩)
  exact fun t member => ⟨(both t member).1.stored, (both t member).2⟩

end Rows

/-- A time stamp from February 1970 to 2100. -/
structure Dated (cal : MonthCalendar) (timestamp : Nat) : Prop where
  fromFebruary : 1 ≤ cal.months.number timestamp
  to2100 : timestamp ≤ maxSaneTs

/-- The records of a point in a range. -/
def recordsIn (records : List (DownSampledSample K)) (pointId : UInt32) (beginMs endMs : UInt64) :
    List (DownSampledSample K) :=
  records.filter fun s => s.pointId = pointId ∧ beginMs.toNat ≤ s.timestamp ∧ s.timestamp < endMs.toNat

/-- The answer to a query: the records asked for, each once and in the order of their times. -/
structure Answers (asked out : List (DownSampledSample K)) : Prop where
  ascending : out.Pairwise (·.timestamp < ·.timestamp)
  records : out.Perm asked

section Answer
variable {cal : MonthCalendar} {db : HistoryTables K} {stored : List (DownSampledSample K)} {pointId : UInt32}
  {beginMs endMs : UInt64} {gran : HistoryGranularity} {s : DownSampledSample K} {i : ℤ}

/-- What a month gives. -/
theorem mem_queryMonth : s ∈ queryMonth cal db pointId beginMs endMs gran (some i) ↔
    ∃ name, getTableName cal.toCalendar (cal.qBegin beginMs i) gran = some name ∧
      openMonth cal.toCalendar (cal.month (cal.qBegin beginMs i)) = true ∧
        s ∈ selectRange (db (cal.month (cal.qBegin beginMs i)) name) pointId (cal.qBegin beginMs i)
          (cal.qEnd endMs i) := by
  unfold queryMonth
  by_cases proper : cal.qBegin beginMs i < cal.qEnd endMs i
  · simp only [if_pos proper]
    cases getTableName cal.toCalendar (cal.qBegin beginMs i) gran with
    | none => simp
    | some name => split <;> simp [*]
  · simp only [if_neg proper, List.not_mem_nil, false_iff, not_exists, not_and]
    intro name _ _ row
    obtain ⟨between, -⟩ := mem_selectRange.mp row
    omega

theorem queryMonth_ascending :
    (queryMonth cal db pointId beginMs endMs gran (some i)).Pairwise fun a b => (a.timestamp : ℤ) < b.timestamp := by
  unfold queryMonth
  dsimp only
  split
  · split
    · exact .nil
    · split
      · exact selectRange_ascending
      · exact .nil
  · exact .nil

theorem getTableName_eq_some {timestamp : Nat} {name : TableName}
    (named : getTableName cal.toCalendar timestamp gran = some name) :
    0 < timestamp ∧ timestamp ≤ maxSaneTs ∧ name = (gran, cal.month timestamp) := by
  unfold getTableName at named
  split at named
  · cases named
  · cases named
    rename_i sane
    exact ⟨by omega, by omega, rfl⟩

/-- A month that is read gives records of the range that lie in it. -/
theorem within_queryMonth (visited : i ∈ cal.visited beginMs endMs)
    (member : s ∈ queryMonth cal db pointId beginMs endMs gran (some i)) :
    beginMs.toNat ≤ s.timestamp ∧ s.timestamp < endMs.toNat ∧ cal.months.number s.timestamp = i := by
  obtain ⟨name, named, -, row⟩ := mem_queryMonth.mp member
  obtain ⟨-, sane, -⟩ := getTableName_eq_some named
  exact (MonthCalendar.between_iff visited sane).mp (mem_selectRange.mp row).1

theorem rangeRows_ascending : (rangeRows cal db pointId beginMs endMs gran).Pairwise (·.timestamp < ·.timestamp) := by
  have ordered : (rangeRows cal db pointId beginMs endMs gran).Pairwise fun a b => (a.timestamp : ℤ) < b.timestamp :=
    cal.months.flatMap_ascending (cal.visited_ascending beginMs endMs)
      (fun i visited s member => (within_queryMonth visited member).2.2) (fun i _ => queryMonth_ascending)
  exact ordered.imp Int.ofNat_lt.mp

/-- What a query gives is among what is kept. -/
theorem of_mem_rangeRows (kept : Kept db stored) (member : s ∈ rangeRows cal db pointId beginMs endMs gran) :
    s ∈ recordsIn stored pointId beginMs endMs ∧ endMs.toNat < 2 ^ 63 := by
  obtain ⟨i, visited, here⟩ := List.mem_flatMap.mp member
  obtain ⟨early, late, -⟩ := within_queryMonth visited here
  obtain ⟨name, named, -, row⟩ := mem_queryMonth.mp here
  obtain ⟨-, sane, -⟩ := getTableName_eq_some named
  obtain ⟨-, stored_, present, rebuilt⟩ := mem_selectRange.mp row
  obtain ⟨known, key⟩ := kept.rows _ _ _ _ present
  have point : stored_.pointId = pointId := congrArg Prod.fst key
  have time : stored_.timestamp = s.timestamp := congrArg Prod.snd key
  have same : stored_ = s := by
    rw [← rebuilt, ← point, ← time]
  rw [same] at known point
  constructor
  · exact List.mem_filter.mpr ⟨known, decide_eq_true ⟨point, early, late⟩⟩
  · exact (MonthCalendar.starts_of_visited visited ((le_max_right _ _).trans sane)).1

/-- The table of a month is the one that its time stamps name. -/
theorem tableOf_month {t : Nat} (gran : HistoryGranularity) (positive : 0 < cal.months.start (cal.months.number t))
    (sane : t ≤ maxSaneTs) : tableOf cal.toCalendar (cal.month t) gran = some (gran, cal.month t) := by
  obtain ⟨start, same⟩ := MonthCalendar.month_start positive.le sane
  have started := cal.months.started t
  rw [tableOf, cal.read_back t sane, if_neg (by omega), getTableName, same, if_neg (by omega)]

theorem Dated.positive {timestamp : Nat} (dated : Dated cal timestamp) :
    0 < cal.months.start (cal.months.number timestamp) :=
  cal.february.trans_le (cal.months.increasing.monotone dated.fromFebruary)

/-- A dated record that is kept is given if the range ends before the signed times do. -/
theorem mem_rangeRows (present : Stored cal.toCalendar db s) (dated : Dated cal s.timestamp)
    (point : s.pointId = pointId) (early : beginMs.toNat ≤ s.timestamp) (late : s.timestamp < endMs.toNat)
    (signed : endMs.toNat < 2 ^ 63) : s ∈ rangeRows cal db pointId beginMs endMs .gran1s := by
  have positive := dated.positive
  have started := cal.months.started s.timestamp
  have recent := dated.to2100
  obtain ⟨visited, sane⟩ := (MonthCalendar.mem_visited_iff early late).mpr
    ⟨signed, early.trans recent, positive.le, by omega⟩
  obtain ⟨from_, until_⟩ := (MonthCalendar.between_iff visited sane).mpr ⟨early, late, rfl⟩
  have month : cal.months.number (cal.qBegin beginMs (cal.months.number s.timestamp)) = cal.months.number s.timestamp :=
    ((MonthCalendar.between_iff visited sane).mp ⟨le_rfl, by omega⟩).2.2
  obtain ⟨name, table, row⟩ := present
  rw [tableOf_month .gran1s positive recent] at table
  rw [← Option.some.inj table, ← cal.month_of_number _ _ month] at row
  have given : s ∈ queryMonth cal db pointId beginMs endMs .gran1s (cal.months.number s.timestamp) := by
    refine mem_queryMonth.mpr ⟨(.gran1s, cal.month (cal.qBegin beginMs (cal.months.number s.timestamp))), ?_, ?_, ?_⟩
    · have own : unsigned (cal.months.start (cal.months.number s.timestamp)) ≤
          cal.qBegin beginMs (cal.months.number s.timestamp) := le_max_right _ _
      have start := (MonthCalendar.starts_of_visited visited (own.trans sane)).2.1
      rw [getTableName, if_neg (by omega)]
    · rw [openMonth, tableOf_month .gran1s (by rwa [month]) sane]
      rfl
    · refine mem_selectRange.mpr ⟨⟨from_, until_⟩, s, ?_, ?_⟩
      · rw [← point]
        exact row
      · rw [← point]
  exact List.mem_flatMap.mpr ⟨_, visited, given⟩

/-- What a query returns, if it does: what the months have together. -/
theorem queryRange_iff {out : List (DownSampledSample K)} (forward : ¬endMs ≤ beginMs) :
    (∃ fuel, queryRange cal db pointId beginMs endMs gran fuel = some out) ↔
      cal.Stops beginMs endMs ∧ out = rangeRows cal db pointId beginMs endMs gran := by
  simp only [queryRange, if_neg forward]
  exact MonthCalendar.throughMonths_iff

theorem recordsIn_backward (backward : endMs ≤ beginMs) : recordsIn stored pointId beginMs endMs = [] := by
  rw [UInt64.le_iff_toNat_le] at backward
  apply List.filter_eq_nil_iff.mpr
  intro s _ here
  obtain ⟨-, early, late⟩ := of_decide_eq_true here
  omega

/-- What the months have together are the records asked for, unless there are some and the range ends beyond the
signed times. -/
theorem answers_rangeRows_iff (present : ∀ s ∈ stored, Stored cal.toCalendar db s) (kept : Kept db stored)
    (dated : ∀ s ∈ stored, Dated cal s.timestamp) :
    Answers (recordsIn stored pointId beginMs endMs) (rangeRows cal db pointId beginMs endMs .gran1s) ↔
      endMs.toNat < 2 ^ 63 ∨ recordsIn stored pointId beginMs endMs = [] := by
  constructor
  · intro answers
    by_contra neither
    obtain ⟨high, some_⟩ := not_or.mp neither
    obtain ⟨s, asked⟩ := List.exists_mem_of_ne_nil _ some_
    exact high (of_mem_rangeRows kept (answers.records.mem_iff.mpr asked)).2
  · intro condition
    have ascending : (rangeRows cal db pointId beginMs endMs .gran1s).Pairwise (·.timestamp < ·.timestamp) :=
      rangeRows_ascending
    refine ⟨ascending, ?_⟩
    have distinct : (recordsIn stored pointId beginMs endMs).Nodup := (List.Nodup.of_map _ kept.distinct).filter _
    have once : (rangeRows cal db pointId beginMs endMs .gran1s).Nodup := by
      apply ascending.imp
      rintro a b before rfl
      exact absurd before (lt_irrefl _)
    apply (List.perm_ext_iff_of_nodup once distinct).mpr
    intro s
    constructor
    · intro given
      exact (of_mem_rangeRows kept given).1
    · intro asked
      rcases condition with signed | none
      · obtain ⟨known, here⟩ := List.mem_filter.mp asked
        obtain ⟨point, early, late⟩ := of_decide_eq_true here
        exact mem_rangeRows (present s known) (dated s known) point early late signed
      · rw [none] at asked
        cases asked

end Answer

/-- After any run of the store a query returns the records of the point in the range that were stored, if these
are from February 1970 to 2100: unless the range ends where the months never come to, or there are some and it
ends beyond the signed times. -/
theorem queryRange_answers_iff [Reading K] (cal : MonthCalendar) (capacity : Nat) (calls : List (StoreCall K))
    (pointId : UInt32) (beginMs endMs : UInt64) : ∀ t ∈ Runs.reached (accounting cal.toCalendar)
      (({ capacity := capacity }, fun _ _ _ => none), {}) calls, (∀ s ∈ t.2.stored, Dated cal s.timestamp) →
      ((∃ fuel out, queryRange cal t.1.2 pointId beginMs endMs .gran1s fuel = some out ∧
          Answers (recordsIn t.2.stored pointId beginMs endMs) out) ↔
        endMs ≤ beginMs ∨ cal.Stops beginMs endMs ∧
          (endMs.toNat < 2 ^ 63 ∨ recordsIn t.2.stored pointId beginMs endMs = [])) := by
  intro t reached dated
  obtain ⟨present, kept⟩ := kept_run cal.toCalendar capacity calls t reached
  have rows : Answers (recordsIn t.2.stored pointId beginMs endMs) (rangeRows cal t.1.2 pointId beginMs endMs .gran1s) ↔
      endMs.toNat < 2 ^ 63 ∨ recordsIn t.2.stored pointId beginMs endMs = [] := answers_rangeRows_iff present kept dated
  by_cases backward : endMs ≤ beginMs
  · refine ⟨fun _ => Or.inl backward, fun _ => ⟨0, [], if_pos backward, ?_⟩⟩
    rw [recordsIn_backward backward]
    exact ⟨.nil, .nil⟩
  · rw [or_iff_right backward, ← rows]
    constructor
    · rintro ⟨fuel, out, returned, answers⟩
      obtain ⟨stops, rfl⟩ := (queryRange_iff backward).mp ⟨fuel, returned⟩
      exact ⟨stops, answers⟩
    · rintro ⟨stops, answers⟩
      obtain ⟨fuel, returned⟩ := (queryRange_iff backward).mpr ⟨stops, rfl⟩
      exact ⟨fuel, _, returned, answers⟩

section Edge
open Extended

def allWell : FlushConditions := ⟨fun _ => true, HashOrder.insertion String⟩

/-- Records of the last second of January 2024 and the first of February. -/
def atMonthEnd : List (StoreCall (Extended ℚ)) :=
  [.enqueueSample { twoSamples with timestamp := 1706745599000 },
    .enqueueSample { twoSamples with timestamp := 1706745600000 }, .flush allWell]

theorem dated_universalTime {timestamp : Nat} (late : 2678400000 ≤ timestamp) (recent : timestamp ≤ maxSaneTs) :
    Dated universalTime timestamp := by
  refine ⟨Timeline.le_number_iff _ |>.mpr ?_, recent⟩
  have second : universalTime.months.start 1 = 2678400000 := by decide
  omega

/-- A range over the month's end is answered. -/
theorem queryRange_answers_iff_atMonthEnd :
    let t := Runs.run (accounting universalTime.toCalendar) (({}, fun _ _ _ => none), {}) atMonthEnd
    ∃ fuel out, queryRange universalTime t.1.2 1 1706745599000 1706745601000 .gran1s fuel = some out ∧
      Answers (recordsIn t.2.stored 1 1706745599000 1706745601000) out := by
  refine (queryRange_answers_iff universalTime 100000 atMonthEnd 1 1706745599000 1706745601000 _
    Runs.run_mem_reached fun s stored => ?_).mpr
      (Or.inr ⟨MonthCalendar.stops_of_sane (by decide) (by decide), Or.inl (by decide)⟩)
  have pending := List.mem_of_mem_filter (List.mem_append.mp stored |>.resolve_left List.not_mem_nil)
  rcases List.mem_cons.mp pending with rfl | last
  · exact dated_universalTime (by decide) (by decide)
  · rw [List.mem_singleton.mp last]
    exact dated_universalTime (by decide) (by decide)

def oneRecord : List (StoreCall (Extended ℚ)) := [.enqueueSample twoSamples, .flush allWell]

theorem stored_oneRecord : (Runs.run (accounting universalTime.toCalendar) (({}, fun _ _ _ => none), {})
    oneRecord).2.stored = [twoSamples] := by
  have dated : Dated universalTime twoSamples.timestamp := dated_universalTime (by decide) (by decide)
  have row : L2HistoryStore.rowsOf universalTime.toCalendar [twoSamples]
      (universalTime.month twoSamples.timestamp) = [twoSamples] := by
    simp [L2HistoryStore.rowsOf]
  have named := tableOf_month .gran1s dated.positive dated.to2100
  have goes : goesIn universalTime.toCalendar allWell (fun _ _ _ => none) [twoSamples] twoSamples = true := by
    rw [goesIn, transaction, row]
    refine (batchInsert_succeeds_iff (List.cons_ne_nil _ _) named).mpr ⟨?_, ?_⟩
    · decide
    · simp [ViolatesPrimaryKey]
  change [] ++ [twoSamples].filter (goesIn universalTime.toCalendar allWell (fun _ _ _ => none) [twoSamples]) = _
  simp [goes]

/-- The whole time that the numbers have is not answered with what there is. -/
theorem queryRange_fails : ¬∀ t ∈ Runs.reached (accounting universalTime.toCalendar)
      (({}, fun _ _ _ => none), {}) oneRecord, (∀ s ∈ t.2.stored, Dated universalTime s.timestamp) →
      ∃ fuel out, queryRange universalTime t.1.2 1 0 18446744073709551615 .gran1s fuel = some out ∧
        Answers (recordsIn t.2.stored 1 0 18446744073709551615) out := by
  intro always
  have kept := (kept_run universalTime.toCalendar 100000 oneRecord _ Runs.run_mem_reached).2
  obtain ⟨fuel, out, returned, answers⟩ := always _ Runs.run_mem_reached fun s stored => by
    rw [stored_oneRecord, List.mem_singleton] at stored
    rw [stored]
    exact dated_universalTime (by decide) (by decide)
  obtain ⟨-, rfl⟩ := (queryRange_iff (by decide)).mp ⟨fuel, returned⟩
  have asked : twoSamples ∈ recordsIn [twoSamples] 1 0 18446744073709551615 :=
    List.mem_filter.mpr ⟨List.mem_singleton_self _, rfl⟩
  rw [stored_oneRecord] at answers
  have given := of_mem_rangeRows kept (answers.records.mem_iff.mpr asked)
  exact absurd given.2 (by decide)

end Edge
end EnerSentry.Datahub
