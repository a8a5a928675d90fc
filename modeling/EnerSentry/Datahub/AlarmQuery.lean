import Mathlib.Data.List.Flatten
import Mathlib.Data.List.Perm.Basic
import EnerSentry.Datahub.MonthCalendar
import EnerSentry.Lib.Newest
import EnerSentry.Lib.Runs

/-!
The alarm query. Each month of the range is asked for its newest matches, no more than the limit, and the
answers are sorted together and cut once more. A record is found under the month that its batch was written
to, which is the month of the first record of the batch.
-/

namespace EnerSentry.Datahub
open EnerSentry.Lib

variable {K : Type*} [Zero K]

structure AlarmQueryFilter where
  beginMs : UInt64 := 0
  endMs : UInt64 := 0
  level : Int := -1
  status : Int := -1
  pointId : UInt32 := 0
  limit : Int := 0

namespace AlarmQueryFilter

/-- The conditions on the columns; the values that stand for all of them set none. -/
def columns (f : AlarmQueryFilter) (r : AlarmRecord K) : Bool :=
  (f.pointId = 0 || r.pointId = f.pointId) && (f.level < 0 || r.level = f.level) &&
    (f.status < 0 || r.status = f.status)

def limitOf (f : AlarmQueryFilter) : Option Nat := if 0 < f.limit then some f.limit.toNat else none

/-- Where the range ends: now, if the filter does not say. -/
def endOf (f : AlarmQueryFilter) (now : UInt64) : UInt64 := if f.endMs = 0 then now else f.endMs

end AlarmQueryFilter

/-- The alarm databases as a query meets them: the rows of each month's table, and which files there are. -/
structure AlarmFiles (K : Type*) [Zero K] where
  rows : String → List (AlarmRecord K)
  file : String → Bool
  file_of_rows : ∀ month, rows month ≠ [] → file month = true

/-- A size as the signed number of 32 bits that it is cast to. -/
def castInt (size : Nat) : ℤ := (size : ℤ).bmod (2 ^ 32)

/-- How rows of one time are ordered is up to the database, and to the sort that follows. -/
abbrev TimeOrder (K : Type*) [Zero K] := NewestFirst (AlarmRecord.triggerTime (K := K))

section Query
variable (cal : MonthCalendar) (database : String → TimeOrder K) (sort : TimeOrder K) (files : AlarmFiles K)
  (now : UInt64) (f : AlarmQueryFilter)

def selectAlarms (order : TimeOrder K) (rows : List (AlarmRecord K)) (qBegin qEnd : Nat) : List (AlarmRecord K) :=
  -- A time from 2 ^ 63 on is stored as a negative number: there it fails the first comparison, here the second.
  truncate f.limitOf (order.sort (rows.filter fun r =>
    decide (qBegin ≤ r.triggerTime ∧ r.triggerTime < qEnd) && f.columns r))

/-- What a month gives; a month without a file, a database or a table is left out. -/
def queryAlarmMonth (cur : Option ℤ) : List (AlarmRecord K) :=
  let qBegin := cal.qBegin f.beginMs cur
  let qEnd := cal.qEnd (f.endOf now) cur
  if qEnd ≤ qBegin then []
  else if !files.file (cal.month qBegin) then []
  else
    match openAlarmTable cal.toCalendar qBegin with
    | none => []
    | some table => selectAlarms f (database table) (files.rows table) qBegin qEnd

/-- The rows of all months, sorted together and cut. -/
def newestRows (rows : List (AlarmRecord K)) : List (AlarmRecord K) :=
  let out := sort.sort rows
  if 0 < f.limit ∧ f.limit < castInt out.length then out.take f.limit.toNat else out

/-- The query, as long as the fuel lasts. -/
def queryAlarms (fuel : Nat) : Option (List (AlarmRecord K)) :=
  if f.endOf now ≤ f.beginMs then some []
  else (cal.throughMonths (f.endOf now) (queryAlarmMonth cal database files now f) fuel
    (cal.firstMonth f.beginMs)).map (newestRows sort f)

/-- What the months of the range give together. -/
def monthRows : List (AlarmRecord K) :=
  (cal.visited f.beginMs (f.endOf now)).flatMap fun i => queryAlarmMonth cal database files now f (some i)

end Query

section Insert
variable (cal : Calendar)

def inserting : Runs.Step (AlarmTables K) (List (AlarmRecord K)) Bool := fun db records =>
  ((insertAlarmRecords cal db records).1, [(insertAlarmRecords cal db records).2])

/-- The batches that were reported as inserted. -/
def reported (_ : AlarmTables K) (batches : List (List (AlarmRecord K))) (records : List (AlarmRecord K))
    (answer : List Bool) : List (List (AlarmRecord K)) :=
  if answer = [true] then batches ++ [records] else batches

def insertions : Runs.Step (AlarmTables K × List (List (AlarmRecord K))) (List (AlarmRecord K)) Bool :=
  Runs.watch (inserting cal) reported

/-- The table that takes a batch. -/
def home (batch : List (AlarmRecord K)) : Option String :=
  batch.head?.bind fun front => openAlarmTable cal front.triggerTime

/-- The tables hold the reported batches, each under its home. -/
structure Holds (db : AlarmTables K) (batches : List (List (AlarmRecord K))) : Prop where
  homes : ∀ batch ∈ batches, batch ≠ [] → (home cal batch).isSome = true
  rows : ∀ month id r, db month id = some r ↔ r.id = id ∧ ∃ batch ∈ batches, home cal batch = some month ∧ r ∈ batch

variable {cal} {db : AlarmTables K} {batches : List (List (AlarmRecord K))} {records : List (AlarmRecord K)}

/-- A batch fails, has nothing in it, or goes to its home. -/
theorem inserting_cases (cal : Calendar) (db : AlarmTables K) (records : List (AlarmRecord K)) :
    inserting cal db records = (db, [false]) ∨ (records = [] ∧ inserting cal db records = (db, [true])) ∨
      ∃ month table, home cal records = some month ∧
        KeyedTable.insertAll (·.id) AlarmRecord.admissible (db month) records = some table ∧
        inserting cal db records = (Function.update db month table, [true]) := by
  unfold inserting insertAlarmRecords
  cases records with
  | nil => exact Or.inr (Or.inl ⟨rfl, rfl⟩)
  | cons front rest =>
    dsimp only
    cases named : openAlarmTable cal front.triggerTime with
    | none => exact Or.inl rfl
    | some month =>
      dsimp only
      cases written : KeyedTable.insertAll (·.id) AlarmRecord.admissible (db month) (front :: rest) with
      | none => exact Or.inl rfl
      | some table => exact Or.inr (Or.inr ⟨month, table, named, written, rfl⟩)

/-- A batch adds its rows at its home. -/
theorem holds_insert {month : String} {table : KeyedTable.Table Nat (AlarmRecord K)} (holds : Holds cal db batches)
    (named : home cal records = some month)
    (written : KeyedTable.insertAll (·.id) AlarmRecord.admissible (db month) records = some table) :
    Holds cal (Function.update db month table) (batches ++ [records]) := by
  constructor
  · intro batch member some_
    rcases List.mem_append.mp member with old | new
    · exact holds.homes batch old some_
    · rw [List.mem_singleton.mp new, named]
      rfl
  · intro m id r
    have before := holds.rows m id r
    simp only [List.mem_append, List.mem_singleton, or_and_right, exists_or, exists_eq_left, and_or_left]
    rw [← before, named]
    by_cases here : m = month
    · subst here
      rw [Function.update_self, KeyedTable.insertAll_row_iff written]
      simp only [true_and, and_comm]
    · rw [Function.update_of_ne here]
      constructor
      · exact Or.inl
      · rintro (old | ⟨-, same, -⟩)
        · exact old
        · exact absurd (Option.some.inj same).symm here

theorem holds_run (cal : Calendar) (calls : List (List (AlarmRecord K))) :
    ∀ t ∈ Runs.reached (insertions cal) (fun _ _ => none, []) calls, Holds cal t.1 t.2 := by
  apply Runs.reached_always (insertions cal) calls (I := fun t => Holds cal t.1 t.2)
  · exact ⟨fun batch none => (List.not_mem_nil none).elim, fun month id r => by simp⟩
  · rintro ⟨db, batches⟩ records holds
    have outcome := inserting_cases cal db records
    change Holds cal (inserting cal db records).1 (reported db batches records (inserting cal db records).2)
    rcases outcome with failed | ⟨none, done⟩ | ⟨month, table, named, written, done⟩
    · rw [failed]
      exact holds
    · rw [done, none]
      constructor
      · intro batch member some_
        rcases List.mem_append.mp member with old | new
        · exact holds.homes batch old some_
        · exact absurd (List.mem_singleton.mp new) some_
      · intro month id r
        rw [holds.rows]
        simp [reported]
    · rw [done]
      exact holds_insert holds named written

end Insert
section Tables
variable {cal : MonthCalendar} {t : Nat} {month : String}

/-- A time has a table if it is sane and its month begins after the epoch. -/
theorem openAlarmTable_iff : openAlarmTable cal.toCalendar t = some month ↔
    (0 < t ∧ t ≤ maxSaneTs) ∧ 0 < cal.months.start (cal.months.number t) ∧ month = cal.month t := by
  rw [openAlarmTable, Option.filter_eq_some_iff, alarmTableNameOf]
  constructor
  · rintro ⟨named, schema⟩
    split at named
    · cases named
    · cases named
      rename_i sane
      rw [not_or, not_lt] at sane
      refine ⟨⟨by omega, sane.2⟩, ?_, rfl⟩
      by_contra early
      rw [ensureAlarmSchema, cal.read_back t sane.2, alarmTableNameOf,
        if_pos (MonthCalendar.unsigned_early (not_lt.mp early))] at schema
      simp at schema
  · rintro ⟨⟨positive, sane⟩, begun, rfl⟩
    obtain ⟨start, same⟩ := MonthCalendar.month_start begun.le sane
    have started := cal.months.started t
    refine ⟨if_neg (by omega), ?_⟩
    rw [ensureAlarmSchema, cal.read_back t sane, alarmTableNameOf, if_neg (by omega), same, Bool.and_eq_true]
    exact ⟨decide_eq_true (by omega), decide_eq_true rfl⟩

end Tables

section Shown
variable (cal : MonthCalendar) (f : AlarmQueryFilter) (now : UInt64)

/-- The filter asks for a record. -/
def asked (r : AlarmRecord K) : Bool :=
  decide (f.beginMs.toNat ≤ r.triggerTime ∧ r.triggerTime < (f.endOf now).toNat) && f.columns r

/-- A record lies in the month of the first record of its batch. -/
def atHome (batch : List (AlarmRecord K)) (r : AlarmRecord K) : Bool :=
  batch.head?.any fun front => cal.months.number front.triggerTime = cal.months.number r.triggerTime

/-- A query comes to a record: it lies in the month it was written to, and the range is one of sane times. -/
def shown (batch : List (AlarmRecord K)) (r : AlarmRecord K) : Bool :=
  atHome cal batch r && decide (f.beginMs.toNat ≤ maxSaneTs ∧ (f.endOf now).toNat < 2 ^ 63)

def matching (batches : List (List (AlarmRecord K))) : List (AlarmRecord K) := batches.flatten.filter (asked f now)

def visible (batches : List (List (AlarmRecord K))) : List (AlarmRecord K) :=
  batches.flatMap fun batch => batch.filter fun r => shown cal f now batch r && asked f now r

def hidden (batches : List (List (AlarmRecord K))) : List (AlarmRecord K) :=
  batches.flatMap fun batch => batch.filter fun r => !shown cal f now batch r && asked f now r

/-- How many rows the months give together. -/
def taken (batches : List (List (AlarmRecord K))) : Nat :=
  ((cal.visited f.beginMs (f.endOf now)).map fun i => (truncate f.limitOf
    ((visible cal f now batches).filter fun r => cal.months.number r.triggerTime = i)).length).sum

/-- The cast of the size to a signed number does not hide that there are too many. -/
def CastFits (size : Nat) : Prop := 0 < f.limit → size ≤ f.limit ∨ f.limit < castInt size

variable {cal f now} {batches : List (List (AlarmRecord K))} {r : AlarmRecord K}

theorem castFits_of_lt {size : Nat} (few : size < 2 ^ 31) : CastFits f size := by
  intro _
  have same : castInt size = size := by
    unfold castInt
    rw [Int.bmod_def]
    split <;> omega
  omega

theorem visible_hidden (cal : MonthCalendar) (f : AlarmQueryFilter) (now : UInt64)
    (batches : List (List (AlarmRecord K))) :
    (visible cal f now batches ++ hidden cal f now batches).Perm (matching f now batches) := by
  refine (List.flatMap_append_perm _ _ _).trans ?_
  rw [matching, List.filter_flatten, ← List.flatMap_def]
  apply List.Perm.flatMap_left
  intro batch _
  rw [← List.filter_filter, ← List.filter_filter]
  exact List.filter_append_perm _ _

theorem nothing_asked (backward : f.endOf now ≤ f.beginMs) (r : AlarmRecord K) : asked f now r = false := by
  rw [UInt64.le_iff_toNat_le] at backward
  rw [asked, decide_eq_false (by omega), Bool.false_and]

theorem mem_visible : r ∈ visible cal f now batches ↔
    ∃ batch ∈ batches, r ∈ batch ∧ shown cal f now batch r = true ∧ asked f now r = true := by
  simp only [visible, List.mem_flatMap, List.mem_filter, Bool.and_eq_true]

end Shown
/-- A query's files list the tables. -/
structure Lists (db : AlarmTables K) (files : AlarmFiles K) : Prop where
  once : ∀ month, (files.rows month).Nodup
  rows : ∀ month r, r ∈ files.rows month ↔ db month r.id = some r

section Months
variable {cal : MonthCalendar} {f : AlarmQueryFilter} {now : UInt64} {files : AlarmFiles K}
  {batches : List (List (AlarmRecord K))} {db : AlarmTables K} {r : AlarmRecord K} {i : ℤ}

/-- What a month has for a query, before it is sorted and cut. -/
def matchesOf (cal : MonthCalendar) (f : AlarmQueryFilter) (now : UInt64) (files : AlarmFiles K) (i : ℤ) :
    List (AlarmRecord K) :=
  match openAlarmTable cal.toCalendar (cal.qBegin f.beginMs i) with
  | none => []
  | some table => (files.rows table).filter fun r =>
      decide (cal.qBegin f.beginMs i ≤ r.triggerTime ∧ r.triggerTime < cal.qEnd (f.endOf now) i) && f.columns r

theorem mem_matchesOf : r ∈ matchesOf cal f now files i ↔
    ∃ table, openAlarmTable cal.toCalendar (cal.qBegin f.beginMs i) = some table ∧ r ∈ files.rows table ∧
      (cal.qBegin f.beginMs i ≤ r.triggerTime ∧ r.triggerTime < cal.qEnd (f.endOf now) i) ∧ f.columns r = true := by
  unfold matchesOf
  split
  · rename_i closed
    simp [closed]
  · rename_i table opened
    simp [opened]

/-- A month gives the newest of what it has. -/
theorem queryAlarmMonth_eq (cal : MonthCalendar) (f : AlarmQueryFilter) (now : UInt64) (files : AlarmFiles K) (i : ℤ)
    (database : String → TimeOrder K) : queryAlarmMonth cal database files now f (some i) = [] ∧
      matchesOf cal f now files i = [] ∨
    ∃ table, queryAlarmMonth cal database files now f (some i) =
      truncate f.limitOf ((database table).sort (matchesOf cal f now files i)) := by
  unfold queryAlarmMonth
  dsimp only
  by_cases proper : cal.qEnd (f.endOf now) i ≤ cal.qBegin f.beginMs i
  · refine Or.inl ⟨if_pos proper, List.eq_nil_iff_forall_not_mem.mpr fun r member => ?_⟩
    obtain ⟨-, -, -, between, -⟩ := mem_matchesOf.mp member
    omega
  · rw [if_neg proper]
    cases opened : openAlarmTable cal.toCalendar (cal.qBegin f.beginMs i) with
    | none =>
      refine Or.inl ⟨by split <;> rfl, ?_⟩
      rw [matchesOf, opened]
    | some table =>
      have named := (openAlarmTable_iff.mp opened).2.2
      by_cases there : files.file (cal.month (cal.qBegin f.beginMs i)) = true
      · refine Or.inr ⟨table, ?_⟩
        rw [there, matchesOf, opened]
        rfl
      · have none : files.rows table = [] := by
          by_contra some_
          exact there (named ▸ files.file_of_rows table some_)
        refine Or.inl ⟨if_pos (by simpa using there), ?_⟩
        rw [matchesOf, opened]
        simp [none]

theorem queryAlarmMonth_newest (database : String → TimeOrder K) :
    Newest AlarmRecord.triggerTime f.limitOf (matchesOf cal f now files i)
      (queryAlarmMonth cal database files now f (some i)) := by
  rcases queryAlarmMonth_eq cal f now files i database with
    ⟨nothing, none⟩ | ⟨table, sorted⟩
  · rw [nothing, none]
    exact Newest.nil
  · rw [sorted]
    exact newest_truncate ((database table).descending _) ((database table).perm _)

/-- The batch of a visible record has its home in the month of the record, which the query comes to. -/
theorem home_of_visible (holds : Holds cal.toCalendar db batches) (member : r ∈ visible cal f now batches) :
    (∃ batch ∈ batches, ∃ front, home cal.toCalendar batch = some (cal.month front) ∧ r ∈ batch ∧
      cal.months.number front = cal.months.number r.triggerTime) ∧
      0 < cal.months.start (cal.months.number r.triggerTime) ∧
      cal.months.number r.triggerTime ∈ cal.visited f.beginMs (f.endOf now) ∧
      cal.qBegin f.beginMs (cal.months.number r.triggerTime) ≤ maxSaneTs := by
  obtain ⟨batch, inserted, here, show_, ask⟩ := mem_visible.mp member
  rw [shown, atHome, Bool.and_eq_true, decide_eq_true_iff] at show_
  rw [asked, Bool.and_eq_true, decide_eq_true_iff] at ask
  obtain ⟨own, recent, signed⟩ := show_
  cases head : batch.head? with
  | none =>
    rw [head] at own
    cases own
  | some front =>
    rw [head, Option.any_some, decide_eq_true_iff] at own
    obtain ⟨table, homed⟩ := Option.isSome_iff_exists.mp (holds.homes batch inserted (List.ne_nil_of_mem here))
    have opened : openAlarmTable cal.toCalendar front.triggerTime = some table := by
      rw [home, head] at homed
      exact homed
    obtain ⟨⟨-, sane⟩, begun, named⟩ := openAlarmTable_iff.mp opened
    have started := cal.months.started front.triggerTime
    refine ⟨⟨batch, inserted, front.triggerTime, named ▸ homed, here, own⟩, own ▸ begun, ?_⟩
    apply (MonthCalendar.mem_visited_iff ask.1.1 ask.1.2).mpr
    rw [← own]
    exact ⟨signed, recent, begun.le, by omega⟩

/-- What a month that is read has are the visible records in it. -/
theorem mem_matchesOf_iff (holds : Holds cal.toCalendar db batches) (lists : Lists db files)
    (visited : i ∈ cal.visited f.beginMs (f.endOf now)) :
    r ∈ matchesOf cal f now files i ↔ r ∈ visible cal f now batches ∧ cal.months.number r.triggerTime = i := by
  rw [mem_matchesOf, mem_visible]
  constructor
  · rintro ⟨table, opened, row, between, columns⟩
    obtain ⟨⟨-, sane⟩, -, named⟩ := openAlarmTable_iff.mp opened
    obtain ⟨early, late, month⟩ := (MonthCalendar.between_iff visited sane).mp between
    have first := ((MonthCalendar.between_iff visited sane).mp ⟨le_rfl, between.1.trans_lt between.2⟩).2.2
    obtain ⟨-, batch, inserted, homed, member⟩ := (holds.rows _ _ _).mp ((lists.rows _ _).mp row)
    obtain ⟨front, head, opened'⟩ := Option.bind_eq_some_iff.mp homed
    obtain ⟨⟨-, sane'⟩, -, named'⟩ := openAlarmTable_iff.mp opened'
    have same := cal.number_of_month _ _ sane' sane (named'.symm.trans named)
    refine ⟨⟨batch, inserted, member, ?_, ?_⟩, month⟩
    · rw [shown, atHome, head, Bool.and_eq_true]
      refine ⟨decide_eq_true (same.trans (first.trans month.symm)), decide_eq_true ⟨?_, ?_⟩⟩
      · exact (le_max_left _ _).trans sane
      · exact (MonthCalendar.starts_of_visited visited ((le_max_right _ _).trans sane)).1
    · rw [asked, columns, Bool.and_true]
      exact decide_eq_true ⟨early, late⟩
  · rintro ⟨shown_, rfl⟩
    have member := mem_visible.mpr shown_
    obtain ⟨⟨batch, inserted, front, homed, here, own⟩, begun, -, sane⟩ := home_of_visible holds member
    obtain ⟨-, -, -, -, ask⟩ := shown_
    rw [asked, Bool.and_eq_true, decide_eq_true_iff] at ask
    have between := (MonthCalendar.between_iff visited sane).mpr ⟨ask.1.1, ask.1.2, rfl⟩
    have first := ((MonthCalendar.between_iff visited sane).mp ⟨le_rfl, between.1.trans_lt between.2⟩).2.2
    have started := cal.months.started (cal.qBegin f.beginMs (cal.months.number r.triggerTime))
    refine ⟨cal.month front, openAlarmTable_iff.mpr ⟨⟨?_, sane⟩, ?_, ?_⟩, ?_, between, ask.2⟩
    · rw [first] at started
      omega
    · rwa [first]
    · exact cal.month_of_number _ _ (own.trans first.symm)
    · exact (lists.rows _ _).mpr ((holds.rows _ _ _).mpr ⟨rfl, batch, inserted, homed, here⟩)

theorem nodup_matchesOf (lists : Lists db files) : (matchesOf cal f now files i).Nodup := by
  unfold matchesOf
  split
  · exact .nil
  · exact (lists.once _).filter _

/-- The months of the range together have the visible records. -/
theorem matchesOf_visible (holds : Holds cal.toCalendar db batches) (lists : Lists db files)
    (distinct : (visible cal f now batches).Nodup) :
    ((cal.visited f.beginMs (f.endOf now)).flatMap (matchesOf cal f now files)).Perm (visible cal f now batches) := by
  have once : ((cal.visited f.beginMs (f.endOf now)).flatMap (matchesOf cal f now files)).Nodup := by
    rw [List.nodup_flatMap]
    constructor
    · intro i _
      exact nodup_matchesOf lists
    · refine (cal.visited_ascending f.beginMs (f.endOf now)).imp_of_mem ?_
      intro i j first second before r here there
      have own := ((mem_matchesOf_iff holds lists first).mp here).2
      have other := ((mem_matchesOf_iff holds lists second).mp there).2
      omega
  apply (List.perm_ext_iff_of_nodup once distinct).mpr
  intro r
  rw [List.mem_flatMap]
  constructor
  · rintro ⟨i, visited, member⟩
    exact ((mem_matchesOf_iff holds lists visited).mp member).1
  · intro member
    obtain ⟨-, -, visited, -⟩ := home_of_visible holds member
    exact ⟨_, visited, (mem_matchesOf_iff holds lists visited).mpr ⟨member, rfl⟩⟩

/-- The months give as many rows as the visible records in them allow. -/
theorem length_merged (holds : Holds cal.toCalendar db batches) (lists : Lists db files)
    (distinct : (visible cal f now batches).Nodup) (database : String → TimeOrder K) :
    (monthRows cal database files now f).length = taken cal f now batches := by
  rw [monthRows, List.length_flatMap, taken]
  congr 1
  apply List.map_congr_left
  intro i visited
  rw [(queryAlarmMonth_newest database).full]
  apply length_truncate_congr
  apply List.Perm.length_eq
  apply (List.perm_ext_iff_of_nodup (nodup_matchesOf lists) (distinct.filter _)).mpr
  intro r
  rw [mem_matchesOf_iff holds lists visited, List.mem_filter, decide_eq_true_iff]

/-- What a query returns, if it does: the newest rows of the months. -/
theorem queryAlarms_iff {database : String → TimeOrder K} {sort : TimeOrder K} {out : List (AlarmRecord K)}
    (forward : ¬f.endOf now ≤ f.beginMs) :
    (∃ fuel, queryAlarms cal database sort files now f fuel = some out) ↔ cal.Stops f.beginMs (f.endOf now) ∧
      out = newestRows sort f (monthRows cal database files now f) := by
  simp only [queryAlarms, if_neg forward, Option.map_eq_some_iff]
  constructor
  · rintro ⟨fuel, rows, returned, rfl⟩
    obtain ⟨stops, rfl⟩ := MonthCalendar.throughMonths_iff.mp ⟨fuel, returned⟩
    exact ⟨stops, rfl⟩
  · rintro ⟨stops, rfl⟩
    obtain ⟨fuel, returned⟩ := MonthCalendar.throughMonths_iff.mpr ⟨stops, rfl⟩
    exact ⟨fuel, _, returned, rfl⟩

/-- If the cast does no harm, a query gives the newest of the visible records. -/
theorem newestRows_visible (holds : Holds cal.toCalendar db batches) (lists : Lists db files)
    (distinct : (visible cal f now batches).Nodup) (database : String → TimeOrder K) (sort : TimeOrder K)
    (fits : CastFits f (taken cal f now batches)) :
    Newest AlarmRecord.triggerTime f.limitOf (visible cal f now batches)
      (newestRows sort f (monthRows cal database files now f)) := by
  have size := length_merged holds lists distinct database
  rw [← (sort.perm _).length_eq] at size
  have cut : newestRows sort f (monthRows cal database files now f) =
      truncate f.limitOf (sort.sort (monthRows cal database files now f)) := by
    unfold newestRows
    dsimp only
    unfold CastFits at fits
    rw [size, AlarmQueryFilter.limitOf]
    by_cases limited : 0 < f.limit
    · rw [if_pos limited, truncate]
      rcases fits limited with few | seen
      · have whole : taken cal f now batches ≤ f.limit.toNat := by omega
        rw [List.take_of_length_le (size ▸ whole), ite_self]
      · rw [if_pos ⟨limited, seen⟩]
    · rw [if_neg (fun both => limited both.1), if_neg limited, truncate]
  have merged : Newest AlarmRecord.triggerTime f.limitOf (monthRows cal database files now f ++ [])
      (newestRows sort f (monthRows cal database files now f)) := by
    rw [cut, List.append_nil]
    exact newest_truncate (sort.descending _) (sort.perm _)
  have whole := Newest.of_parts (fun i _ => queryAlarmMonth_newest database) [] merged
  rw [List.append_nil] at whole
  exact whole.perm (matchesOf_visible holds lists distinct)

/-- Where the cast does harm, a query gives more than the limit. -/
theorem castFits_of_newest (holds : Holds cal.toCalendar db batches) (lists : Lists db files)
    (distinct : (visible cal f now batches).Nodup) (database : String → TimeOrder K) (sort : TimeOrder K)
    {all : List (AlarmRecord K)} (newest : Newest AlarmRecord.triggerTime f.limitOf all
      (newestRows sort f (monthRows cal database files now f))) :
    CastFits f (taken cal f now batches) := by
  have size := length_merged holds lists distinct database
  rw [← (sort.perm _).length_eq] at size
  intro limited
  by_contra neither
  rw [not_or, not_le, not_lt] at neither
  have full := newest.full
  unfold newestRows at full
  dsimp only at full
  rw [if_neg (by rw [size]; omega), size, AlarmQueryFilter.limitOf, if_pos limited, truncate, List.length_take] at full
  omega

end Months

/-- The alarm query after any run of insertions, with distinct ids: it returns the newest matches, exactly when
the range ends where the months come to, the cast of the size does no harm and every hidden match is outdone by a
limit's worth of visible ones. -/
theorem queryAlarms_newest_iff (cal : MonthCalendar) (database : String → TimeOrder K) (sort : TimeOrder K)
    (files : AlarmFiles K) (now : UInt64) (f : AlarmQueryFilter) (calls : List (List (AlarmRecord K))) :
    ∀ t ∈ Runs.reached (insertions cal.toCalendar) (fun _ _ => none, []) calls,
      (t.2.flatten.map (·.id)).Nodup → Lists t.1 files →
      ((∃ fuel out, queryAlarms cal database sort files now f fuel = some out ∧
          Newest AlarmRecord.triggerTime f.limitOf (matching f now t.2) out) ↔
        f.endOf now ≤ f.beginMs ∨ cal.Stops f.beginMs (f.endOf now) ∧ CastFits f (taken cal f now t.2) ∧
          Filled AlarmRecord.triggerTime f.limitOf (visible cal f now t.2) (hidden cal f now t.2)) := by
  intro t reached ids lists
  have holds := holds_run cal.toCalendar calls t reached
  have parts := visible_hidden cal f now t.2
  have distinct : (visible cal f now t.2).Nodup := by
    have all_ : (matching f now t.2).Nodup := (List.Nodup.of_map _ ids).filter _
    exact (List.nodup_append.mp (parts.nodup_iff.mpr all_)).1
  by_cases backward : f.endOf now ≤ f.beginMs
  · have none := nothing_asked (K := K) backward
    have all_ : matching f now t.2 = [] := List.filter_eq_nil_iff.mpr fun r _ => by simp [none]
    refine ⟨fun _ => Or.inl backward, fun _ => ⟨0, [], if_pos backward, ?_⟩⟩
    rw [all_]
    exact Newest.nil
  · rw [or_iff_right backward]
    constructor
    · rintro ⟨fuel, out, returned, newest⟩
      obtain ⟨stops, rfl⟩ := (queryAlarms_iff backward).mp ⟨fuel, returned⟩
      have fits := castFits_of_newest holds lists distinct database sort newest
      have seen := newestRows_visible holds lists distinct database sort fits
      exact ⟨stops, fits, seen.append_iff.mp (newest.perm parts.symm)⟩
    · rintro ⟨stops, fits, filled⟩
      have seen := newestRows_visible holds lists distinct database sort fits
      obtain ⟨fuel, returned⟩ : ∃ fuel, queryAlarms cal database sort files now f fuel =
        some (newestRows sort f (monthRows cal database files now f)) := (queryAlarms_iff backward).mpr ⟨stops, rfl⟩
      exact ⟨fuel, _, returned, (seen.append_iff.mpr filled).perm parts⟩

section Files
variable {cal : Calendar} {db : AlarmTables K} {batches calls : List (List (AlarmRecord K))}

/-- The files after the reported batches. -/
def filesOf (cal : Calendar) (batches : List (List (AlarmRecord K))) : AlarmFiles K where
  rows month := (batches.filter fun batch => home cal batch = some month).flatten
  file month := !(batches.filter fun batch => home cal batch = some month).flatten.isEmpty
  file_of_rows month some_ := by
    rw [Bool.not_eq_true', List.isEmpty_eq_false_iff]
    exact some_

/-- The files always list the tables. -/
theorem lists_filesOf (holds : Holds cal db batches) (ids : (batches.flatten.map (·.id)).Nodup) :
    Lists db (filesOf cal batches) := by
  constructor
  · intro month
    exact (List.Nodup.of_map _ ids).sublist (List.filter_sublist.flatten)
  · intro month r
    rw [holds.rows]
    simp only [filesOf, List.mem_flatten, List.mem_filter, decide_eq_true_iff, true_and, and_assoc]

/-- Only what was handed over is reported. -/
theorem reported_sublist (db : AlarmTables K) (batches : List (List (AlarmRecord K))) :
    (Runs.run (insertions cal) (db, batches) calls).2.Sublist (batches ++ calls) := by
  induction calls generalizing db batches with
  | nil => simp [Runs.run]
  | cons records calls ih =>
    refine (ih _ _).trans ?_
    dsimp only [reported]
    split
    · rw [List.append_assoc, List.singleton_append]
    · exact (List.sublist_cons_self ..).append_left batches

end Files

section MonthEnd

/-- Alarms of the last millisecond of January 2024 and the first of February. -/
def lastOfJanuary : AlarmRecord Int := { id := 1, pointId := 7, level := 2, triggerTime := 1706745599999 }

def firstOfFebruary : AlarmRecord Int := { id := 2, pointId := 7, level := 2, triggerTime := 1706745600000 }

def winter : AlarmQueryFilter := { beginMs := 1704067200000, endMs := 1709251200000 }

def byMerge : TimeOrder Int := NewestFirst.merge _

theorem number_january {t : Nat} (late : 1704067200000 ≤ t) (early : t < 1706745600000) :
    universalTime.months.number t = 648 := by
  have this : universalTime.months.start 648 = 1704067200000 := by decide
  have next : universalTime.months.start (648 + 1) = 1706745600000 := by decide
  rw [Timeline.number_eq_iff, this, next]
  omega

theorem number_february {t : Nat} (late : 1706745600000 ≤ t) (early : t < 1709251200000) :
    universalTime.months.number t = 649 := by
  have this : universalTime.months.start 649 = 1706745600000 := by decide
  have next : universalTime.months.start (649 + 1) = 1709251200000 := by decide
  rw [Timeline.number_eq_iff, this, next]
  omega

/-- Each alarm in a batch of its own is found. -/
theorem queryAlarms_newest_iff_winter :
    let t := Runs.run (insertions universalTime.toCalendar) (fun _ _ => none, []) [[lastOfJanuary], [firstOfFebruary]]
    ∃ fuel out, queryAlarms universalTime (fun _ => byMerge) byMerge (filesOf universalTime.toCalendar t.2) 0 winter
        fuel = some out ∧ Newest AlarmRecord.triggerTime none (matching winter 0 t.2) out := by
  intro t
  have sub : t.2.Sublist [[lastOfJanuary], [firstOfFebruary]] := reported_sublist _ []
  have ids : (t.2.flatten.map (·.id)).Nodup := by
    have all_ : ([[lastOfJanuary], [firstOfFebruary]].flatten.map (·.id)).Nodup := by decide
    exact all_.sublist (sub.flatten.map _)
  have reached : t ∈ Runs.reached (insertions universalTime.toCalendar) (fun _ _ => none, [])
    [[lastOfJanuary], [firstOfFebruary]] := Runs.run_mem_reached
  have holds := holds_run _ _ _ reached
  refine (queryAlarms_newest_iff universalTime (fun _ => byMerge) byMerge _ 0 winter _ t reached ids
    (lists_filesOf holds ids)).mpr (Or.inr ⟨MonthCalendar.stops_of_sane (by decide) (by decide),
      fun limited => absurd limited (by decide), fun h unseen => ?_⟩)
  obtain ⟨batch, inserted, here⟩ := List.mem_flatMap.mp unseen
  obtain ⟨member, missed⟩ := List.mem_filter.mp here
  have single : ∃ r, batch = [r] := by
    rcases List.mem_cons.mp (sub.subset inserted) with rfl | last
    · exact ⟨_, rfl⟩
    · exact ⟨_, List.mem_singleton.mp last⟩
  obtain ⟨r, rfl⟩ := single
  rw [List.mem_singleton.mp member] at missed
  have seen : shown universalTime winter 0 [r] r = true := by
    rw [shown, atHome, Bool.and_eq_true]
    exact ⟨by simp, by decide⟩
  rw [seen] at missed
  cases missed

/-- A batch over the month's end is inserted. -/
theorem reported_storm : (Runs.run (insertions universalTime.toCalendar) (fun _ _ => none, [])
    [[lastOfJanuary, firstOfFebruary]]).2 = [[lastOfJanuary, firstOfFebruary]] := by
  have january : universalTime.months.number lastOfJanuary.triggerTime = 648 := number_january (by decide) (by decide)
  have begun : 0 < universalTime.months.start 648 := by decide
  have opened := openAlarmTable_iff.mpr ⟨by decide, january ▸ begun, rfl⟩
  have rows : (KeyedTable.insertAll (·.id) AlarmRecord.admissible (fun _ => none)
      [lastOfJanuary, firstOfFebruary]).isSome = true :=
    KeyedTable.insertAll_isSome_iff.mpr ⟨by decide, fun _ _ => rfl, by decide⟩
  obtain ⟨table, written⟩ := Option.isSome_iff_exists.mp rows
  have done : (insertAlarmRecords universalTime.toCalendar (fun _ _ => none) [lastOfJanuary, firstOfFebruary]).2 =
      true := by
    simp only [insertAlarmRecords, opened, written]
  simp [Runs.run, insertions, Runs.watch, inserting, reported, done]

/-- The alarm of February is missing. -/
theorem queryAlarms_fails : ¬∀ t ∈ Runs.reached (insertions universalTime.toCalendar) (fun _ _ => none, [])
      [[lastOfJanuary, firstOfFebruary]], (t.2.flatten.map (·.id)).Nodup → ∀ files, Lists t.1 files →
      ∃ fuel out, queryAlarms universalTime (fun _ => byMerge) byMerge files 0 winter fuel = some out ∧
        Newest AlarmRecord.triggerTime winter.limitOf (matching winter 0 t.2) out := by
  intro always
  have reached : Runs.run _ _ _ ∈ Runs.reached (insertions universalTime.toCalendar) (fun _ _ => none, [])
    [[lastOfJanuary, firstOfFebruary]] := Runs.run_mem_reached
  have holds := holds_run _ _ _ reached
  have found := always _ reached
  rw [reported_storm] at holds found
  have ids : ([[lastOfJanuary, firstOfFebruary]].flatten.map (·.id)).Nodup := by decide
  have lists := lists_filesOf holds ids
  have parts := visible_hidden universalTime winter 0 [[lastOfJanuary, firstOfFebruary]]
  have distinct := (List.nodup_append.mp (parts.nodup_iff.mpr ((List.Nodup.of_map _ ids).filter _))).1
  obtain ⟨fuel, out, returned, newest⟩ := found ids _ lists
  obtain ⟨-, rfl⟩ := (queryAlarms_iff (by decide)).mp ⟨fuel, returned⟩
  have seen := newestRows_visible holds lists distinct (fun _ => byMerge) byMerge
    (fun limited => absurd limited (by decide))
  have filled := seen.append_iff.mp (newest.perm parts.symm)
  have january : universalTime.months.number lastOfJanuary.triggerTime = 648 := number_january (by decide) (by decide)
  have february : universalTime.months.number firstOfFebruary.triggerTime = 649 :=
    number_february (by decide) (by decide)
  have away : shown universalTime winter 0 [lastOfJanuary, firstOfFebruary] firstOfFebruary = false := by
    simp [shown, atHome, january, february]
  have missing : firstOfFebruary ∈ hidden universalTime winter 0 [[lastOfJanuary, firstOfFebruary]] := by
    simp only [hidden, List.flatMap_cons, List.flatMap_nil, List.append_nil, List.mem_filter, away]
    exact ⟨by simp, by decide⟩
  obtain ⟨n, limited, -⟩ := filled _ missing
  cases limited

end MonthEnd
end EnerSentry.Datahub
