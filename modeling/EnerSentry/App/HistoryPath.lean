import Mathlib.Algebra.Order.Monoid.WithTop
import Mathlib.Algebra.Order.Ring.Rat
import EnerSentry.Datahub.L2HistoryStore
import EnerSentry.Lib.Runs

/-!
The way of a sample into the history. A timer takes the samples off the bridge, feeds each
to the down-sampler and rolls its point up at once, by the wall clock; another timer flushes
what came out into the databases. A record is final exactly when no sample of its window is
still to come, that is when the clock has not left a window before its last sample is taken.
-/

namespace EnerSentry.App
open EnerSentry.Lib EnerSentry.Datahub EnerSentry.Lib.Runs

variable {K : Type*} [Reading K]

/-- A sample taken off the bridge: what the wall clock shows when its point is rolled up, and
the order in which the windows of the point are visited then. -/
structure Arrival (K : Type*) [Reading K] where
  sample : Sample K
  clock : Nat
  order : HashOrder (Sigma fun _ : Nat => Bucket K) := HashOrder.insertion _

structure HistoryPath (K : Type*) [Reading K] where
  ds : DownSampler K := {}
  l2 : L2HistoryStore K := {}
  db : HistoryTables K := fun _ _ _ => none

inductive HistoryEvent (K : Type*) [Reading K] where
  | consumeTick (batch : List (Arrival K))
  | flushTick (conditions : FlushConditions)

/-- Feeding one sample and rolling its point up. -/
def downSample : Step (DownSampler K) (Arrival K) (DownSampledSample K) := fun ds a =>
  (ds.feed a.sample.pointId a.sample .gran1s).rollUp a.order a.clock a.sample.pointId .gran1s 0

/-- The history part of the consumer's loop body; an empty data directory switches it off. -/
def consumeSample (dataDir : String) : Step (HistoryPath K) (Arrival K) (DownSampledSample K) := fun w a =>
  if dataDir = "" then (w, [])
  else
    let (ds, rolled) := downSample w.ds a
    ({ w with ds := ds, l2 := rolled.foldl L2HistoryStore.enqueueSample w.l2 }, rolled)

def onConsumeTick (dataDir : String) (w : HistoryPath K) (batch : List (Arrival K)) :
    HistoryPath K × List (DownSampledSample K) :=
  (run (consumeSample dataDir) w batch, outputs (consumeSample dataDir) w batch)

def onFlushTick (cal : Calendar) (w : HistoryPath K) (conditions : FlushConditions) : HistoryPath K :=
  let (l2, db, _) := w.l2.flush cal conditions w.db
  { w with l2 := l2, db := db }

/-- One tick of either timer; the outputs are the records handed to the store. -/
def historyStep (dataDir : String) (cal : Calendar) : Step (HistoryPath K) (HistoryEvent K) (DownSampledSample K)
  | w, .consumeTick batch => onConsumeTick dataDir w batch
  | w, .flushTick conditions => (onFlushTick cal w conditions, [])

section Streams

def HistoryEvent.batch : HistoryEvent K → List (Arrival K)
  | .consumeTick batch => batch
  | .flushTick _ => []

/-- The samples of a run, in the order in which they are taken. -/
def stream (events : List (HistoryEvent K)) : List (Arrival K) := events.flatMap HistoryEvent.batch

/-- The window of a sample. -/
def Arrival.window (a : Arrival K) : Nat := DownSampler.alignToWindow a.sample.timestamp .gran1s

/-- The window that the clock has reached. -/
def Arrival.clockWindow (a : Arrival K) : Nat := DownSampler.alignToWindow a.clock .gran1s

/-- The values of one window of one point. -/
def readings (pointId : UInt32) (win : Nat) (l : List (Arrival K)) : List K :=
  (l.filter (fun a => a.sample.pointId = pointId ∧ a.window = win)).map (fun a => a.sample.value)

/-- Samples have time stamps, and those of a point come in the order of their time stamps. -/
structure Steady (l : List (Arrival K)) : Prop where
  stamped : ∀ a ∈ l, a.sample.timestamp ≠ 0
  ordered : l.Pairwise (fun a b => a.sample.pointId = b.sample.pointId → a.sample.timestamp ≤ b.sample.timestamp)

/-- No sample is taken after the clock was seen past its window at an earlier sample of the window. -/
def Prompt (l : List (Arrival K)) : Prop :=
  l.Pairwise (fun a b => a.sample.pointId = b.sample.pointId → a.window = b.window → a.clockWindow ≤ b.window)

end Streams

/-- What is asked of the records of a run: one for each point and window at most, made of all
samples of the window with none to come, and no flush that breaks a primary key. -/
structure UniqueAndFinal (dataDir : String) (cal : Calendar) (events : List (HistoryEvent K)) : Prop where
  unique : ((outputs (historyStep dataDir cal) {} events).map DownSampledSample.key).Nodup
  final : ∀ before after, stream events = before ++ after →
    ∀ r ∈ outputs (consumeSample dataDir) {} before,
      r = DownSampler.summary r.pointId r.timestamp (readings r.pointId r.timestamp (stream events)) ∧
        readings r.pointId r.timestamp after = []
  intact : ∀ v ∈ visits (historyStep dataDir cal) {} events, ∀ conditions, v.2 = .flushTick conditions →
    ∀ month name, ¬ViolatesPrimaryKey (v.1.db month name) (L2HistoryStore.rowsOf cal v.1.l2.writeBuffer month)

section Account
variable {seen : List (Arrival K)} {a : Arrival K} {ds : DownSampler K} {handed : List (DownSampledSample K)}
  {p : UInt32} {win : Nat}

theorem readings_concat : readings p win (seen ++ [a]) =
    if a.sample.pointId = p ∧ a.window = win then readings p win seen ++ [a.sample.value] else readings p win seen := by
  unfold readings
  rw [List.filter_append, List.map_append]
  split
  · rename_i mine
    rw [List.filter_cons_of_pos (by simpa using mine)]
    rfl
  · rename_i other
    rw [List.filter_cons_of_neg (by simpa using other), List.filter_nil, List.map_nil, List.append_nil]

theorem readings_ne_nil : readings p win seen ≠ [] ↔ ∃ b ∈ seen, b.sample.pointId = p ∧ b.window = win := by
  simp only [readings, ne_eq, List.map_eq_nil_iff, List.filter_eq_nil_iff, decide_eq_true_eq, not_forall,
    not_not, exists_prop]

theorem readings_append (l l' : List (Arrival K)) :
    readings p win (l ++ l') = readings p win l ++ readings p win l' := by
  rw [readings, List.filter_append, List.map_append]
  rfl

/-- Where the samples taken so far are: in the open windows and in the records handed over. -/
structure Account (seen : List (Arrival K)) (ds : DownSampler K) (handed : List (DownSampledSample K)) : Prop where
  opened : ∀ p win b, (ds.buckets p).lookup win = some b →
    readings p win seen ≠ [] ∧ b = DownSampler.bucketOf win (readings p win seen)
  record : ∀ r ∈ handed, r = DownSampler.summary r.pointId r.timestamp (readings r.pointId r.timestamp seen)
  apart : ∀ r ∈ handed, (ds.buckets r.pointId).lookup r.timestamp = none
  unique : (handed.map DownSampledSample.key).Nodup
  covered : ∀ a ∈ seen, (ds.buckets a.sample.pointId).lookup a.window = none →
    (a.sample.pointId, a.window) ∈ handed.map DownSampledSample.key
  closed : ∀ r ∈ handed, ∃ a ∈ seen, a.sample.pointId = r.pointId ∧ r.timestamp ≤ a.window ∧
    r.timestamp < a.clockWindow

/-- A record that names a window names its samples. -/
theorem key_ne_iff {r : DownSampledSample K} :
    r.key ≠ (a.sample.pointId, a.window) ↔ ¬(a.sample.pointId = r.pointId ∧ a.window = r.timestamp) := by
  rw [DownSampledSample.key, ne_eq, Prod.mk.injEq, eq_comm (a := r.pointId), eq_comm (a := r.timestamp)]

/-- The open bucket of a window that was not handed over has all its samples so far. -/
theorem Account.accumulated (account : Account seen ds handed)
    (fresh : (a.sample.pointId, a.window) ∉ handed.map DownSampledSample.key) :
    ((ds.buckets a.sample.pointId).lookup a.window).getD {} =
      DownSampler.bucketOf a.window (readings a.sample.pointId a.window seen) := by
  cases old : (ds.buckets a.sample.pointId).lookup a.window with
  | some before => exact (account.opened _ _ _ old).2
  | none =>
    have empty : readings a.sample.pointId a.window seen = [] := by
      by_contra filled
      obtain ⟨b, member, point, window⟩ := readings_ne_nil.mp filled
      rw [← point, ← window] at old fresh
      exact fresh (account.covered b member old)
    rw [empty]
    rfl

/-- Feeding a sample whose window has not been handed over. -/
theorem Account.feed (account : Account seen ds handed) (stamped : a.sample.timestamp ≠ 0)
    (fresh : (a.sample.pointId, a.window) ∉ handed.map DownSampledSample.key) :
    Account (seen ++ [a]) (ds.feed a.sample.pointId a.sample .gran1s) handed := by
  have other : ∀ r ∈ handed, ¬(a.sample.pointId = r.pointId ∧ a.window = r.timestamp) := by
    intro r member
    apply key_ne_iff.mp
    intro same
    exact fresh (same ▸ List.mem_map_of_mem member)
  refine ⟨?_, ?_, ?_, account.unique, ?_, ?_⟩
  · intro p win b found
    rw [DownSampler.lookup_feed stamped] at found
    rw [readings_concat]
    split at found
    · rename_i mine
      obtain ⟨rfl, rfl⟩ := mine
      rw [if_pos ⟨rfl, rfl⟩]
      refine ⟨by simp, ?_⟩
      change some (Bucket.add a.window _ _) = some b at found
      rw [DownSampler.bucketOf_concat, ← Option.some.inj found]
      congr 1
      exact account.accumulated fresh
    · rename_i apart
      have mine : ¬(a.sample.pointId = p ∧ a.window = win) := fun both => apart ⟨both.1.symm, both.2.symm⟩
      rw [if_neg mine]
      exact account.opened p win b found
  · intro r member
    rw [readings_concat, if_neg (other r member)]
    exact account.record r member
  · intro r member
    have apart : ¬(r.pointId = a.sample.pointId ∧ r.timestamp = DownSampler.alignToWindow a.sample.timestamp .gran1s) :=
      fun both => other r member ⟨both.1.symm, both.2.symm⟩
    rw [DownSampler.lookup_feed stamped, if_neg apart]
    exact account.apart r member
  · intro b member gone
    rw [DownSampler.lookup_feed stamped] at gone
    split at gone
    · cases gone
    · rename_i apart
      rcases List.mem_append.mp member with before | last
      · exact account.covered b before gone
      · rw [List.mem_singleton.mp last] at apart
        exact absurd ⟨rfl, rfl⟩ apart
  · intro r member
    obtain ⟨b, before, facts⟩ := account.closed r member
    exact ⟨b, List.mem_append_left _ before, facts⟩

/-- What a roll-up of the point of `a` hands over: closed windows, each with all its samples. -/
theorem Account.rolled (account : Account seen ds handed) {r : DownSampledSample K}
    (member : r ∈ (ds.rollUp a.order a.clock a.sample.pointId .gran1s 0).2) :
    r.pointId = a.sample.pointId ∧ r.timestamp < a.clockWindow ∧
      (ds.buckets r.pointId).lookup r.timestamp ≠ none ∧ readings r.pointId r.timestamp seen ≠ [] ∧
      r = DownSampler.summary r.pointId r.timestamp (readings r.pointId r.timestamp seen) := by
  obtain ⟨win, b, found, closed, rfl⟩ := DownSampler.mem_rollUp.mp member
  obtain ⟨filled, rfl⟩ := account.opened _ _ _ found
  rw [DownSampler.close_bucketOf filled]
  exact ⟨rfl, closed, by rw [DownSampler.summary, found]; exact Option.some_ne_none _, filled, rfl⟩

/-- Neither does a roll-up hand a window over twice nor one that was handed over before. -/
theorem Account.rolled_unique (account : Account seen ds handed) :
    ((handed ++ (ds.rollUp a.order a.clock a.sample.pointId .gran1s 0).2).map DownSampledSample.key).Nodup := by
  rw [List.map_append, List.nodup_append]
  refine ⟨account.unique, ?_, ?_⟩
  · have starts : ∀ win b, (ds.buckets a.sample.pointId).lookup win = some b → b.windowStart = win := by
      intro win b found
      obtain ⟨filled, rfl⟩ := account.opened _ _ _ found
      exact DownSampler.windowStart_bucketOf filled
    have stamps := DownSampler.nodup_rollUp a.order a.clock 0 .gran1s starts
    apply List.Nodup.of_map Prod.snd
    rw [List.map_map]
    exact stamps
  · intro k before k' new same
    subst same
    obtain ⟨r, member, rfl⟩ := List.mem_map.mp before
    obtain ⟨r', member', same⟩ := List.mem_map.mp new
    obtain ⟨point, stamp⟩ := Prod.mk.inj same
    have there := (account.rolled member').2.2.1
    rw [point, stamp] at there
    exact there (account.apart r member)

/-- Rolling up the point of a sample that is the latest of its point. -/
theorem Account.rollUp (account : Account seen ds handed) (present : a ∈ seen)
    (latest : ∀ b ∈ seen, b.sample.pointId = a.sample.pointId → b.window ≤ a.window) :
    Account seen (ds.rollUp a.order a.clock a.sample.pointId .gran1s 0).1
      (handed ++ (ds.rollUp a.order a.clock a.sample.pointId .gran1s 0).2) := by
  refine ⟨?_, ?_, ?_, account.rolled_unique, ?_, ?_⟩
  · intro p win b found
    rw [DownSampler.lookup_rollUp] at found
    split at found
    · cases found
    · exact account.opened p win b found
  · intro r member
    rcases List.mem_append.mp member with before | new
    · exact account.record r before
    · exact (account.rolled new).2.2.2.2
  · intro r member
    rw [DownSampler.lookup_rollUp]
    rcases List.mem_append.mp member with before | new
    · rw [account.apart r before, ite_self]
    · exact if_pos ⟨(account.rolled new).1, (account.rolled new).2.1⟩
  · intro b member gone
    rw [DownSampler.lookup_rollUp] at gone
    rw [List.map_append, List.mem_append]
    cases old : (ds.buckets b.sample.pointId).lookup b.window with
    | none => exact Or.inl (account.covered b member old)
    | some bucket =>
      right
      split at gone
      · rename_i closed
        have filled := (account.opened _ _ _ old).1
        refine List.mem_map.mpr ⟨bucket.close a.sample.pointId, DownSampler.mem_rollUp.mpr
          ⟨b.window, bucket, closed.1 ▸ old, closed.2, rfl⟩, ?_⟩
        rw [(account.opened _ _ _ old).2, DownSampler.close_bucketOf filled, closed.1]
        rfl
      · rw [old] at gone
        cases gone
  · intro r member
    rcases List.mem_append.mp member with before | new
    · exact account.closed r before
    · obtain ⟨point, past, -, filled, -⟩ := account.rolled new
      obtain ⟨b, there, mine, window⟩ := readings_ne_nil.mp filled
      exact ⟨a, present, point.symm, window ▸ latest b there (mine.trans point), past⟩

theorem window_mono {b : Arrival K} (ordered : a.sample.timestamp ≤ b.sample.timestamp) : a.window ≤ b.window :=
  DownSampler.alignToWindow_mono ordered

/-- A window that was handed over has no sample behind, in a steady and prompt stream. -/
theorem Account.no_more (account : Account seen ds handed) {after : List (Arrival K)}
    (steady : Steady (seen ++ after)) (prompt : Prompt (seen ++ after)) (late : a ∈ after) :
    (a.sample.pointId, a.window) ∉ handed.map DownSampledSample.key := by
  intro member
  obtain ⟨r, given, same⟩ := List.mem_map.mp member
  obtain ⟨point, stamp⟩ := Prod.mk.inj same
  obtain ⟨b, before, mine, behind, past⟩ := account.closed r given
  have own : b.sample.pointId = a.sample.pointId := mine.trans point
  have order := (List.pairwise_append.mp steady.ordered).2.2 b before a late own
  have equal : b.window = a.window := le_antisymm (window_mono order) (stamp.symm.le.trans behind)
  have reached := (List.pairwise_append.mp prompt).2.2 b before a late own equal
  omega

/-- In a steady and prompt stream the account is right after every sample. -/
theorem account_of_prompt (l : List (Arrival K)) (steady : Steady l) (prompt : Prompt l) :
    Account l (run downSample {} l) (outputs downSample {} l) := by
  induction l using List.reverseRecOn with
  | nil =>
    rw [run, outputs]
    refine ⟨fun p win b found => ?_, by simp, by simp, List.nodup_nil, by simp, by simp⟩
    rw [DownSampler.lookup_fresh] at found
    cases found
  | append_singleton l a ih =>
    have parts := List.pairwise_append.mp steady.ordered
    have before : Steady l := ⟨fun b member => steady.stamped b (List.mem_append_left _ member), parts.1⟩
    have account := ih before (List.pairwise_append.mp prompt).1
    have stamped := steady.stamped a (List.mem_append_right _ (List.mem_singleton_self a))
    have fed := account.feed stamped (account.no_more steady prompt (List.mem_singleton_self a))
    have latest : ∀ b ∈ l ++ [a], b.sample.pointId = a.sample.pointId → b.window ≤ a.window := by
      intro b member own
      rcases List.mem_append.mp member with old | last
      · exact window_mono (parts.2.2 b old a (List.mem_singleton_self a) own)
      · rw [List.mem_singleton.mp last]
    rw [run_concat, outputs_concat]
    exact fed.rollUp (List.mem_append_right _ (List.mem_singleton_self a)) latest

end Account

section Wiring
variable {dataDir : String} {cal : Calendar} {w : HistoryPath K} {events : List (HistoryEvent K)}

/-- With a data directory the loop down-samples every sample it takes. -/
theorem run_consumeSample (recording : dataDir ≠ "") (l : List (Arrival K)) :
    (run (consumeSample dataDir) w l).ds = run downSample w.ds l ∧
      outputs (consumeSample dataDir) w l = outputs downSample w.ds l := by
  induction l generalizing w with
  | nil => exact ⟨rfl, rfl⟩
  | cons a l ih =>
    have one : (consumeSample dataDir w a).1.ds = (downSample w.ds a).1 ∧
        (consumeSample dataDir w a).2 = (downSample w.ds a).2 := by
      simp only [consumeSample, if_neg recording, and_self]
    have rest := ih (w := (consumeSample dataDir w a).1)
    rw [one.1] at rest
    simp only [run, outputs, one.2, rest, and_self]

theorem run_historyStep (recording : dataDir ≠ "") :
    (run (historyStep dataDir cal) w events).ds = run downSample w.ds (stream events) ∧
      outputs (historyStep dataDir cal) w events = outputs downSample w.ds (stream events) := by
  induction events generalizing w with
  | nil => exact ⟨rfl, rfl⟩
  | cons event events ih =>
    have one : (historyStep dataDir cal w event).1.ds = run downSample w.ds event.batch ∧
        (historyStep dataDir cal w event).2 = outputs downSample w.ds event.batch := by
      cases event with
      | consumeTick batch => exact run_consumeSample recording batch
      | flushTick conditions => exact ⟨rfl, rfl⟩
    have rest := ih (w := (historyStep dataDir cal w event).1)
    rw [one.1] at rest
    rw [run, outputs, stream, List.flatMap_cons, run_append, outputs_append, one.2, rest.1, rest.2]
    exact ⟨rfl, rfl⟩

/-- Without one it takes samples and does nothing. -/
theorem run_idle (l : List (Arrival K)) :
    run (consumeSample "") w l = w ∧ outputs (consumeSample "") w l = [] := by
  induction l with
  | nil => exact ⟨rfl, rfl⟩
  | cons a l ih =>
    have one : consumeSample "" w a = (w, []) := if_pos rfl
    rw [run, outputs, one]
    exact ⟨ih.1, ih.2⟩

theorem outputs_idle (off : dataDir = "") : outputs (historyStep dataDir cal) w events = [] := by
  subst off
  induction events generalizing w with
  | nil => rfl
  | cons event events ih =>
    rw [outputs, ih, List.append_nil]
    cases event with
    | consumeTick batch => exact (run_idle batch).2
    | flushTick conditions => rfl

/-- What was handed over is what was written or dropped and then what is still in the buffer. -/
def Stored (handed : List (DownSampledSample K)) (w : HistoryPath K) : Prop :=
  ∃ older, handed = older ++ w.l2.writeBuffer ∧
    ∀ month name k row, w.db month name k = some row → k ∈ older.map DownSampledSample.key

theorem Stored.enqueue {handed : List (DownSampledSample K)} (stored : Stored handed w)
    (rolled : List (DownSampledSample K)) :
    Stored (handed ++ rolled) { w with l2 := rolled.foldl L2HistoryStore.enqueueSample w.l2 } := by
  induction rolled using List.reverseRecOn with
  | nil => simpa using stored
  | append_singleton rolled r ih =>
    obtain ⟨older, all, rows⟩ := ih
    rw [List.foldl_concat]
    obtain ⟨gone, parts⟩ := L2HistoryStore.enqueueSample_suffix
      (rolled.foldl L2HistoryStore.enqueueSample w.l2) r
    refine ⟨older ++ gone, ?_, fun month name k row present => ?_⟩
    · rw [← List.append_assoc, all, List.append_assoc, List.append_assoc, parts]
    · rw [List.map_append]
      exact List.mem_append_left _ (rows month name k row present)

theorem Stored.sample {handed : List (DownSampledSample K)} (stored : Stored handed w) (a : Arrival K) :
    Stored (handed ++ (consumeSample dataDir w a).2) (consumeSample dataDir w a).1 := by
  by_cases idle : dataDir = ""
  · rw [consumeSample, if_pos idle, List.append_nil]
    exact stored
  · obtain ⟨older, all, rows⟩ := stored
    have next : Stored handed { w with ds := (downSample w.ds a).1 } := ⟨older, all, rows⟩
    simp only [consumeSample, if_neg idle]
    exact next.enqueue _

theorem Stored.consume {handed : List (DownSampledSample K)} (stored : Stored handed w) (l : List (Arrival K)) :
    Stored (handed ++ outputs (consumeSample dataDir) w l) (run (consumeSample dataDir) w l) := by
  apply history_always (consumeSample dataDir) l (I := fun w out => Stored (handed ++ out) w)
  · simpa using stored
  · intro w out a stored
    rw [← List.append_assoc]
    exact stored.sample a

theorem Stored.flush {handed : List (DownSampledSample K)} (stored : Stored handed w)
    (conditions : FlushConditions) : Stored handed (onFlushTick cal w conditions) := by
  obtain ⟨older, all, rows⟩ := stored
  refine ⟨handed, ?_, fun month name k row present => ?_⟩
  · change handed = handed ++ (w.l2.flush cal conditions w.db).1.writeBuffer
    rw [L2HistoryStore.flush_writeBuffer, List.append_nil]
  · rw [all, List.map_append, List.mem_append]
    exact (L2HistoryStore.flush_rows present).imp_left (rows month name k row)

theorem stored_run (dataDir : String) (cal : Calendar) (events : List (HistoryEvent K)) :
    Stored (outputs (historyStep dataDir cal) {} events) (run (historyStep dataDir cal) {} events) := by
  apply history_always (historyStep dataDir cal) events (I := fun w out => Stored out w)
  · exact ⟨[], rfl, fun month name k row present => by cases present⟩
  · intro w handed event stored
    cases event with
    | consumeTick batch => exact stored.consume batch
    | flushTick conditions => exact (List.append_nil _).symm ▸ stored.flush conditions

/-- Distinct records never meet the primary key, whatever the flushes meet. -/
theorem intact_of_unique (unique : ((outputs (historyStep dataDir cal) {} events).map DownSampledSample.key).Nodup)
    {v : HistoryPath K × HistoryEvent K} (visited : v ∈ visits (historyStep dataDir cal) {} events)
    (month : String) (name : TableName) :
    ¬ViolatesPrimaryKey (v.1.db month name) (L2HistoryStore.rowsOf cal v.1.l2.writeBuffer month) := by
  obtain ⟨before, ⟨after, rfl⟩, reached⟩ := mem_reached_iff.mp (visit_mem_reached visited).1
  obtain ⟨older, all, rows⟩ := stored_run dataDir cal before
  rw [← reached] at all rows
  rw [outputs_append, all, List.append_assoc, List.map_append, List.map_append, List.nodup_append,
    List.nodup_append] at unique
  obtain ⟨-, ⟨pending, -, -⟩, apart⟩ := unique
  have rest : (L2HistoryStore.rowsOf cal v.1.l2.writeBuffer month).Sublist v.1.l2.writeBuffer :=
    List.filter_sublist
  rw [ViolatesPrimaryKey, not_not]
  refine ⟨pending.sublist (rest.map _), fun r member => ?_⟩
  cases taken : v.1.db month name r.key with
  | none => rfl
  | some row =>
    exact absurd rfl (apart _ (rows month name _ row taken) r.key
      (List.mem_append_left _ (List.mem_map_of_mem (rest.subset member))))

end Wiring

section Exact
variable {l : List (Arrival K)} {dataDir : String} {cal : Calendar} {events : List (HistoryEvent K)}

/-- Every open window knows its start. -/
def Dated (ds : DownSampler K) : Prop :=
  ∀ p win b, (ds.buckets p).lookup win = some b → b.windowStart = win

theorem Dated.feed {ds : DownSampler K} (dated : Dated ds) (s : Sample K) :
    Dated (ds.feed s.pointId s .gran1s) := by
  intro p win b found
  by_cases stamped : s.timestamp = 0
  · rw [DownSampler.feed, if_pos stamped] at found
    exact dated p win b found
  · rw [DownSampler.lookup_feed stamped] at found
    split at found
    · obtain rfl := Option.some.inj found
      cases old : (ds.buckets p).lookup win with
      | none => rfl
      | some before =>
        simp only [Option.getD_some, Bucket.add, dated p win before old, ite_self]
    · exact dated p win b found

theorem dated_run : Dated (run downSample ({} : DownSampler K) l) := by
  induction l using List.reverseRecOn with
  | nil =>
    intro p win b found
    rw [run, DownSampler.lookup_fresh] at found
    cases found
  | append_singleton l a ih =>
    rw [run_concat]
    intro p win b found
    rw [downSample, DownSampler.lookup_rollUp] at found
    split at found
    · cases found
    · exact ih.feed a.sample p win b found

/-- A sample that comes when the clock is past its window is rolled up at once. -/
theorem rolled_at_once {a : Arrival K} {ds : DownSampler K} (dated : Dated ds) (stamped : a.sample.timestamp ≠ 0)
    (past : a.window < a.clockWindow) : ∃ r ∈ (downSample ds a).2, r.key = (a.sample.pointId, a.window) := by
  have found : ((ds.feed a.sample.pointId a.sample .gran1s).buckets a.sample.pointId).lookup a.window = some _ :=
    (DownSampler.lookup_feed stamped).trans (if_pos ⟨rfl, rfl⟩)
  refine ⟨_, DownSampler.mem_rollUp.mpr ⟨a.window, _, found, past, rfl⟩, ?_⟩
  exact congrArg (Prod.mk _) (dated.feed a.sample _ _ _ found)

/-- A relation of every item to those behind it holds of the pairs of a list. -/
theorem pairwise_of_split {α : Type*} {R : α → α → Prop} {l : List α}
    (behind : ∀ before a after, l = before ++ a :: after → ∀ b ∈ after, R a b) : l.Pairwise R := by
  induction l with
  | nil => exact List.Pairwise.nil
  | cons x l ih =>
    refine List.pairwise_cons.mpr ⟨behind [] x l rfl, ih fun before a after split => ?_⟩
    exact behind (x :: before) a after (congrArg (List.cons x) split)

section Law
variable {dataDir : String} {cal : Calendar} {events : List (HistoryEvent K)}

/-- A sample that comes behind the roll-up of its window misses in a record that was given. -/
theorem prompt_of_law (law : UniqueAndFinal dataDir cal events) (steady : Steady (stream events))
    (recording : dataDir ≠ "") : Prompt (stream events) := by
  refine pairwise_of_split fun before a after split b late own same => ?_
  by_contra past
  have stamped := steady.stamped a (by simp [split])
  obtain ⟨r, member, key⟩ := rolled_at_once (dated_run (l := before)) stamped (same.trans_lt (Nat.lt_of_not_le past))
  obtain ⟨point, stamp⟩ := Prod.mk.inj key
  have given : r ∈ outputs (consumeSample dataDir) {} (before ++ [a]) := by
    rw [(run_consumeSample recording _).2, outputs_concat]
    exact List.mem_append_right _ member
  have none := (law.final (before ++ [a]) after (by simp [split]) r given).2
  exact readings_ne_nil.mpr ⟨b, late, own.symm.trans point.symm, same.symm.trans stamp.symm⟩ none

theorem law_idle (idle : dataDir = "") : UniqueAndFinal dataDir cal events := by
  have nothing : outputs (historyStep dataDir cal) {} events = [] := outputs_idle idle
  have unique : ((outputs (historyStep dataDir cal) {} events).map DownSampledSample.key).Nodup := by
    rw [nothing]
    exact List.nodup_nil
  refine ⟨unique, fun before after _ r member => ?_, fun v visited _ _ => intact_of_unique unique visited⟩
  rw [idle, (run_idle before).2] at member
  cases member

/-- In a prompt stream the account that is kept of the records answers for all of them. -/
theorem law_of_prompt (steady : Steady (stream events)) (prompt : Prompt (stream events))
    (recording : dataDir ≠ "") : UniqueAndFinal dataDir cal events := by
  have account := account_of_prompt (stream events) steady prompt
  have unique : ((outputs (historyStep dataDir cal) {} events).map DownSampledSample.key).Nodup := by
    rw [(run_historyStep recording).2]
    exact account.unique
  refine ⟨unique, fun before after split r member => ?_, fun v visited _ _ => intact_of_unique unique visited⟩
  rw [(run_consumeSample recording before).2] at member
  rw [split] at steady prompt
  have parts := List.pairwise_append.mp steady.ordered
  have early := account_of_prompt before
    ⟨fun a member => steady.stamped a (List.mem_append_left _ member), parts.1⟩ (List.pairwise_append.mp prompt).1
  have none : readings r.pointId r.timestamp after = [] := by
    by_contra filled
    obtain ⟨b, late, point, window⟩ := readings_ne_nil.mp filled
    apply early.no_more steady prompt late
    rw [point, window]
    exact List.mem_map_of_mem member
  rw [split, readings_append, none, List.append_nil]
  exact ⟨early.record r member, rfl⟩

end Law

/-- Records are unique and final if and only if nothing is recorded or no sample is taken
after its window was rolled up. -/
theorem uniqueAndFinal_iff (dataDir : String) (cal : Calendar) (events : List (HistoryEvent K))
    (steady : Steady (stream events)) :
    UniqueAndFinal dataDir cal events ↔ dataDir = "" ∨ Prompt (stream events) := by
  constructor
  · intro law
    exact or_iff_not_imp_left.mpr (prompt_of_law law steady)
  · intro fine
    by_cases recording : dataDir = ""
    · exact law_idle recording
    · exact law_of_prompt steady (fine.resolve_left recording) recording

/-- Rational values with the two infinities. -/
instance : Reading (WithBot (WithTop ℚ)) where
  div
    | ((x : ℚ) : WithTop ℚ), ((y : ℚ) : WithTop ℚ) => ((x / y : ℚ) : WithTop ℚ)
    | x, _ => x
  infinity := ⊤
  negInfinity := ⊥
  isNaN _ := false
  decidableLT := inferInstance

section Samples

def january : Calendar := ⟨fun _ => "197001", fun _ => 1000⟩

def always : FlushConditions := ⟨fun _ => true, HashOrder.insertion String⟩

/-- A sample of point 7 and the clock that its roll-up shows. -/
def at7 (timestamp clock : Nat) (value : ℚ) : Arrival (WithBot (WithTop ℚ)) :=
  { sample := ⟨timestamp, 7, ((value : WithTop ℚ) : WithBot (WithTop ℚ))⟩, clock := clock }

def timely : List (HistoryEvent (WithBot (WithTop ℚ))) :=
  [.consumeTick [at7 1000 1040 5, at7 1500 1550 6], .flushTick always]

theorem uniqueAndFinal_iff_timely : Steady (stream timely) ∧
    (UniqueAndFinal "data" january timely ↔ "data" = "" ∨ Prompt (stream timely)) :=
  ⟨⟨by decide, by decide⟩, uniqueAndFinal_iff "data" january timely ⟨by decide, by decide⟩⟩

/-- Two samples of one second that the consumer takes in the next one. -/
def lagging : List (HistoryEvent (WithBot (WithTop ℚ))) :=
  [.consumeTick [at7 1000 2600 5, at7 1500 2600 6], .flushTick always]

/-- They give two records of one point and time, and the flush of both is rolled back. -/
theorem uniqueAndFinal_fails : Steady (stream lagging) ∧ ¬UniqueAndFinal "data" january lagging ∧
    (outputs (historyStep "data" january) {} lagging).map DownSampledSample.key = [(7, 1000), (7, 1000)] ∧
    ((run (historyStep "data" january) {} (lagging.take 1)).l2.flush january always fun _ _ _ => none).2.2 = false := by
  have twice : (outputs (historyStep "data" january) {} lagging).map DownSampledSample.key =
      [(7, 1000), (7, 1000)] := by decide +kernel
  refine ⟨⟨by decide, by decide⟩, fun law => ?_, twice, by decide +kernel⟩
  have unique := law.unique
  rw [twice] at unique
  exact absurd unique (by decide)

end Samples
end Exact
end EnerSentry.App
