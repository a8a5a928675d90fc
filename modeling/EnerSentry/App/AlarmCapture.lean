import EnerSentry.Business.AlarmTransitions
import EnerSentry.Datahub.BlackBoxWindow

/-!
The way of a critical alarm into the black box. A sample is written to the store first and
then shown to the alarm engine, and the black box is asked in the same call: it takes what
the store holds of the time around the alarm at that moment, and nothing takes the rest
later. The last result says for which alarms that is all of the window.
-/

namespace EnerSentry.Business.AlarmEngine
variable {K : Type*} [Zero K]

/-- A storm batch asks nothing of the black box. -/
theorem blackBox_flushed {e : AlarmEngine K} {nowMono : Int} {pointId : UInt32} {alarmTime : Nat}
    {level : AlarmLevel} : .blackBoxRequested pointId alarmTime level ∉ (e.onStormFlush nowMono).2 := by
  intro asked
  rcases onStormFlush_cases (e := e) nowMono with ⟨-, same⟩ | ⟨-, active, rest, last, same⟩
  · rw [same] at asked
    cases asked
  · rw [same, List.mem_cons] at asked
    rcases asked with batch | more
    · cases batch
    · rcases last with none | one
      · rw [none] at more
        cases more
      · rw [one, List.mem_singleton] at more
        cases more

variable [LT K] [DecidableLT K] [ToString K]

/-- An evaluation asks the black box for a critical alarm that it raises. -/
theorem blackBox_evaluated {e : AlarmEngine K} {pid : UInt32} {value : K} {nowMono : Int} {nowEpoch : Nat}
    {pointId : UInt32} {alarmTime : Nat} {level : AlarmLevel}
    (asked : .blackBoxRequested pointId alarmTime level ∈ (e.evaluate pid value nowMono nowEpoch).2) :
    level = .critical ∧ pointId = pid ∧ alarmTime = nowEpoch := by
  have told : (e.evaluate pid value nowMono nowEpoch).2 ≠ [] := List.ne_nil_of_mem asked
  cases evaluated (e := e) pid value nowMono nowEpoch with
  | ignored unwatched same quiet => exact absurd quiet told
  | waitsOn r watches on moves early quiet => exact absurd quiet.signals told
  | swallows r due window moves quiet => exact absurd quiet.signals told
  | waitsOff r watches on off early moves quiet => exact absurd quiet.signals told
  | calms r watches on off elapsed idle moves quiet => exact absurd quiet.signals told
  | between r watches on off moves quiet => exact absurd quiet.signals told
  | recovers r watches on off elapsed alarming moves alarmIdSeq queue gone =>
    rw [gone, List.mem_singleton] at asked
    cases asked
  | raises r due window moves alarmIdSeq queue published =>
    rw [published] at asked
    split at asked
    · cases asked
    · rw [publish, List.mem_cons] at asked
      rcases asked with other | own
      · cases other
      · split at own
        · rename_i critical
          obtain ⟨rfl, rfl, rfl⟩ := AlarmSignal.blackBoxRequested.inj (List.mem_singleton.mp own)
          exact ⟨critical, rfl, rfl⟩
        · cases own

variable [BEq K]

/-- Only a sample makes the engine ask for the black box, for its own point and at the time of the call. -/
theorem blackBox_asked {e : AlarmEngine K} {input : AlarmInput K} {pointId : UInt32} {alarmTime : Nat}
    {level : AlarmLevel} (asked : .blackBoxRequested pointId alarmTime level ∈ (e.step input).2) :
    level = .critical ∧ ∃ value nowMono, input = .dataUpdated pointId value nowMono alarmTime := by
  cases input with
  | dataUpdated pid value nowMono nowEpoch =>
    obtain ⟨critical, rfl, rfl⟩ := blackBox_evaluated (e := e) asked
    exact ⟨critical, value, nowMono, rfl⟩
  | reloadRules rules =>
    obtain ⟨id, -, other⟩ := List.mem_map.mp asked
    cases other
  | suppressPoint => cases asked
  | unsuppressPoint => cases asked
  | setStormConfig => cases asked
  | acknowledgeAlarm alarmId user =>
    rw [step, acknowledgeAlarm_signals, List.mem_singleton] at asked
    cases asked
  | acknowledgeAlarms ids user =>
    rw [step, acknowledgeAlarms_signals] at asked
    obtain ⟨id, -, other⟩ := List.mem_map.mp asked
    cases other
  | stormFlush nowMono => exact absurd asked blackBox_flushed

end EnerSentry.Business.AlarmEngine

namespace EnerSentry.App
open EnerSentry.Lib EnerSentry.Lib.Runs EnerSentry.Datahub EnerSentry.Business

section Model
variable (K T : Type*) [Zero K]

structure AlarmCapture where
  l1 : L1SnapshotStore T
  alarm : AlarmEngine K := {}
  bbx : BlackBox T

/-- An input of the alarm engine that brings no sample. -/
def isOperation {K : Type*} [Zero K] : AlarmInput K → Bool
  | .dataUpdated .. => false
  | _ => true

/-- What the main thread does: it takes a sample off the bridge, or operates the alarm engine. -/
inductive CaptureCall where
  | consume (pointId : UInt32) (s : T) (nowMono : Int)
  | operate (input : { i : AlarmInput K // isOperation i = true })

/-- A call and the wall clock at it. -/
structure CaptureEvent where
  nowEpoch : UInt64
  call : CaptureCall K T

end Model

variable {K T : Type*} [Zero K] (timestamp : T → UInt64) (value : T → K)

/-- The level as the black box knows it. -/
def blackBoxLevel : Business.AlarmLevel → Datahub.AlarmLevel
  | .info => .info
  | .warning => .warning
  | .critical => .critical

/-- The black box is asked for every critical alarm; the outputs are the snapshots, each with
whether the swap file took it. -/
def onSignal (l1 : L1SnapshotStore T) : Step (BlackBox T) (AlarmSignal K) (BlackBoxSnapshot T × Bool)
  | b, .blackBoxRequested pid ts lvl =>
      let (b, snap, kept) := b.triggerBlackBox timestamp (some l1) pid (UInt64.ofNat ts) (blackBoxLevel lvl)
      (b, [(snap, kept)])
  | b, _ => (b, [])

section Boxes
variable {timestamp} {b : BlackBox T} {l1 : L1SnapshotStore T} {snap : BlackBoxSnapshot T} {kept : Bool}

/-- A black box in order, with its swap file open. -/
structure Ready (b : BlackBox T) : Prop where
  written : BlackBox.Written b
  opened : BlackBox.Opened b

theorem Ready.triggerBlackBox (ready : Ready b) (pid : UInt32) (t : UInt64) (lvl : Datahub.AlarmLevel) :
    Ready (b.triggerBlackBox timestamp (some l1) pid t lvl).1 := by
  by_cases taken : lvl = .critical ∧ BlackBox.Takes b (BlackBox.snapshotOf timestamp (some l1) pid t lvl)
  · obtain ⟨rfl, takes⟩ := taken
    rw [BlackBox.triggerBlackBox_takes ready.written takes]
    exact ⟨ready.written.advance takes.1 _, _, rfl, rfl⟩
  · rw [not_and_or] at taken
    obtain ⟨triggers, result⟩ := BlackBox.triggerBlackBox_refuses taken
    rw [result]
    exact ⟨⟨ready.written.sound, ready.written.handle⟩, ready.opened⟩

theorem Ready.onSignal (ready : Ready b) (signal : AlarmSignal K) :
    Ready (onSignal timestamp l1 b signal).1 := by
  cases signal with
  | blackBoxRequested pid ts lvl => exact ready.triggerBlackBox pid _ _
  | _ => exact ready

theorem Ready.signals (ready : Ready b) (signals : List (AlarmSignal K)) :
    Ready (run (App.onSignal timestamp l1) b signals) := by
  induction signals generalizing b with
  | nil => exact ready
  | cons signal signals ih => exact ih (ready.onSignal signal)

/-- A snapshot answers a request, and the swap file takes that of a critical alarm if a slot does. -/
theorem Ready.answered (ready : Ready b) (signals : List (AlarmSignal K))
    (taken : (snap, kept) ∈ outputs (App.onSignal timestamp l1) b signals) :
    ∃ pid ts lvl, .blackBoxRequested pid ts lvl ∈ signals ∧
      snap = BlackBox.snapshotOf timestamp (some l1) pid (UInt64.ofNat ts) (blackBoxLevel lvl) ∧
      (lvl = .critical → kept = decide (snap.samples.length ≤ kMaxSamplesPerSnap)) := by
  induction signals generalizing b with
  | nil => cases taken
  | cons signal signals ih =>
    rw [outputs, List.mem_append] at taken
    rcases taken with now | later
    · cases signal with
      | blackBoxRequested pid ts lvl =>
        refine ⟨pid, ts, lvl, List.mem_cons_self, ?_⟩
        rw [App.onSignal, List.mem_singleton] at now
        have same := congrArg Prod.fst now
        have flag := congrArg Prod.snd now
        simp only at same flag
        by_cases taken : blackBoxLevel lvl = .critical ∧
            BlackBox.Takes b (BlackBox.snapshotOf timestamp (some l1) pid (UInt64.ofNat ts) (blackBoxLevel lvl))
        · obtain ⟨critical, takes⟩ := taken
          rw [critical] at takes same flag ⊢
          rw [BlackBox.triggerBlackBox_takes ready.written takes] at same flag
          refine ⟨same, fun _ => ?_⟩
          rw [flag, same]
          exact (decide_eq_true takes.2).symm
        · have refused := not_and_or.mp taken
          obtain ⟨triggers, result⟩ := BlackBox.triggerBlackBox_refuses refused
          rw [result] at same flag
          refine ⟨same, fun critical => ?_⟩
          rw [critical] at refused same
          have long := refused.resolve_left (not_not.mpr rfl)
          rw [flag, same]
          refine (decide_eq_false (fun fits => long ⟨ready.opened, fits⟩)).symm
      | _ => cases now
    · obtain ⟨pid, ts, lvl, member, rest⟩ := ih (ready.onSignal signal) later
      exact ⟨pid, ts, lvl, List.mem_cons_of_mem _ member, rest⟩

end Boxes

section Writes
variable (l1 : L1SnapshotStore T) (pid : UInt32)

/-- The sample of a point that a call takes. -/
def CaptureEvent.sampleOf (e : CaptureEvent K T) : Option T :=
  match e.call with
  | .consume p x _ => if p = pid then some x else none
  | .operate _ => none

/-- The samples of a point that some calls write to the store; those of an unregistered one are dropped. -/
def writtenTo (events : List (CaptureEvent K T)) : List T :=
  if (l1.lookup pid).isSome then events.filterMap (CaptureEvent.sampleOf pid) else []

/-- The slots of a point's buffer. -/
def slots : Nat := ((l1.lookup pid).map (fun rb => rb.capacity.1)).getD 0

end Writes

section Windows
/-- Whether a sample lies in the window of an alarm. -/
def Around (t : UInt64) (x : T) : Prop :=
  t.toNat ≤ (timestamp x).toNat + kPreWindowMs.toNat ∧ (timestamp x).toNat ≤ t.toNat + kPostWindowMs.toNat

instance (t : UInt64) : DecidablePred (Around timestamp t) := fun _ => inferInstanceAs (Decidable (_ ∧ _))

/-- The calls that come before the window of an alarm is over. -/
def untilOver (t : UInt64) (after : List (CaptureEvent K T)) : List (CaptureEvent K T) :=
  after.takeWhile (fun e => e.nowEpoch.toNat ≤ t.toNat + kPostWindowMs.toNat)

/-- The samples of an alarm's window that are written in some calls and not overwritten in them. -/
def due (l1 : L1SnapshotStore T) (events : List (CaptureEvent K T)) (snap : BlackBoxSnapshot T) : List T :=
  (RingBuffer.retained (slots l1 snap.pointId) (writtenTo l1 snap.pointId events)).filter
    (Around timestamp snap.alarmTime)

/-- A snapshot is kept and holds the samples of the whole window in their order, unless they are too many. -/
def Complete (l1 : L1SnapshotStore T) (before after : List (CaptureEvent K T)) (c : BlackBoxSnapshot T × Bool) :
    Prop :=
  (due timestamp l1 (before ++ untilOver c.1.alarmTime after) c.1).length ≤ kMaxSamplesPerSnap →
    c.2 = true ∧ (due timestamp l1 (before ++ untilOver c.1.alarmTime after) c.1).Sublist c.1.samples

def windowStart (t : UInt64) : UInt64 := if kPreWindowMs < t then t - kPreWindowMs else 0

/-- No sample of the window is written after the alarm, and what the scan collects of it, some
samples once for every lap of the buffer, fits into a slot of the swap file. -/
structure Calm (l1 : L1SnapshotStore T) (before after : List (CaptureEvent K T)) (snap : BlackBoxSnapshot T) :
    Prop where
  room : snap.alarmTime.toNat + kPostWindowMs.toNat < 2 ^ 64
  past : ∀ x ∈ RingBuffer.retained (slots l1 snap.pointId) (writtenTo l1 snap.pointId before),
    (timestamp x).toNat ≤ snap.alarmTime.toNat + kPostWindowMs.toNat
  quiet : ∀ x ∈ writtenTo l1 snap.pointId (untilOver snap.alarmTime after), ¬Around timestamp snap.alarmTime x
  few : (RingBuffer.collected timestamp (windowStart snap.alarmTime) (snap.alarmTime + kPostWindowMs)
    (slots l1 snap.pointId) (writtenTo l1 snap.pointId before)).length ≤ kMaxSamplesPerSnap

/-- A clock that does not go back and has room for one more window; a sample is stamped before it is
taken, and those of a point are taken in the order of their time stamps. -/
structure Clocked (events : List (CaptureEvent K T)) : Prop where
  forward : events.Pairwise (fun e f => e.nowEpoch ≤ f.nowEpoch)
  room : ∀ e ∈ events, e.nowEpoch.toNat + kPostWindowMs.toNat < 2 ^ 64
  stamped : ∀ e ∈ events, ∀ pid x, e.sampleOf pid = some x → timestamp x ≤ e.nowEpoch
  ordered : ∀ pid, ((events.filterMap (CaptureEvent.sampleOf pid)).map timestamp).Pairwise (· ≤ ·)

variable {timestamp} {value}

theorem toNat_windowStart (t : UInt64) : (windowStart t).toNat = t.toNat - kPreWindowMs.toNat := by
  unfold windowStart
  split
  · rename_i late
    rw [UInt64.toNat_sub_of_le _ _ (UInt64.le_of_lt late)]
  · rename_i early
    have bound := UInt64.le_iff_toNat_le.mp (UInt64.not_lt.mp early)
    rw [Nat.sub_eq_zero_of_le bound]
    rfl

theorem le_windowEnd_iff {t : UInt64} (room : t.toNat + kPostWindowMs.toNat < 2 ^ 64) (s : UInt64) :
    s ≤ t + kPostWindowMs ↔ s.toNat ≤ t.toNat + kPostWindowMs.toNat := by
  rw [UInt64.le_iff_toNat_le, UInt64.toNat_add, Nat.mod_eq_of_lt room]

theorem le_windowEnd {s t : UInt64} (room : t.toNat + kPostWindowMs.toNat < 2 ^ 64) (before : s ≤ t) :
    s ≤ t + kPostWindowMs :=
  (le_windowEnd_iff room s).mpr ((UInt64.le_iff_toNat_le.mp before).trans (Nat.le_add_right _ _))

theorem around_iff {t : UInt64} (room : t.toNat + kPostWindowMs.toNat < 2 ^ 64) (x : T) :
    Around timestamp t x ↔ windowStart t ≤ timestamp x ∧ timestamp x ≤ t + kPostWindowMs := by
  rw [Around, UInt64.le_iff_toNat_le, le_windowEnd_iff room, toNat_windowStart]
  omega

theorem windowStart_le {t : UInt64} (room : t.toNat + kPostWindowMs.toNat < 2 ^ 64) :
    windowStart t ≤ t + kPostWindowMs := by
  apply le_windowEnd room
  rw [UInt64.le_iff_toNat_le, toNat_windowStart]
  exact Nat.sub_le _ _

theorem filter_around {t : UInt64} (room : t.toNat + kPostWindowMs.toNat < 2 ^ 64) (l : List T) :
    l.filter (Around timestamp t) = RingBuffer.inWindow timestamp (windowStart t) (t + kPostWindowMs) l := by
  apply List.filter_congr
  intro x _
  exact decide_eq_decide.mpr (around_iff room x)

theorem writtenTo_append (l1 : L1SnapshotStore T) (pid : UInt32) (a b : List (CaptureEvent K T)) :
    writtenTo l1 pid (a ++ b) = writtenTo l1 pid a ++ writtenTo l1 pid b := by
  unfold writtenTo
  split
  · exact List.filterMap_append
  · rfl

variable {e : CaptureEvent K T} {before after : List (CaptureEvent K T)}

theorem clocked_after (clocked : Clocked timestamp (before ++ e :: after)) {x : T} {l1 : L1SnapshotStore T}
    {pid : UInt32} :
    (x ∈ writtenTo l1 pid (before ++ [e]) → timestamp x ≤ e.nowEpoch) ∧
      (x ∈ writtenTo l1 pid (untilOver e.nowEpoch after) →
        timestamp x ≤ e.nowEpoch + kPostWindowMs) := by
  have taken : ∀ events : List (CaptureEvent K T), x ∈ writtenTo l1 pid events →
      ∃ f ∈ events, f.sampleOf pid = some x := by
    intro events member
    unfold writtenTo at member
    split at member
    · exact List.mem_filterMap.mp member
    · cases member
  have room := clocked.room e (List.mem_append_right _ List.mem_cons_self)
  constructor
  · intro member
    obtain ⟨f, place, own⟩ := taken _ member
    rcases List.mem_append.mp place with earlier | now
    · have order := (List.pairwise_append.mp clocked.forward).2.2 f earlier e List.mem_cons_self
      exact UInt64.le_trans (clocked.stamped f (List.mem_append_left _ earlier) pid x own) order
    · rw [List.mem_singleton] at now
      rw [now] at own
      exact clocked.stamped e (List.mem_append_right _ List.mem_cons_self) pid x own
  · intro member
    obtain ⟨f, place, own⟩ := taken _ member
    have inside := List.mem_takeWhile_imp place
    have later := (List.takeWhile_sublist _).subset place
    have stamped := clocked.stamped f (List.mem_append_right _ (List.mem_cons_of_mem _ later)) pid x own
    apply UInt64.le_trans stamped
    exact (le_windowEnd_iff room f.nowEpoch).mpr (of_decide_eq_true inside)

theorem ordered_after (clocked : Clocked timestamp (before ++ e :: after)) {l1 : L1SnapshotStore T} {pid : UInt32}
    (t : UInt64) : ((writtenTo l1 pid (untilOver t after)).map timestamp).Pairwise (· ≤ ·) := by
  unfold writtenTo
  split
  · refine List.Pairwise.sublist ?_ (clocked.ordered pid)
    apply List.Sublist.map
    apply List.Sublist.filterMap
    exact (List.takeWhile_sublist _).trans ((List.sublist_cons_self _ _).trans (List.sublist_append_right _ _))
  · exact List.Pairwise.nil

/-- What is written up to the end of a window is written once if everything is. -/
theorem nodup_untilOver {l1 : L1SnapshotStore T} {pid : UInt32}
    (distinct : (writtenTo l1 pid (before ++ e :: after)).Nodup) (t : UInt64) :
    (writtenTo l1 pid (before ++ [e]) ++ writtenTo l1 pid (untilOver t after)).Nodup := by
  rw [List.append_cons, writtenTo_append] at distinct
  refine distinct.sublist ?_
  apply List.Sublist.append_left
  unfold writtenTo
  split
  · exact (List.takeWhile_sublist _).filterMap _
  · exact List.Sublist.refl _

end Windows

variable [LT K] [DecidableLT K] [BEq K] [ToString K]

/-- An input of the alarm engine with the signals it causes. -/
def operate (s : AlarmCapture K T) (input : AlarmInput K) : AlarmCapture K T × List (BlackBoxSnapshot T × Bool) :=
  let (alarm, signals) := s.alarm.step input
  ({ s with alarm := alarm, bbx := run (onSignal timestamp s.l1) s.bbx signals },
    outputs (onSignal timestamp s.l1) s.bbx signals)

def captureStep : Step (AlarmCapture K T) (CaptureEvent K T) (BlackBoxSnapshot T × Bool) := fun s e =>
  match e.call with
  | .consume pid x nowMono =>
      operate timestamp { s with l1 := s.l1.write pid x } (.dataUpdated pid (value x) nowMono e.nowEpoch.toNat)
  | .operate input => operate timestamp s input.1

section Stores
variable {timestamp} {value} {s : AlarmCapture K T}

theorem lookup_step (e : CaptureEvent K T) (pid : UInt32) :
    (captureStep timestamp value s e).1.l1.lookup pid =
      (s.l1.lookup pid).map (fun rb => (e.sampleOf pid).toList.foldl RingBuffer.push rb) := by
  obtain ⟨nowEpoch, call⟩ := e
  cases call with
  | consume p x nowMono =>
    change (s.l1.write p x).lookup pid = _
    rw [L1SnapshotStore.lookup_write]
    by_cases same : pid = p
    · simp only [CaptureEvent.sampleOf, same, ↓reduceIte]
      rfl
    · simp only [if_neg same, CaptureEvent.sampleOf, if_neg (Ne.symm same)]
      exact Option.map_id'.symm
  | operate input => exact Option.map_id'.symm

theorem lookup_run (events : List (CaptureEvent K T)) (pid : UInt32) :
    (run (captureStep timestamp value) s events).l1.lookup pid =
      (s.l1.lookup pid).map
        (fun rb => (events.filterMap (CaptureEvent.sampleOf pid)).foldl RingBuffer.push rb) := by
  induction events generalizing s with
  | nil => exact Option.map_id'.symm
  | cons e events ih =>
    rw [run, ih, lookup_step, Option.map_map]
    congr 1
    funext rb
    cases mine : e.sampleOf pid <;> simp [mine]

theorem ready_run (ready : Ready s.bbx) (events : List (CaptureEvent K T)) :
    Ready (run (captureStep timestamp value) s events).bbx := by
  apply reached_always (captureStep timestamp value) events (I := fun s => Ready s.bbx) ready _ _ run_mem_reached
  intro s e ready
  unfold captureStep
  cases e.call with
  | consume p x nowMono => exact ready.signals _
  | operate input => exact ready.signals _

end Stores

section Completeness
variable {timestamp} {value} {s : AlarmCapture K T} {e : CaptureEvent K T} {c : BlackBoxSnapshot T × Bool}

/-- A snapshot is that of the sample which the alarm engine was shown. -/
theorem operated {input : AlarmInput K} (ready : Ready s.bbx) (taken : c ∈ (operate timestamp s input).2) :
    ∃ v nowMono ts, input = .dataUpdated c.1.pointId v nowMono ts ∧
      c.1 = BlackBox.snapshotOf timestamp (some s.l1) c.1.pointId (UInt64.ofNat ts) .critical ∧
      c.2 = decide (c.1.samples.length ≤ kMaxSamplesPerSnap) := by
  obtain ⟨snap, kept⟩ := c
  obtain ⟨pid, ts, lvl, asked, rfl, flag⟩ := Ready.answered ready (s.alarm.step input).2 taken
  obtain ⟨rfl, v, m, same⟩ := AlarmEngine.blackBox_asked asked
  exact ⟨v, m, ts, same, rfl, flag rfl⟩

/-- A snapshot is that of a sample just written, at the time of the call. -/
theorem captured (ready : Ready s.bbx) (taken : c ∈ (captureStep timestamp value s e).2) :
    (∃ x nowMono, e.call = .consume c.1.pointId x nowMono) ∧ c.1.alarmTime = e.nowEpoch ∧
      c.1.samples = (captureStep timestamp value s e).1.l1.extractRange timestamp c.1.pointId
        (windowStart e.nowEpoch) (e.nowEpoch + kPostWindowMs) kMaxSamples ∧
      c.2 = decide (c.1.samples.length ≤ kMaxSamplesPerSnap) := by
  obtain ⟨nowEpoch, call⟩ := e
  cases call with
  | consume p x nowMono =>
    have shown : c ∈ (operate timestamp { s with l1 := s.l1.write p x }
      (.dataUpdated p (value x) nowMono nowEpoch.toNat)).2 := taken
    obtain ⟨v, m, ts, same, snap, flag⟩ :=
      operated (s := { s with l1 := s.l1.write p x }) ready shown
    obtain ⟨rfl, -, -, rfl⟩ := AlarmInput.dataUpdated.inj same
    have clock : UInt64.ofNat nowEpoch.toNat = nowEpoch := UInt64.ofNat_toNat
    rw [clock] at snap
    exact ⟨⟨x, nowMono, rfl⟩, congrArg BlackBoxSnapshot.alarmTime snap, congrArg BlackBoxSnapshot.samples snap, flag⟩
  | operate input =>
    have shown : c ∈ (operate timestamp s input.1).2 := taken
    obtain ⟨v, m, ts, same, -, -⟩ := operated ready shown
    have operation := input.2
    rw [same] at operation
    cases operation

theorem capacity_foldl (rb : RingBuffer T) (items : List T) :
    (items.foldl RingBuffer.push rb).capacity = rb.capacity := by
  rw [← RingBuffer.pushBatch_eq_foldl]
  exact RingBuffer.capacity_step rb (.pushBatch items)

/-- What a run leaves in the store: the buffer of a registered point holds what was written. -/
theorem stores_writtenTo (timestamp : T → UInt64) (value : T → K) {pid : UInt32} {rb : RingBuffer T}
    (found : s.l1.lookup pid = some rb) (empty : rb.Stores []) (events : List (CaptureEvent K T)) :
    ∃ after, (run (captureStep timestamp value) s events).l1.lookup pid = some after ∧
      after.Stores (writtenTo s.l1 pid events) ∧ slots s.l1 pid = after.capacity.1 := by
  refine ⟨_, by rw [lookup_run, found]; rfl, ?_, ?_⟩
  · rw [writtenTo, found]
    exact empty.foldl _
  · rw [slots, found, capacity_foldl]
    rfl

section Alarm
variable {start : AlarmCapture K T} {before after : List (CaptureEvent K T)}

/-- Nothing of an unregistered point is written, so nothing is missing. -/
theorem complete_unregistered (ready : Ready start.bbx)
    (taken : c ∈ (captureStep timestamp value (run (captureStep timestamp value) start before) e).2)
    (none : start.l1.lookup c.1.pointId = none) :
    Complete timestamp start.l1 (before ++ [e]) after c ∧
      (Clocked timestamp (before ++ e :: after) → Calm timestamp start.l1 (before ++ [e]) after c.1) := by
  obtain ⟨-, clock, samples, flag⟩ := captured (ready_run ready before) taken
  have unwritten : ∀ events : List (CaptureEvent K T), writtenTo start.l1 c.1.pointId events = [] := by
    intro events
    rw [writtenTo, none]
    rfl
  have nothing : RingBuffer.retained (slots start.l1 c.1.pointId) ([] : List T) = [] := List.drop_nil
  constructor
  · intro _
    have empty : c.1.samples = [] := by
      rw [samples, L1SnapshotStore.extractRange, ← run_concat, lookup_run, none]
      rfl
    rw [empty, List.length_nil] at flag
    refine ⟨flag.trans (by decide), ?_⟩
    rw [due, unwritten, nothing, List.filter_nil]
    exact List.nil_sublist _
  · intro clocked
    refine ⟨?_, ?_, ?_, ?_⟩
    · rw [clock]
      exact clocked.room e (List.mem_append_right _ List.mem_cons_self)
    · rw [unwritten, nothing]
      exact fun x member => absurd member List.not_mem_nil
    · rw [unwritten]
      exact fun x member => absurd member List.not_mem_nil
    · rw [unwritten]
      simp [RingBuffer.collected, RingBuffer.newest, RingBuffer.inWindow]

/-- What the buffer of the alarm's point holds at the alarm, and what is taken out of it. -/
theorem taken_from (empty : ∀ pid rb, start.l1.lookup pid = some rb → rb.Stores []) (ready : Ready start.bbx)
    (taken : c ∈ (captureStep timestamp value (run (captureStep timestamp value) start before) e).2)
    {rb : RingBuffer T} (found : start.l1.lookup c.1.pointId = some rb) :
    ∃ ring : RingBuffer T, ring.Stores (writtenTo start.l1 c.1.pointId (before ++ [e])) ∧
      slots start.l1 c.1.pointId = ring.capacity.1 ∧
      c.1.samples = ring.extractRange timestamp (windowStart c.1.alarmTime) (c.1.alarmTime + kPostWindowMs)
        kMaxSamples := by
  obtain ⟨-, clock, samples, -⟩ := captured (ready_run ready before) taken
  obtain ⟨ring, present, stores, size⟩ := stores_writtenTo timestamp value found (empty _ _ found) (before ++ [e])
  refine ⟨ring, stores, size, ?_⟩
  rw [samples, L1SnapshotStore.extractRange, ← run_concat, present, clock]

theorem complete_of_calm (empty : ∀ pid rb, start.l1.lookup pid = some rb → rb.Stores []) (ready : Ready start.bbx)
    (taken : c ∈ (captureStep timestamp value (run (captureStep timestamp value) start before) e).2)
    {rb : RingBuffer T} (found : start.l1.lookup c.1.pointId = some rb)
    (calm : Calm timestamp start.l1 (before ++ [e]) after c.1) :
    Complete timestamp start.l1 (before ++ [e]) after c := by
  obtain ⟨-, -, -, flag⟩ := captured (ready_run ready before) taken
  obtain ⟨ring, stores, size, samples⟩ := taken_from empty ready taken found
  obtain ⟨room, past, quiet, fits⟩ := calm
  rw [size] at past fits
  have window := windowStart_le room
  have below : ∀ x ∈ RingBuffer.retained ring.capacity.1 (writtenTo start.l1 c.1.pointId (before ++ [e])),
      timestamp x ≤ c.1.alarmTime + kPostWindowMs := by
    intro x member
    exact (le_windowEnd_iff room (timestamp x)).mpr (past x member)
  have silent : RingBuffer.inWindow timestamp (windowStart c.1.alarmTime) (c.1.alarmTime + kPostWindowMs)
      (writtenTo start.l1 c.1.pointId (untilOver c.1.alarmTime after)) = [] := by
    rw [← filter_around room, List.filter_eq_nil_iff]
    intro x member
    simpa using quiet x member
  have enough : kMaxSamplesPerSnap ≤ kMaxSamples := by decide
  intro _
  constructor
  · rw [flag, samples, stores.extractRange_eq_collected window below]
    exact decide_eq_true ((List.length_take_le' _ _).trans fits)
  · rw [due, filter_around room, writtenTo_append, size, samples]
    exact stores.window_kept window below (fits.trans enough) silent

theorem calm_of_complete (empty : ∀ pid rb, start.l1.lookup pid = some rb → rb.Stores []) (ready : Ready start.bbx)
    (taken : c ∈ (captureStep timestamp value (run (captureStep timestamp value) start before) e).2)
    {rb : RingBuffer T} (found : start.l1.lookup c.1.pointId = some rb)
    (clocked : Clocked timestamp (before ++ e :: after))
    (distinct : (writtenTo start.l1 c.1.pointId (before ++ e :: after)).Nodup)
    (kept : c.2 = true)
    (part : (due timestamp start.l1 (before ++ [e] ++ untilOver c.1.alarmTime after) c.1).Sublist c.1.samples) :
    Calm timestamp start.l1 (before ++ [e]) after c.1 := by
  obtain ⟨-, clock, -, flag⟩ := captured (ready_run ready before) taken
  obtain ⟨ring, stores, size, samples⟩ := taken_from empty ready taken found
  have room := clocked.room e (List.mem_append_right _ List.mem_cons_self)
  rw [← clock] at room
  have window := windowStart_le room
  have below : ∀ x ∈ RingBuffer.retained ring.capacity.1 (writtenTo start.l1 c.1.pointId (before ++ [e])),
      timestamp x ≤ c.1.alarmTime + kPostWindowMs := by
    intro x member
    have stamped := (clocked_after clocked).1 (List.mem_of_mem_drop member)
    rw [← clock] at stamped
    exact le_windowEnd room stamped
  refine ⟨room, ?_, ?_, ?_⟩
  · rw [size]
    intro x member
    exact (le_windowEnd_iff room (timestamp x)).mp (below x member)
  · rw [due, filter_around room, writtenTo_append, size, samples] at part
    have apart := nodup_untilOver distinct c.1.alarmTime
    have early : ∀ x ∈ writtenTo start.l1 c.1.pointId (untilOver c.1.alarmTime after),
        timestamp x ≤ c.1.alarmTime + kPostWindowMs := by
      rw [clock]
      exact fun x member => (clocked_after clocked).2 member
    have silent := stores.window_lost window below apart (ordered_after clocked _) early part
    rw [← filter_around room, List.filter_eq_nil_iff] at silent
    intro x member
    simpa using silent x member
  · rw [kept, samples, stores.extractRange_eq_collected window below, List.length_take] at flag
    have bound := of_decide_eq_true flag.symm
    rw [size]
    simp only [kMaxSamples, kMaxSamplesPerSnap] at bound ⊢
    omega

/-- An alarm of a run has a complete snapshot if its window is calm or holds too many samples, and on a
clock that goes forward, for samples that are told apart, only then. -/
theorem snapshot_complete (empty : ∀ pid rb, start.l1.lookup pid = some rb → rb.Stores []) (ready : Ready start.bbx)
    (taken : c ∈ (captureStep timestamp value (run (captureStep timestamp value) start before) e).2) :
    (kMaxSamplesPerSnap < (due timestamp start.l1 (before ++ [e] ++ untilOver c.1.alarmTime after) c.1).length ∨
        Calm timestamp start.l1 (before ++ [e]) after c.1 →
      Complete timestamp start.l1 (before ++ [e]) after c) ∧
    (Clocked timestamp (before ++ e :: after) → (writtenTo start.l1 c.1.pointId (before ++ e :: after)).Nodup →
      Complete timestamp start.l1 (before ++ [e]) after c →
        kMaxSamplesPerSnap < (due timestamp start.l1 (before ++ [e] ++ untilOver c.1.alarmTime after) c.1).length ∨
          Calm timestamp start.l1 (before ++ [e]) after c.1) := by
  cases found : start.l1.lookup c.1.pointId with
  | none =>
    have both : Complete timestamp start.l1 (before ++ [e]) after c ∧ _ := complete_unregistered ready taken found
    exact ⟨fun _ => both.1, fun clocked _ _ => Or.inr (both.2 clocked)⟩
  | some rb =>
    constructor
    · rintro (many | calm)
      · exact fun few => absurd few (Nat.not_le.mpr many)
      · exact complete_of_calm empty ready taken found calm
    · intro clocked distinct complete
      by_cases few : (due timestamp start.l1 (before ++ [e] ++ untilOver c.1.alarmTime after) c.1).length ≤
          kMaxSamplesPerSnap
      · obtain ⟨kept, part⟩ := complete few
        exact Or.inr (calm_of_complete empty ready taken found clocked distinct kept part)
      · exact Or.inl (Nat.not_le.mp few)

end Alarm
end Completeness

section Overheated

/-- The application with point 7 alone and its swap file just created; a sample is no more than its
time stamp here, and its value is 100. -/
def started7 : AlarmCapture Int UInt64 where
  l1 := BlackBox.fresh7
  bbx := (BlackBox.enableCriticalSwap { image := BlackBox.zeroFile } true).1

/-- A critical limit for point 7. -/
def limit7 : CaptureEvent Int UInt64 where
  nowEpoch := 50000
  call := .operate ⟨.reloadRules
    [{ pointId := 7, level := .critical, onThreshold := 50, offThreshold := 40, onDelayMs := 0 }], rfl⟩

/-- A sample of point 7 that is taken as soon as it is stamped. -/
def sample7 (t : UInt64) : CaptureEvent Int UInt64 where
  nowEpoch := t
  call := .consume 7 t 100000

def snapshot7 : BlackBoxSnapshot UInt64 :=
  { pointId := 7, alarmTime := 60000, level := .critical, samples := [60000] }

theorem captured7 : (snapshot7, true) ∈
    (captureStep id (fun _ => 100) (run (captureStep id (fun _ => 100)) started7 [limit7]) (sample7 60000)).2 := by
  decide +kernel

theorem empty7 (pid : UInt32) (rb : RingBuffer UInt64) (found : started7.l1.lookup pid = some rb) : rb.Stores [] := by
  have one : started7.l1.lookup pid = BlackBox.fresh7.sparseBuffers pid := rfl
  rw [one] at found
  unfold BlackBox.fresh7 at found
  simp only [Option.ite_none_right_eq_some] at found
  obtain ⟨-, made⟩ := found
  rw [← Option.some.inj made]
  exact RingBuffer.stores_fresh ⟨256, by decide⟩ 0

theorem ready7 : Ready started7.bbx where
  written := BlackBox.written_run id (show BlackBox.zeroFile.header.magic ≠ kMagic by decide)
    [.enableCriticalSwap true]
  opened := ⟨_, rfl, rfl⟩

theorem snapshot_complete_overheated :
    (kMaxSamplesPerSnap < (due id started7.l1 ([limit7] ++ [sample7 60000] ++
          untilOver snapshot7.alarmTime [sample7 60100]) snapshot7).length ∨
        Calm id started7.l1 ([limit7] ++ [sample7 60000]) [sample7 60100] snapshot7 →
      Complete id started7.l1 ([limit7] ++ [sample7 60000]) [sample7 60100] (snapshot7, true)) ∧
    (Clocked id ([limit7] ++ sample7 60000 :: [sample7 60100]) →
      (writtenTo started7.l1 snapshot7.pointId ([limit7] ++ sample7 60000 :: [sample7 60100])).Nodup →
      Complete id started7.l1 ([limit7] ++ [sample7 60000]) [sample7 60100] (snapshot7, true) →
        kMaxSamplesPerSnap < (due id started7.l1 ([limit7] ++ [sample7 60000] ++
            untilOver snapshot7.alarmTime [sample7 60100]) snapshot7).length ∨
          Calm id started7.l1 ([limit7] ++ [sample7 60000]) [sample7 60100] snapshot7) :=
  @snapshot_complete _ _ _ id (fun _ => 100) _ _ _ _ (sample7 60000) (snapshot7, true) started7 [limit7]
    [sample7 60100] empty7 ready7 captured7

/-- The sample after the alarm is written within the window, but the snapshot has been taken. -/
theorem snapshot_incomplete : ∃ c ∈ (captureStep id (fun _ => 100)
      (run (captureStep id (fun _ => 100)) started7 [limit7]) (sample7 60000)).2,
    ¬Complete id started7.l1 ([limit7] ++ [sample7 60000]) [sample7 60100] c := by
  refine ⟨(snapshot7, true), captured7, ?_⟩
  intro complete
  have few : (due id started7.l1 ([limit7] ++ [sample7 60000] ++
      untilOver snapshot7.alarmTime [sample7 60100]) snapshot7).length ≤ kMaxSamplesPerSnap := by decide +kernel
  have missing : ¬(due id started7.l1 ([limit7] ++ [sample7 60000] ++
      untilOver snapshot7.alarmTime [sample7 60100]) snapshot7).Sublist snapshot7.samples := by decide +kernel
  exact missing (complete few).2

end Overheated

end EnerSentry.App
