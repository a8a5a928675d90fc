import EnerSentry.Lib.BoundedQueue
import EnerSentry.Lib.Refinement
import EnerSentry.Datahub.Subscriptions
import EnerSentry.App.HistoryPath
import EnerSentry.App.AlarmCapture

/-!
The way of a sample from the worker thread through the main thread. The worker puts samples on a bridge
of bounded size. The main thread takes them off one by one: it writes each to the snapshot store,
broadcasts it on the bus, where the alarm engine has its sink, and feeds the history. Both threads hold
the lock of the bridge for one call at a time, so the calls come in some order, and between two of them the
main thread may also do something else.
-/

namespace EnerSentry.App
open EnerSentry.Lib EnerSentry.Lib.BoundedQueue EnerSentry.Datahub EnerSentry.Business

/-- A decoded value on its way: point, time and value. -/
abbrev Publication (D : Type*) := UInt32 × Int × D

def kMaxPending : Nat := 4096

structure SampleBridge (D : Type*) where
  q : List (Publication D) := []
  bounded : q.length ≤ kMaxPending := by exact Nat.zero_le _

namespace SampleBridge
variable {D : Type*} (b : SampleBridge D)

/-- The oldest sample makes room where the main thread is too slow. -/
def push (x : Publication D) : SampleBridge D where
  q := (if kMaxPending ≤ b.q.length then b.q.tail else b.q) ++ [x]
  bounded := (length_put b.bounded x).resolve_right (by decide)

def tryPop : Option (Publication D × SampleBridge D) :=
  match b with
  | ⟨[], _⟩ => none
  | ⟨x :: q, bounded⟩ => some (x, ⟨q, (Nat.le_succ _).trans bounded⟩)

def pendingCount : Nat := b.q.length

end SampleBridge

/-- What one round of the consumer reads besides the bridge: the clocks of the alarm engine, the wall clock of
the roll-up and the order in which it visits the windows. -/
structure ConsumerRound (K : Type*) [Reading K] where
  nowEpoch : UInt64
  nowMono : Int
  clock : Nat
  order : HashOrder (Sigma fun _ : Nat => Bucket K) := HashOrder.insertion _

def ConsumerRound.arrival {K : Type*} [Reading K] (round : ConsumerRound K) (s : Sample K) : Arrival K :=
  ⟨s, round.clock, round.order⟩

section Model
variable (σ D K : Type*) [Reading K]

/-- The bridge and what the main thread owns. -/
structure MainThread where
  bridge : SampleBridge D := {}
  capture : AlarmCapture K (Sample K)
  bus : DataBus σ := {}
  sampleCount : Nat := 0
  history : HistoryPath K := {}

inductive MainEvent where
  | publish (x : Publication D)
  | consume (round : ConsumerRound K)
  | busCall (call : BusCall σ K)
  | operate (nowEpoch : UInt64) (input : { i : AlarmInput K // isOperation i = true })
  | flush (conditions : FlushConditions)

inductive MainOutput where
  | left (r : Removal (Publication D))
  | bus (o : BusOutput σ K)
  | snapshot (c : BlackBoxSnapshot (Sample K) × Bool)
  | sampleReady (x : Publication D)
  | rolled (r : DownSampledSample K)

end Model

variable {σ D K : Type*} [Reading K]

/-- The sample of a published value: the time as an unsigned word and the value in single precision. -/
def sampleOf (single : D → K) (x : Publication D) : Sample K := ⟨(x.2.1 % 2 ^ 64).toNat, x.1, single x.2.2⟩

/-- The time stamp of a sample as the machine word it is. -/
def stampOf (s : Sample K) : UInt64 := UInt64.ofNat s.timestamp

namespace MainThread
variable [DecidableEq σ] [BEq K] [ToString K] (sink : σ) (single : D → K) (dataDir : String) (cal : Calendar)
  (hash : HashOrder (Nat × Nat))

/-- A call that a broadcast makes. The sink passes the sample on to the alarm engine and counts it; the other
subscribers belong to the user interface. -/
def onSample (round : ConsumerRound K) : Runs.Step (MainThread σ D K) (σ × Sample K) (MainOutput σ D K) :=
  fun m call =>
    if call.1 = sink then
      let (capture, taken) :=
        operate stampOf m.capture (.dataUpdated call.2.pointId call.2.value round.nowMono round.nowEpoch.toNat)
      ({ m with capture := capture, sampleCount := m.sampleCount + 1 },
        .bus (.onSample call.1 call.2) :: taken.map .snapshot)
    else (m, [.bus (.onSample call.1 call.2)])

/-- The body of the consumer's loop for a sample off the bridge. -/
def consume (round : ConsumerRound K) (x : Publication D) (m : MainThread σ D K) :
    MainThread σ D K × List (MainOutput σ D K) :=
  let s := sampleOf single x
  let written := { m with capture := { m.capture with l1 := m.capture.l1.write x.1 s } }
  let calls := written.bus.broadcast s
  let told := Runs.run (onSample sink round) written calls
  let (history, rolled) := consumeSample dataDir told.history (round.arrival s)
  ({ told with history := history },
    Runs.outputs (onSample sink round) written calls ++ .sampleReady x :: rolled.map .rolled)

def step : Runs.Step (MainThread σ D K) (MainEvent σ D K) (MainOutput σ D K) := fun m event =>
  match event with
  | .publish x => ({ m with bridge := m.bridge.push x }, (displacing kMaxPending m.bridge.q).map .left)
  | .consume round =>
      match m.bridge.tryPop with
      | none => (m, [])
      | some (x, bridge) =>
          let (m, out) := consume sink single dataDir round x { m with bridge := bridge }
          (m, .left (.taken x) :: out)
  | .busCall call =>
      let (bus, out) := DataBus.step hash m.bus call
      ({ m with bus := bus }, out.map .bus)
  | .operate nowEpoch input =>
      let (capture, taken) := captureStep stampOf Sample.value m.capture ⟨nowEpoch, .operate input⟩
      ({ m with capture := capture }, taken.map .snapshot)
  | .flush conditions => ({ m with history := onFlushTick cal m.history conditions }, [])

/-- A main thread that has subscribed its sink to the bus. -/
def start (l1 : L1SnapshotStore (Sample K)) (bbx : BlackBox (Sample K)) : MainThread σ D K where
  capture := { l1 := l1, bbx := bbx }
  bus := (DataBus.subscribeWildcard {} (some sink)).1

end MainThread

section Shares

namespace MainOutput

def toLeft : MainOutput σ D K → Option (Removal (Publication D))
  | .left r => some r
  | _ => none

def toSnapshot : MainOutput σ D K → Option (BlackBoxSnapshot (Sample K) × Bool)
  | .snapshot c => some c
  | _ => none

def toReady : MainOutput σ D K → Option (Publication D)
  | .sampleReady x => some x
  | _ => none

def toRolled : MainOutput σ D K → Option (DownSampledSample K)
  | .rolled r => some r
  | _ => none

/-- A sample that a subscriber is called with. -/
def heardBy [DecidableEq σ] (sub : σ) : MainOutput σ D K → Option (Sample K)
  | .bus (.onSample called s) => if called = sub then some s else none
  | _ => none

end MainOutput

/-- The sample that a round takes off the bridge. -/
def front (m : MainThread σ D K) : MainEvent σ D K → List (Publication D)
  | .consume _ => m.bridge.q.head?.toList
  | _ => []

/-- The calls on the bridge. -/
def bridgeShare (_ : MainThread σ D K) : MainEvent σ D K → List (QueueCall (Publication D))
  | .publish x => [.put x]
  | .consume _ => [.take]
  | _ => []

/-- The calls on the snapshot store, the alarm engine and the black box. -/
def captureShare (single : D → K) (m : MainThread σ D K) :
    MainEvent σ D K → List (CaptureEvent K (Sample K))
  | .consume round => m.bridge.q.head?.toList.map fun x =>
      ⟨round.nowEpoch, .consume x.1 (sampleOf single x) round.nowMono⟩
  | .operate nowEpoch input => [⟨nowEpoch, .operate input⟩]
  | _ => []

/-- The ticks of the history. -/
def historyShare (single : D → K) (m : MainThread σ D K) : MainEvent σ D K → List (HistoryEvent K)
  | .consume round => m.bridge.q.head?.toList.map fun x => .consumeTick [round.arrival (sampleOf single x)]
  | .flush conditions => [.flushTick conditions]
  | _ => []

def MainEvent.published : MainEvent σ D K → List (Publication D)
  | .publish x => [x]
  | _ => []

/-- The sample that a call hands to the store and the alarm engine. -/
def consumedBy (e : CaptureEvent K (Sample K)) : Option (Sample K) :=
  match e.call with
  | .consume _ s _ => some s
  | .operate _ => none

variable {single : D → K} {m : MainThread σ D K} {event : MainEvent σ D K}

theorem sampleOf_captureShare (pid : UInt32) :
    (captureShare single m event).filterMap (CaptureEvent.sampleOf pid) =
      ((front m event).map (sampleOf single)).filter fun s => s.pointId = pid := by
  cases event with
  | consume round =>
    simp only [captureShare, front]
    cases m.bridge.q.head? with
    | none => rfl
    | some x =>
      by_cases own : x.1 = pid
      · simp [CaptureEvent.sampleOf, sampleOf, own]
      · simp [CaptureEvent.sampleOf, sampleOf, own]
  | _ => rfl

theorem consumedBy_captureShare :
    (captureShare single m event).filterMap consumedBy = (front m event).map (sampleOf single) := by
  cases event with
  | consume round =>
    simp only [captureShare, front]
    cases m.bridge.q.head? <;> rfl
  | _ => rfl

theorem stream_historyShare :
    (stream (historyShare single m event)).map Arrival.sample = (front m event).map (sampleOf single) := by
  cases event with
  | consume round =>
    simp only [historyShare, front]
    cases m.bridge.q.head? <;> rfl
  | _ => rfl

end Shares

section Sink
variable [DecidableEq σ] (sink : σ) (handle : Nat)

/-- The sink is in the table once, for all points, under its handle. -/
structure Sunk (m : MainThread σ D K) : Prop where
  subscribed : ∃ live : Subscriptions σ, SubscribedBus.Holds (m.bus, live) ∧
    live.filter (fun entry => entry.2.sub = some sink) = [(handle, ⟨kWildcardPointId, some sink⟩)]

/-- Nobody else subscribes the sink or unsubscribes it, and only the consumer broadcasts. -/
def MainEvent.Courteous : MainEvent σ D K → Prop
  | .busCall (.subscribe _ sub) => sub ≠ some sink
  | .busCall (.subscribeWildcard sub) => sub ≠ some sink
  | .busCall (.unsubscribe other) => other ≠ handle
  | .busCall (.broadcast _) => False
  | _ => True

variable {sink handle} {m : MainThread σ D K}

theorem sunk_start (l1 : L1SnapshotStore (Sample K)) (bbx : BlackBox (Sample K)) :
    Sunk sink 1 (MainThread.start (D := D) sink l1 bbx) := by
  refine ⟨[(1, ⟨kWildcardPointId, some sink⟩)], SubscribedBus.holds_fresh.subscribe kWildcardPointId sink, ?_⟩
  rw [List.filter_cons_of_pos (by simp)]
  rfl

/-- A broadcast calls the sink once. -/
theorem Sunk.called (sunk : Sunk sink handle m) (s : Sample K) :
    (m.bus.broadcast s).filter (fun call => call.1 = sink) = [(sink, s)] := by
  obtain ⟨live, holds, own⟩ := sunk.subscribed
  have heard : (live.heard s.pointId).filter (fun sub => sub = sink) = [sink] := by
    calc
      _ = (live.filter fun entry => entry.2.sub = some sink).filterMap (fun entry =>
          if entry.2.matchesPoint s.pointId then entry.2.sub else none) := by
        rw [Subscriptions.heard, List.filter_filterMap, List.filterMap_filter]
        apply List.filterMap_congr
        intro entry _
        by_cases matching : entry.2.matchesPoint s.pointId = true
        · cases called : entry.2.sub <;> simp [matching, Option.filter]
        · simp [matching]
      _ = [sink] := by
        rw [own]
        simp [BusEntry.matchesPoint]
  have once : (m.bus.targets s.pointId).filter (fun sub => sub = sink) = [sink] :=
    List.perm_singleton.mp (heard ▸ (holds.heard_perm s.pointId).filter _)
  rw [DataBus.broadcast, List.filter_map]
  exact congrArg (List.map fun sub => (sub, s)) once

theorem Sunk.busCall (sunk : Sunk sink handle m) (hash : HashOrder (Nat × Nat)) {call : BusCall σ K}
    (courteous : MainEvent.Courteous (D := D) sink handle (.busCall call)) :
    Sunk sink handle { m with bus := (DataBus.step hash m.bus call).1 } := by
  obtain ⟨live, holds, own⟩ := sunk.subscribed
  have subscribes (pointId : UInt32) (sub : Option σ) (other : sub ≠ some sink) :
      Sunk sink handle { m with bus := (m.bus.subscribe pointId sub).1 } := by
    cases sub with
    | none => exact sunk
    | some sub =>
      refine ⟨_, holds.subscribe pointId sub, ?_⟩
      rw [List.filter_append, own, List.filter_cons_of_neg (by simpa using other)]
      rfl
  cases call with
  | subscribe pointId sub => exact subscribes pointId sub courteous
  | subscribeWildcard sub => exact subscribes kWildcardPointId sub courteous
  | unsubscribe other =>
    have kept := @SubscribedBus.Holds.unsubscribe σ _ holds hash other
    refine ⟨_, kept, ?_⟩
    have apart : handle ≠ other := Ne.symm courteous
    rw [List.filter_comm, own, List.filter_cons_of_pos (by simpa using apart)]
    rfl
  | broadcast s => exact absurd courteous id

end Sink

section Rounds
variable [DecidableEq σ] [BEq K] [ToString K] {sink : σ} {single : D → K} {dataDir : String} {cal : Calendar}
  {hash : HashOrder (Nat × Nat)} {handle : Nat} {round : ConsumerRound K} {m : MainThread σ D K}

open MainThread

/-- Of the calls that a broadcast makes, those of the sink count. -/
theorem onSample_other {call : σ × Sample K} (other : call.1 ≠ sink) :
    onSample sink round m call = (m, [.bus (.onSample call.1 call.2)]) := if_neg other

theorem run_onSample (calls : List (σ × Sample K)) :
    Runs.run (onSample sink round) m calls =
      Runs.run (onSample sink round) m (calls.filter fun call => call.1 = sink) := by
  induction calls generalizing m with
  | nil => rfl
  | cons call calls ih =>
    by_cases own : call.1 = sink
    · rw [List.filter_cons_of_pos (by simpa using own), Runs.run, Runs.run, ih]
    · rw [List.filter_cons_of_neg (by simpa using own), Runs.run, onSample_other own, ih]

theorem outputs_onSample {P : Type*} (pick : MainOutput σ D K → Option P)
    (blind : ∀ sub s, sub ≠ sink → pick (.bus (.onSample sub s)) = none) (calls : List (σ × Sample K)) :
    (Runs.outputs (onSample sink round) m calls).filterMap pick =
      (Runs.outputs (onSample sink round) m (calls.filter fun call => call.1 = sink)).filterMap pick := by
  induction calls generalizing m with
  | nil => rfl
  | cons call calls ih =>
    by_cases own : call.1 = sink
    · rw [List.filter_cons_of_pos (by simpa using own), Runs.outputs, Runs.outputs, List.filterMap_append,
        List.filterMap_append, ih]
    · rw [List.filter_cons_of_neg (by simpa using own), Runs.outputs, onSample_other own, List.filterMap_append, ih,
        List.filterMap_cons, blind _ _ own]
      rfl

/-- What the alarm engine and the black box make of a sample off the bridge. -/
def capturing (single : D → K) (round : ConsumerRound K) (m : MainThread σ D K) (x : Publication D) :
    AlarmCapture K (Sample K) × List (BlackBoxSnapshot (Sample K) × Bool) :=
  captureStep stampOf Sample.value m.capture ⟨round.nowEpoch, .consume x.1 (sampleOf single x) round.nowMono⟩

/-- What the history makes of it. -/
def recording (single : D → K) (dataDir : String) (round : ConsumerRound K) (m : MainThread σ D K)
    (x : Publication D) : HistoryPath K × List (DownSampledSample K) :=
  consumeSample dataDir m.history (round.arrival (sampleOf single x))

theorem onSample_sink (m : MainThread σ D K) (x : Publication D) :
    onSample sink round { m with capture := { m.capture with l1 := m.capture.l1.write x.1 (sampleOf single x) } }
      (sink, sampleOf single x) =
    ({ m with capture := (capturing single round m x).1, sampleCount := m.sampleCount + 1 },
      .bus (.onSample sink (sampleOf single x)) :: (capturing single round m x).2.map .snapshot) := if_pos rfl

/-- A round that takes a sample shows it to the store, the alarm engine and the history once. -/
theorem consume_sunk (sunk : Sunk sink handle m) (x : Publication D) :
    (consume sink single dataDir round x m).1 =
      { m with capture := (capturing single round m x).1, sampleCount := m.sampleCount + 1,
               history := (recording single dataDir round m x).1 } := by
  have once := sunk.called (sampleOf single x)
  simp only [consume, run_onSample (MainThread.bus _ |>.broadcast _), once, Runs.run, onSample_sink]
  rfl

/-- What it puts out, as far as it is not about the other subscribers. -/
theorem outputs_consume (sunk : Sunk sink handle m) (x : Publication D) {P : Type*} (pick : MainOutput σ D K → Option P)
    (blind : ∀ sub s, sub ≠ sink → pick (.bus (.onSample sub s)) = none) :
    (consume sink single dataDir round x m).2.filterMap pick =
      (pick (.bus (.onSample sink (sampleOf single x)))).toList ++
        ((capturing single round m x).2.filterMap fun c => pick (.snapshot c)) ++
        ((pick (.sampleReady x)).toList ++
          (recording single dataDir round m x).2.filterMap fun r => pick (.rolled r)) := by
  have once := sunk.called (sampleOf single x)
  have cons (o : MainOutput σ D K) (l : List (MainOutput σ D K)) :
      (o :: l).filterMap pick = (pick o).toList ++ l.filterMap pick := by
    rw [List.filterMap_cons]
    cases pick o <;> rfl
  simp only [consume, List.filterMap_append, outputs_onSample pick blind (MainThread.bus _ |>.broadcast _),
    run_onSample (MainThread.bus _ |>.broadcast _), once, Runs.run, Runs.outputs, onSample_sink, List.append_nil, cons,
    List.filterMap_map]
  rfl

end Rounds

section Account
variable [DecidableEq σ] [BEq K] [ToString K] (sink : σ) (single : D → K) (dataDir : String) (cal : Calendar)
  (hash : HashOrder (Nat × Nat)) {handle : Nat} {m : MainThread σ D K} {event : MainEvent σ D K}
  {events : List (MainEvent σ D K)}

open MainThread

/-- A round finds the bridge empty, or the main thread handles the oldest sample on it. -/
theorem step_consume (sunk : Sunk sink handle m) (round : ConsumerRound K) :
    (m.bridge.q = [] ∧ MainThread.step sink single dataDir cal hash m (.consume round) = (m, [])) ∨
      ∃ x bridge, m.bridge.q = x :: bridge.q ∧
        (MainThread.step sink single dataDir cal hash m (.consume round)).1 =
          { m with bridge := bridge, capture := (capturing single round m x).1, sampleCount := m.sampleCount + 1,
                   history := (recording single dataDir round m x).1 } ∧
        (MainThread.step sink single dataDir cal hash m (.consume round)).2 =
          .left (.taken x) :: (consume sink single dataDir round x { m with bridge := bridge }).2 := by
  cases popped : m.bridge with
  | mk q bounded =>
    cases q with
    | nil =>
      refine Or.inl ⟨rfl, ?_⟩
      simp only [MainThread.step, popped, SampleBridge.tryPop]
    | cons x rest =>
      have bridge : rest.length ≤ kMaxPending := (Nat.le_succ _).trans bounded
      have kept : Sunk sink handle { m with bridge := ⟨rest, bridge⟩ } := ⟨sunk.subscribed⟩
      refine Or.inr ⟨x, ⟨rest, bridge⟩, rfl, ?_, ?_⟩
      · simp only [MainThread.step, popped, SampleBridge.tryPop, consume_sunk kept]
        rfl
      · simp only [MainThread.step, popped, SampleBridge.tryPop]

/-- The subscription of the sink outlasts every event. -/
theorem Sunk.step (sunk : Sunk sink handle m) (courteous : event.Courteous sink handle) :
    Sunk sink handle (MainThread.step sink single dataDir cal hash m event).1 := by
  cases event with
  | publish x => exact ⟨sunk.subscribed⟩
  | consume round =>
    obtain ⟨-, same⟩ | ⟨x, bridge, -, same, -⟩ := step_consume sink single dataDir cal hash sunk round
    · rw [same]
      exact sunk
    · rw [same]
      exact ⟨sunk.subscribed⟩
  | busCall call => exact sunk.busCall hash courteous
  | operate nowEpoch input => exact ⟨sunk.subscribed⟩
  | flush conditions => exact ⟨sunk.subscribed⟩

/-- What leaves the bridge and what is left of it, as the calls on it say. -/
theorem bridge_step (sunk : Sunk sink handle m) (event : MainEvent σ D K) :
    (MainThread.step sink single dataDir cal hash m event).1.bridge.q =
        Runs.run (BoundedQueue.step kMaxPending) m.bridge.q (bridgeShare m event) ∧
      (MainThread.step sink single dataDir cal hash m event).2.filterMap MainOutput.toLeft =
        Runs.outputs (BoundedQueue.step kMaxPending) m.bridge.q (bridgeShare m event) := by
  cases event with
  | publish x =>
    constructor
    · rfl
    · simp [MainThread.step, bridgeShare, Runs.outputs, BoundedQueue.step, MainOutput.toLeft, Function.comp_def]
  | consume round =>
    obtain ⟨empty, same⟩ | ⟨x, bridge, held, state, out⟩ := step_consume sink single dataDir cal hash sunk round
    · rw [same, empty]
      exact ⟨rfl, rfl⟩
    · have kept : Sunk sink handle { m with bridge := bridge } := ⟨sunk.subscribed⟩
      rw [state, out, held, List.filterMap_cons, outputs_consume kept x _ (fun _ _ _ => rfl)]
      simp [MainOutput.toLeft, bridgeShare, Runs.run, Runs.outputs, BoundedQueue.step]
  | busCall call => simp [MainThread.step, bridgeShare, Runs.run, Runs.outputs, MainOutput.toLeft, Function.comp_def]
  | operate nowEpoch input =>
    simp [MainThread.step, bridgeShare, Runs.run, Runs.outputs, MainOutput.toLeft, Function.comp_def]
  | flush conditions => exact ⟨rfl, rfl⟩

/-- The store, the alarm engine and the black box, as their calls say. -/
theorem capture_step (sunk : Sunk sink handle m) (event : MainEvent σ D K) :
    (MainThread.step sink single dataDir cal hash m event).1.capture =
        Runs.run (captureStep stampOf Sample.value) m.capture (captureShare single m event) ∧
      (MainThread.step sink single dataDir cal hash m event).2.filterMap MainOutput.toSnapshot =
        Runs.outputs (captureStep stampOf Sample.value) m.capture (captureShare single m event) := by
  cases event with
  | publish x =>
    simp [MainThread.step, captureShare, Runs.run, Runs.outputs, MainOutput.toSnapshot, Function.comp_def]
  | consume round =>
    obtain ⟨empty, same⟩ | ⟨x, bridge, held, state, out⟩ := step_consume sink single dataDir cal hash sunk round
    · rw [same, captureShare, empty]
      exact ⟨rfl, rfl⟩
    · have kept : Sunk sink handle { m with bridge := bridge } := ⟨sunk.subscribed⟩
      rw [state, out, captureShare, held, List.filterMap_cons, outputs_consume kept x _ (fun _ _ _ => rfl)]
      simp [MainOutput.toSnapshot, Runs.run, Runs.outputs, capturing]
  | busCall call =>
    simp [MainThread.step, captureShare, Runs.run, Runs.outputs, MainOutput.toSnapshot, Function.comp_def]
  | operate nowEpoch input =>
    simp [MainThread.step, captureShare, Runs.run, Runs.outputs, MainOutput.toSnapshot, Function.comp_def]
  | flush conditions => exact ⟨rfl, rfl⟩

/-- The history, as its ticks say. -/
theorem history_step (sunk : Sunk sink handle m) (event : MainEvent σ D K) :
    (MainThread.step sink single dataDir cal hash m event).1.history =
        Runs.run (historyStep dataDir cal) m.history (historyShare single m event) ∧
      (MainThread.step sink single dataDir cal hash m event).2.filterMap MainOutput.toRolled =
        Runs.outputs (historyStep dataDir cal) m.history (historyShare single m event) := by
  cases event with
  | publish x =>
    simp [MainThread.step, historyShare, Runs.run, Runs.outputs, MainOutput.toRolled, Function.comp_def]
  | consume round =>
    obtain ⟨empty, same⟩ | ⟨x, bridge, held, state, out⟩ := step_consume sink single dataDir cal hash sunk round
    · rw [same, historyShare, empty]
      exact ⟨rfl, rfl⟩
    · have kept : Sunk sink handle { m with bridge := bridge } := ⟨sunk.subscribed⟩
      rw [state, out, historyShare, held, List.filterMap_cons, outputs_consume kept x _ (fun _ _ _ => rfl)]
      simp [MainOutput.toRolled, Runs.run, Runs.outputs, historyStep, onConsumeTick, recording]
  | busCall call =>
    simp [MainThread.step, historyShare, Runs.run, Runs.outputs, MainOutput.toRolled, Function.comp_def]
  | operate nowEpoch input =>
    simp [MainThread.step, historyShare, Runs.run, Runs.outputs, MainOutput.toRolled, Function.comp_def]
  | flush conditions => exact ⟨rfl, rfl⟩

/-- The sample that a round takes is heard by the sink, signalled and counted. -/
theorem front_step (sunk : Sunk sink handle m) (courteous : event.Courteous sink handle) :
    let after := MainThread.step sink single dataDir cal hash m event
    (after.2.filterMap MainOutput.toLeft).filterMap Removal.toTaken = front m event ∧
      after.2.filterMap MainOutput.toReady = front m event ∧
      after.2.filterMap (MainOutput.heardBy sink) = (front m event).map (sampleOf single) ∧
      after.1.sampleCount = m.sampleCount + (front m event).length := by
  intro after
  cases event with
  | publish x =>
    have displaced : ((m.bridge.q.head?.map Removal.displaced).toList).filterMap Removal.toTaken = [] := by
      cases m.bridge.q.head? <;> rfl
    simp only [after, MainThread.step, front, displacing]
    split <;> simp [MainOutput.toLeft, MainOutput.toReady, MainOutput.heardBy, Function.comp_def, displaced]
  | consume round =>
    obtain ⟨empty, same⟩ | ⟨x, bridge, held, state, out⟩ := step_consume sink single dataDir cal hash sunk round
    · simp only [after, same, front, empty]
      exact ⟨rfl, rfl, rfl, rfl⟩
    · have kept : Sunk sink handle { m with bridge := bridge } := ⟨sunk.subscribed⟩
      have others : ∀ sub (s : Sample K), sub ≠ sink →
          MainOutput.heardBy (D := D) sink (.bus (.onSample sub s)) = none := fun sub s other => if_neg other
      simp only [after, state, out, front, held, List.filterMap_cons,
        outputs_consume kept x MainOutput.toLeft (fun _ _ _ => rfl),
        outputs_consume kept x MainOutput.toReady (fun _ _ _ => rfl), outputs_consume kept x _ others]
      simp [MainOutput.toLeft, MainOutput.toReady, MainOutput.heardBy, Removal.toTaken]
  | busCall call =>
    have quiet : (DataBus.step hash m.bus call).2.filterMap
        (fun o => MainOutput.heardBy (D := D) sink (.bus o)) = [] := by
      cases call with
      | broadcast s => exact absurd courteous id
      | _ => rfl
    simp [after, MainThread.step, front, MainOutput.toLeft, MainOutput.toReady, Function.comp_def, quiet]
  | operate nowEpoch input =>
    simp [after, MainThread.step, front, MainOutput.toLeft, MainOutput.toReady, MainOutput.heardBy, Function.comp_def]
  | flush conditions => exact ⟨rfl, rfl, rfl, rfl⟩

/-- A displaced sample is the oldest on a full bridge when another is published. -/
theorem displaced_step (sunk : Sunk sink handle m) (y : Publication D) :
    .left (.displaced y) ∈ (MainThread.step sink single dataDir cal hash m event).2 ↔
      ∃ x rest, event = .publish x ∧ m.bridge.q = y :: rest ∧ kMaxPending ≤ m.bridge.q.length := by
  have picked (out : List (MainOutput σ D K)) :
      .left (.displaced y) ∈ out ↔ .displaced y ∈ out.filterMap MainOutput.toLeft := by
    rw [List.mem_filterMap]
    constructor
    · intro member
      exact ⟨_, member, rfl⟩
    · intro found
      obtain ⟨o, member, own⟩ := found
      cases o <;> cases own
      exact member
  rw [picked, (bridge_step sink single dataDir cal hash sunk event).2]
  cases event with
  | publish x =>
    rw [bridgeShare, Runs.outputs, Runs.outputs, List.append_nil, displaced_iff]
    simp
  | consume round =>
    rw [bridgeShare, Runs.outputs, Runs.outputs, List.append_nil, displaced_iff]
    simp
  | _ => simp [bridgeShare, Runs.outputs]

/-- Where the samples of a run are. Those that have left the bridge, taken or displaced, and those on it are
the published ones in their order, and what was taken has reached every part of the main thread. -/
structure Delivered (start : MainThread σ D K) (events : List (MainEvent σ D K)) (m : MainThread σ D K)
    (out : List (MainOutput σ D K)) (taken : List (Publication D)) : Prop where
  bridge : (out.filterMap MainOutput.toLeft).map Removal.item ++ m.bridge.q =
    start.bridge.q ++ events.flatMap MainEvent.published
  removed : takenOf (out.filterMap MainOutput.toLeft) = taken
  ready : out.filterMap MainOutput.toReady = taken
  heard : out.filterMap (MainOutput.heardBy sink) = taken.map (sampleOf single)
  counted : m.sampleCount = start.sampleCount + taken.length
  stored : ∀ pid, m.capture.l1.lookup pid = (start.capture.l1.lookup pid).map fun rb =>
    ((taken.map (sampleOf single)).filter fun s => s.pointId = pid).foldl RingBuffer.push rb
  capture : ∃ calls, calls.filterMap consumedBy = taken.map (sampleOf single) ∧
    m.capture = Runs.run (captureStep stampOf Sample.value) start.capture calls ∧
    out.filterMap MainOutput.toSnapshot = Runs.outputs (captureStep stampOf Sample.value) start.capture calls
  history : ∃ ticks, (stream ticks).map Arrival.sample = taken.map (sampleOf single) ∧
    m.history = Runs.run (historyStep dataDir cal) start.history ticks ∧
    out.filterMap MainOutput.toRolled = Runs.outputs (historyStep dataDir cal) start.history ticks

section Run
variable {start : MainThread σ D K}
  (sunken : ∀ v ∈ Runs.visits (MainThread.step sink single dataDir cal hash) start events, Sunk sink handle v.1)

/-- The samples that the rounds of a run take. -/
def fronts (events : List (MainEvent σ D K)) (start : MainThread σ D K) : List (Publication D) :=
  Runs.shares (MainThread.step sink single dataDir cal hash) front start events

include sunken

/-- What has left the bridge and what is on it are what was on it and what was published. -/
theorem bridge_run :
    ((Runs.outputs (MainThread.step sink single dataDir cal hash) start events).filterMap MainOutput.toLeft).map
        Removal.item ++ (Runs.run (MainThread.step sink single dataDir cal hash) start events).bridge.q =
      start.bridge.q ++ events.flatMap MainEvent.published := by
  have calls : BoundedQueue.history
        (Runs.shares (MainThread.step sink single dataDir cal hash) bridgeShare start events) =
      events.flatMap MainEvent.published := by
    calc
      _ = Runs.shares _ (fun m event => BoundedQueue.history (bridgeShare m event)) start events :=
        Runs.shares_hom bridgeShare _ BoundedQueue.history rfl fun _ _ => List.flatMap_append
      _ = Runs.shares _ (fun _ event => event.published) start events := by
        congr 1
        funext m event
        cases event <;> rfl
      _ = _ := Runs.shares_events _ _
  have moved := Runs.outputs_shared (fun m => m.bridge.q) bridgeShare MainOutput.toLeft
    (fun v visited => bridge_step sink single dataDir cal hash (sunken v visited) v.2)
  have state := Runs.run_shared (fun m => m.bridge.q) bridgeShare
    (fun v visited => (bridge_step sink single dataDir cal hash (sunken v visited) v.2).1)
  rw [moved, state, conserved (by decide), calls]

/-- The store, the alarm engine and the black box run as on their own, over the calls they get. -/
theorem capture_run : ∃ calls : List (CaptureEvent K (Sample K)),
    calls.filterMap consumedBy = (fronts sink single dataDir cal hash events start).map (sampleOf single) ∧
    (∀ pid, calls.filterMap (CaptureEvent.sampleOf pid) =
      ((fronts sink single dataDir cal hash events start).map (sampleOf single)).filter fun s => s.pointId = pid) ∧
    (Runs.run (MainThread.step sink single dataDir cal hash) start events).capture =
      Runs.run (captureStep stampOf Sample.value) start.capture calls ∧
    (Runs.outputs (MainThread.step sink single dataDir cal hash) start events).filterMap MainOutput.toSnapshot =
      Runs.outputs (captureStep stampOf Sample.value) start.capture calls := by
  have steps := fun v visited => capture_step sink single dataDir cal hash (sunken v visited) v.2
  refine ⟨_, ?_, ?_, Runs.run_shared (fun m => m.capture) (captureShare single) (fun v visited => (steps v visited).1),
    Runs.outputs_shared _ _ _ steps⟩
  · calc
      _ = Runs.shares _ (fun m event => (captureShare single m event).filterMap consumedBy) start events :=
        Runs.shares_hom _ _ _ rfl fun _ _ => List.filterMap_append
      _ = Runs.shares _ (fun m event => (front m event).map (sampleOf single)) start events := by
        simp only [consumedBy_captureShare]
      _ = _ := (Runs.shares_hom front _ _ rfl fun _ _ => List.map_append).symm
  · intro pid
    calc
      _ = Runs.shares _ (fun m event => (captureShare single m event).filterMap (CaptureEvent.sampleOf pid)) start
          events := Runs.shares_hom _ _ _ rfl fun _ _ => List.filterMap_append
      _ = Runs.shares _ (fun m event => ((front m event).map (sampleOf single)).filter fun s => s.pointId = pid) start
          events := by simp only [sampleOf_captureShare]
      _ = _ := (Runs.shares_hom front _ (fun l => (l.map (sampleOf single)).filter fun s => s.pointId = pid) rfl
        (fun _ _ => by rw [List.map_append, List.filter_append])).symm

/-- The history runs as on its own, over the ticks it gets. -/
theorem history_run : ∃ ticks : List (HistoryEvent K),
    (stream ticks).map Arrival.sample = (fronts sink single dataDir cal hash events start).map (sampleOf single) ∧
    (Runs.run (MainThread.step sink single dataDir cal hash) start events).history =
      Runs.run (historyStep dataDir cal) start.history ticks ∧
    (Runs.outputs (MainThread.step sink single dataDir cal hash) start events).filterMap MainOutput.toRolled =
      Runs.outputs (historyStep dataDir cal) start.history ticks := by
  have steps := fun v visited => history_step sink single dataDir cal hash (sunken v visited) v.2
  refine ⟨_, ?_, Runs.run_shared (fun m => m.history) (historyShare single) (fun v visited => (steps v visited).1),
    Runs.outputs_shared _ _ _ steps⟩
  calc
    _ = Runs.shares _ (fun m event => (stream (historyShare single m event)).map Arrival.sample) start events :=
      Runs.shares_hom _ _ (fun ticks => (stream ticks).map Arrival.sample) rfl fun _ _ => by
        rw [stream, List.flatMap_append, List.map_append]
        rfl
    _ = Runs.shares _ (fun m event => (front m event).map (sampleOf single)) start events := by
      simp only [stream_historyShare]
    _ = _ := (Runs.shares_hom front _ _ rfl fun _ _ => List.map_append).symm

/-- Every sample that is taken is signalled, heard by the sink and counted. -/
theorem fronts_run (courtesy : ∀ v ∈ Runs.visits (MainThread.step sink single dataDir cal hash) start events,
      v.2.Courteous sink handle) :
    takenOf ((Runs.outputs (MainThread.step sink single dataDir cal hash) start events).filterMap MainOutput.toLeft) =
        fronts sink single dataDir cal hash events start ∧
      (Runs.outputs (MainThread.step sink single dataDir cal hash) start events).filterMap MainOutput.toReady =
        fronts sink single dataDir cal hash events start ∧
      (Runs.outputs (MainThread.step sink single dataDir cal hash) start events).filterMap (MainOutput.heardBy sink) =
        (fronts sink single dataDir cal hash events start).map (sampleOf single) ∧
      (Runs.run (MainThread.step sink single dataDir cal hash) start events).sampleCount =
        start.sampleCount + (fronts sink single dataDir cal hash events start).length := by
  have steps := fun v visited =>
    front_step sink single dataDir cal hash (sunken v visited) (courtesy v visited)
  refine ⟨?_, Runs.filterMap_outputs _ _ fun v visited => (steps v visited).2.1, ?_, ?_⟩
  · rw [takenOf, List.filterMap_filterMap]
    apply Runs.filterMap_outputs
    intro v visited
    rw [← List.filterMap_filterMap]
    exact (steps v visited).1
  · rw [fronts, Runs.shares_hom front _ (List.map (sampleOf single)) rfl fun _ _ => List.map_append]
    exact Runs.filterMap_outputs _ _ fun v visited => (steps v visited).2.2.1
  · calc
      _ = Runs.run (fun n _ => (n + 1, ([] : List Empty))) start.sampleCount
          (fronts sink single dataDir cal hash events start) := by
        refine Runs.run_shared MainThread.sampleCount front ?_
        intro v visited
        rw [Runs.run_counting]
        exact (steps v visited).2.2.2
      _ = _ := Runs.run_counting _ _

end Run

section Outcome
variable {start : MainThread σ D K} (sunk : Sunk sink handle start)
  (courteous : ∀ e ∈ events, e.Courteous sink handle)
include sunk courteous

theorem sunk_visits : ∀ v ∈ Runs.visits (MainThread.step sink single dataDir cal hash) start events,
    Sunk sink handle v.1 ∧ v.2.Courteous sink handle := by
  have courtesy : ∀ v ∈ Runs.visits (MainThread.step sink single dataDir cal hash) start events,
      v.2.Courteous sink handle := by
    intro v visited
    exact courteous _ (Runs.visits_map_snd _ start events ▸ List.mem_map_of_mem visited)
  intro v visited
  have sunken := Runs.reached_invariant (MainThread.step sink single dataDir cal hash) events
    (A := fun _ e => e.Courteous sink handle) sunk
    (fun m e sunk courteous => sunk.step sink single dataDir cal hash courteous) courtesy
  exact ⟨sunken _ (Runs.visit_mem_reached visited).1, courtesy v visited⟩

theorem delivered_run : ∃ taken, Delivered sink single dataDir cal start events
    (Runs.run (MainThread.step sink single dataDir cal hash) start events)
    (Runs.outputs (MainThread.step sink single dataDir cal hash) start events) taken := by
  have visits := sunk_visits sink single dataDir cal hash sunk courteous
  have sunken := fun v visited => (visits v visited).1
  obtain ⟨removed, ready, heard, counted⟩ := fronts_run sink single dataDir cal hash sunken
    fun v visited => (visits v visited).2
  obtain ⟨calls, consumed, own, state, snapshots⟩ := capture_run sink single dataDir cal hash sunken
  exact ⟨fronts sink single dataDir cal hash events start,
    { bridge := bridge_run sink single dataDir cal hash sunken
      removed := removed
      ready := ready
      heard := heard
      counted := counted
      stored := fun pid => by rw [state, lookup_run, own]
      capture := ⟨calls, consumed, state, snapshots⟩
      history := history_run sink single dataDir cal hash sunken }⟩

/-- Where every publication found room, everything that was published is taken or on the bridge. -/
theorem lossless_run (room : ∀ v ∈ Runs.visits (MainThread.step sink single dataDir cal hash) start events,
      ∀ x, v.2 = .publish x → v.1.bridge.q.length < kMaxPending) :
    (Runs.outputs (MainThread.step sink single dataDir cal hash) start events).filterMap MainOutput.toReady ++
        (Runs.run (MainThread.step sink single dataDir cal hash) start events).bridge.q =
      start.bridge.q ++ events.flatMap MainEvent.published := by
  obtain ⟨taken, delivered⟩ := delivered_run sink single dataDir cal hash sunk courteous
  have kept : ∀ y, .displaced y ∉
      (Runs.outputs (MainThread.step sink single dataDir cal hash) start events).filterMap MainOutput.toLeft := by
    intro y displaced
    obtain ⟨o, put, own⟩ := List.mem_filterMap.mp displaced
    obtain ⟨v, visited, out⟩ := Runs.mem_outputs_iff.mp put
    cases o <;> cases own
    have sunken := (sunk_visits sink single dataDir cal hash sunk courteous v visited).1
    obtain ⟨x, rest, published, -, full⟩ := (displaced_step sink single dataDir cal hash sunken y).mp out
    exact absurd (room v visited x published) (Nat.not_lt.mpr full)
  rw [delivered.ready, ← delivered.removed, takenOf_eq _ kept, delivered.bridge]

end Outcome

/-- In any order of publications, rounds, calls on the bus, operations of the alarm engine and flushes, what
leaves the bridge and what is on it are what was published, and every sample that is taken reaches the sink,
the store, the alarm engine and the history once and in order. A sample is displaced by a publication that
finds the bridge full, and by nothing else; where none does, no sample is lost. -/
theorem samples_delivered (start : MainThread σ D K) (sunk : Sunk sink handle start)
    (courteous : ∀ e ∈ events, e.Courteous sink handle) :
    let machine := MainThread.step sink single dataDir cal hash
    (∃ taken, Delivered sink single dataDir cal start events (Runs.run machine start events)
      (Runs.outputs machine start events) taken) ∧
    (∀ v ∈ Runs.visits machine start events, ∀ y, .left (.displaced y) ∈ (machine v.1 v.2).2 ↔
      ∃ x rest, v.2 = .publish x ∧ v.1.bridge.q = y :: rest ∧ v.1.bridge.q.length = kMaxPending) ∧
    ((∀ v ∈ Runs.visits machine start events, ∀ x, v.2 = .publish x → v.1.bridge.q.length < kMaxPending) →
      (Runs.outputs machine start events).filterMap MainOutput.toReady ++ (Runs.run machine start events).bridge.q =
        start.bridge.q ++ events.flatMap MainEvent.published) := by
  intro machine
  refine ⟨delivered_run sink single dataDir cal hash sunk courteous, ?_,
    lossless_run sink single dataDir cal hash sunk courteous⟩
  · intro v visited y
    have sunken := (sunk_visits sink single dataDir cal hash sunk courteous v visited).1
    rw [displaced_step sink single dataDir cal hash sunken]
    have bounded := v.1.bridge.bounded
    constructor
    · intro full
      obtain ⟨x, rest, published, oldest, most⟩ := full
      exact ⟨x, rest, published, oldest, bounded.antisymm most⟩
    · intro full
      obtain ⟨x, rest, published, oldest, most⟩ := full
      exact ⟨x, rest, published, oldest, most.ge⟩

end Account

section Example

abbrev Extended : Type := WithBot (WithTop ℚ)

def extended (q : ℚ) : Extended := ((q : WithTop ℚ) : WithBot (WithTop ℚ))

@[reducible] def extendedToString : ToString Extended where
  toString
    | ((q : ℚ) : WithTop ℚ) => toString q
    | _ => "inf"

attribute [local instance] extendedToString

def blankSample : Sample Extended := ⟨0, 0, extended 0⟩

/-- A black box without a swap file. -/
def blankBox : BlackBox (Sample Extended) where
  image :=
    { header := { magic := [], version := 0, snapshotCount := 0, writePos := 0 }
      slots := fun _ => { pointId := 0, alarmTime := 0, level := .info, count := 0, samples := fun _ => blankSample } }

/-- Two samples while a chart comes and goes, a round for one of them and a round that finds the bridge empty. -/
def twoSamples : List (MainEvent Nat ℚ Extended) :=
  [.consume ⟨1000, 50, 1000, HashOrder.insertion _⟩, .publish (7, 1010, 5), .busCall (.subscribeWildcard (some 4)),
    .publish (9, 1010, 6), .consume ⟨1050, 100, 1050, HashOrder.insertion _⟩, .busCall (.unsubscribe 2),
    .operate 1060 ⟨.unsuppressPoint 7, rfl⟩, .flush always]

theorem samples_delivered_two :
    let machine := MainThread.step (3 : Nat) extended "data" january (HashOrder.insertion _)
    let start := MainThread.start 3 {} blankBox
    (∃ taken, Delivered 3 extended "data" january start twoSamples (Runs.run machine start twoSamples)
      (Runs.outputs machine start twoSamples) taken) ∧
    (∀ v ∈ Runs.visits machine start twoSamples, ∀ y, .left (.displaced y) ∈ (machine v.1 v.2).2 ↔
      ∃ x rest, v.2 = .publish x ∧ v.1.bridge.q = y :: rest ∧ v.1.bridge.q.length = kMaxPending) ∧
    ((∀ v ∈ Runs.visits machine start twoSamples, ∀ x, v.2 = .publish x → v.1.bridge.q.length < kMaxPending) →
      (Runs.outputs machine start twoSamples).filterMap MainOutput.toReady ++
          (Runs.run machine start twoSamples).bridge.q =
        start.bridge.q ++ twoSamples.flatMap MainEvent.published) := by
  apply samples_delivered 3 extended "data" january (HashOrder.insertion _) _ (sunk_start {} _)
  intro e member
  simp only [twoSamples, List.mem_cons, List.not_mem_nil, or_false] at member
  rcases member with rfl | rfl | rfl | rfl | rfl | rfl | rfl | rfl
  · trivial
  · trivial
  · exact fun same => absurd (Option.some.inj same) (by decide)
  · trivial
  · trivial
  · exact (by decide : (2 : Nat) ≠ 1)
  · trivial
  · trivial

end Example

end EnerSentry.App
