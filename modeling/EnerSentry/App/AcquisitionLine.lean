import EnerSentry.Datahub.PolicyRouting
import EnerSentry.App.ClosedLoop
import EnerSentry.App.SampleBridge

/-!
The whole line of a reading: from the cells of a simulated slave over the connection and the worker to the
bridge, and from there through the main thread into the store, the alarm engine and the history. The worker
decodes a response and then publishes its values one by one; the main thread may take samples in between.
-/

namespace EnerSentry.App
open EnerSentry.Lib EnerSentry.Lib.BoundedQueue EnerSentry.Protocol EnerSentry.Datahub EnerSentry.Sim

/-- The policy that the application derives from its table: a minute of samples for every enabled point. -/
def l1Policy {D : Type} (table : PointTable D) : List RingBufferPolicyEntry :=
  (table.allPoints.filter (·.enabled)).map fun pr => ⟨pr.pointId, pr.pollIntervalMs, 60000⟩

/-- The points as the poll driver has them. -/
def polledPoints {D : Type} (table : PointTable D) : List (PointRuntime D) := table.allPoints.map (·.toPointRuntime)

/-- Every enabled point has a buffer in the store. -/
theorem isSome_l1Policy {D : Type} {table : PointTable D} {T : Type} {blank : T} {l1 : L1SnapshotStore T}
    (made : L1SnapshotStore.initFromPolicy blank {} (l1Policy table) = .ok (true, l1)) {pr : PointRuntime D}
    (listed : pr ∈ polledPoints table) (enabled : pr.enabled = true) : (l1.lookup pr.pointId).isSome = true := by
  obtain ⟨point, member, rfl⟩ := List.mem_map.mp listed
  have held : point.pointId ∈ pointIds (l1Policy table) := by
    rw [pointIds, l1Policy, List.map_map]
    exact List.mem_map_of_mem (List.mem_filter.mpr ⟨member, enabled⟩)
  have some_ : l1Policy table ≠ [] := by
    intro none
    rw [none] at held
    cases held
  have apart : ¬SpansIds (l1Policy table) := by
    intro spans
    obtain ⟨index, fault⟩ := L1SnapshotStore.initFromPolicy_spans blank {} spans
    rw [fault] at made
    cases made
  obtain ⟨l1', same, -, registers⟩ := L1SnapshotStore.initFromPolicy_registers blank {} some_ apart
  rw [same] at made
  cases made
  rw [registers, isSome_registering]
  exact Or.inr held

/-- The worker with its connection, the values that it has decoded and not published yet, and the main thread. -/
structure AcquisitionLine (σ D K : Type) [Reading K] where
  loop : Loop D × Dialogue
  decoded : List (Publication D) := []
  main : MainThread σ D K

inductive LineEvent (σ D K : Type) [Reading K] where
  | worker (event : LoopEvent)
  | publish
  | main (event : MainEvent σ D K)

inductive LineOutput (σ D K : Type) [Reading K] where
  | worker (o : PollOutput D)
  | published (x : Publication D)
  | main (o : MainOutput σ D K)

namespace LineOutput
variable {σ D K : Type} [Reading K]

def toWorker : LineOutput σ D K → Option (PollOutput D)
  | .worker o => some o
  | _ => none

def toPublished : LineOutput σ D K → Option (Publication D)
  | .published x => some x
  | _ => none

def toMain : LineOutput σ D K → Option (MainOutput σ D K)
  | .main o => some o
  | _ => none

end LineOutput

/-- The values that responses were taken apart into, in order. -/
def publications {D : Type} (out : List (PollOutput D)) : List (Publication D) := (decodeds out).flatMap Decoded.samples

theorem publications_append {D : Type} (first second : List (PollOutput D)) :
    publications (first ++ second) = publications first ++ publications second := by
  rw [publications, decodeds_append, List.flatMap_append]
  rfl

section Machine
variable {σ D K : Type} [Reading K] [DecidableEq σ] [BEq K] [ToString K] [Zero D] [One D] [Add D] [Mul D]
  (cv : Conversions D) (slaves : List UInt8) (sink : σ) (single : D → K) (dataDir : String) (cal : Calendar)
  (hash : HashOrder (Nat × Nat))

namespace AcquisitionLine

/-- The worker goes on to its next event when it has published what it decoded. -/
def step : Runs.Step (AcquisitionLine σ D K) (LineEvent σ D K) (LineOutput σ D K) := fun l event =>
  match event with
  | .worker e =>
      if l.decoded = [] then
        let (loop, out) := closedLoop cv slaves l.loop e
        ({ l with loop := loop, decoded := publications out }, out.map .worker)
      else (l, [])
  | .publish =>
      match l.decoded with
      | [] => (l, [])
      | x :: rest =>
          let (main, out) := MainThread.step sink single dataDir cal hash l.main (.publish x)
          ({ l with decoded := rest, main := main }, .published x :: out.map .main)
  | .main e =>
      let (main, out) := MainThread.step sink single dataDir cal hash l.main e
      ({ l with main := main }, out.map .main)

/-- The events of the connection and the worker. -/
def loopShare (l : AcquisitionLine σ D K) : LineEvent σ D K → List LoopEvent
  | .worker e => if l.decoded = [] then [e] else []
  | _ => []

/-- The events of the bridge and the main thread. -/
def mainShare (l : AcquisitionLine σ D K) : LineEvent σ D K → List (MainEvent σ D K)
  | .worker _ => []
  | .publish => l.decoded.head?.toList.map .publish
  | .main e => [e]

end AcquisitionLine
open AcquisitionLine (loopShare mainShare)

section Steps
variable (l : AcquisitionLine σ D K) (event : LineEvent σ D K)

/-- The connection and the worker, as their events say. -/
theorem loop_step :
    (AcquisitionLine.step cv slaves sink single dataDir cal hash l event).1.loop =
        Runs.run (closedLoop cv slaves) l.loop (loopShare l event) ∧
      (AcquisitionLine.step cv slaves sink single dataDir cal hash l event).2.filterMap LineOutput.toWorker =
        Runs.outputs (closedLoop cv slaves) l.loop (loopShare l event) := by
  cases event with
  | worker e =>
    by_cases free : l.decoded = []
    · simp [AcquisitionLine.step, loopShare, free, Runs.run, Runs.outputs, LineOutput.toWorker, Function.comp_def]
    · simp [AcquisitionLine.step, loopShare, free, Runs.run, Runs.outputs]
  | publish =>
    cases waiting : l.decoded <;>
      simp [AcquisitionLine.step, loopShare, waiting, Runs.run, Runs.outputs, LineOutput.toWorker]
  | main e => simp [AcquisitionLine.step, loopShare, Runs.run, Runs.outputs, LineOutput.toWorker, Function.comp_def]

/-- The bridge and the main thread, as their events say. -/
theorem main_step :
    (AcquisitionLine.step cv slaves sink single dataDir cal hash l event).1.main =
        Runs.run (MainThread.step sink single dataDir cal hash) l.main (mainShare l event) ∧
      (AcquisitionLine.step cv slaves sink single dataDir cal hash l event).2.filterMap LineOutput.toMain =
        Runs.outputs (MainThread.step sink single dataDir cal hash) l.main (mainShare l event) := by
  cases event with
  | worker e =>
    by_cases free : l.decoded = []
    · simp [AcquisitionLine.step, mainShare, free, Runs.run, Runs.outputs, LineOutput.toMain, Function.comp_def]
    · simp [AcquisitionLine.step, mainShare, free, Runs.run, Runs.outputs]
  | publish =>
    cases waiting : l.decoded with
    | nil => simp [AcquisitionLine.step, mainShare, waiting, Runs.run, Runs.outputs]
    | cons x rest =>
      simp [AcquisitionLine.step, mainShare, waiting, Runs.run, Runs.outputs, LineOutput.toMain, List.filterMap_cons,
        Function.comp_def]
  | main e => simp [AcquisitionLine.step, mainShare, Runs.run, Runs.outputs, LineOutput.toMain, Function.comp_def]

/-- What is published and what is left of the decoded values are these and the new ones. -/
theorem decoded_step :
    (AcquisitionLine.step cv slaves sink single dataDir cal hash l event).2.filterMap LineOutput.toPublished ++
        (AcquisitionLine.step cv slaves sink single dataDir cal hash l event).1.decoded =
      l.decoded ++ publications
        ((AcquisitionLine.step cv slaves sink single dataDir cal hash l event).2.filterMap LineOutput.toWorker) := by
  cases event with
  | worker e =>
    by_cases free : l.decoded = []
    · simp [AcquisitionLine.step, free, LineOutput.toPublished, LineOutput.toWorker, Function.comp_def]
    · simp [AcquisitionLine.step, free, publications, decodeds]
  | publish =>
    cases waiting : l.decoded <;>
      simp [AcquisitionLine.step, waiting, publications, decodeds, LineOutput.toPublished, LineOutput.toWorker,
        Function.comp_def]
  | main e =>
    simp [AcquisitionLine.step, publications, decodeds, LineOutput.toPublished, LineOutput.toWorker, Function.comp_def]

end Steps

section Run
variable (start : AcquisitionLine σ D K) (events : List (LineEvent σ D K))

/-- The main thread leaves the publishing to the worker and the sink to itself. -/
def LineEvent.Proper (sink : σ) (handle : Nat) : LineEvent σ D K → Prop
  | .main (.publish _) => False
  | .main e => e.Courteous sink handle
  | _ => True

theorem loop_run :
    (Runs.run (AcquisitionLine.step cv slaves sink single dataDir cal hash) start events).loop =
        Runs.run (closedLoop cv slaves) start.loop
          (Runs.shares (AcquisitionLine.step cv slaves sink single dataDir cal hash) loopShare start events) ∧
      (Runs.outputs (AcquisitionLine.step cv slaves sink single dataDir cal hash) start events).filterMap
          LineOutput.toWorker =
        Runs.outputs (closedLoop cv slaves) start.loop
          (Runs.shares (AcquisitionLine.step cv slaves sink single dataDir cal hash) loopShare start events) :=
  ⟨Runs.run_shared AcquisitionLine.loop loopShare fun v _ =>
      (loop_step cv slaves sink single dataDir cal hash v.1 v.2).1,
    Runs.outputs_shared AcquisitionLine.loop loopShare _ fun v _ =>
      loop_step cv slaves sink single dataDir cal hash v.1 v.2⟩

theorem main_run :
    (Runs.run (AcquisitionLine.step cv slaves sink single dataDir cal hash) start events).main =
        Runs.run (MainThread.step sink single dataDir cal hash) start.main
          (Runs.shares (AcquisitionLine.step cv slaves sink single dataDir cal hash) mainShare start events) ∧
      (Runs.outputs (AcquisitionLine.step cv slaves sink single dataDir cal hash) start events).filterMap
          LineOutput.toMain =
        Runs.outputs (MainThread.step sink single dataDir cal hash) start.main
          (Runs.shares (AcquisitionLine.step cv slaves sink single dataDir cal hash) mainShare start events) :=
  ⟨Runs.run_shared AcquisitionLine.main mainShare fun v _ =>
      (main_step cv slaves sink single dataDir cal hash v.1 v.2).1,
    Runs.outputs_shared AcquisitionLine.main mainShare _ fun v _ =>
      main_step cv slaves sink single dataDir cal hash v.1 v.2⟩

/-- Everything that was decoded has been published or is about to be. -/
theorem decoded_run (fresh : start.decoded = []) :
    (Runs.outputs (AcquisitionLine.step cv slaves sink single dataDir cal hash) start events).filterMap
        LineOutput.toPublished ++
        (Runs.run (AcquisitionLine.step cv slaves sink single dataDir cal hash) start events).decoded =
      publications ((Runs.outputs (AcquisitionLine.step cv slaves sink single dataDir cal hash) start events).filterMap
        LineOutput.toWorker) := by
  apply Runs.history_always (AcquisitionLine.step cv slaves sink single dataDir cal hash) events (I := fun l out =>
    out.filterMap LineOutput.toPublished ++ l.decoded = publications (out.filterMap LineOutput.toWorker))
  · simp [fresh, publications, decodeds]
  · intro l out event conserved
    rw [List.filterMap_append, List.filterMap_append, publications_append, ← conserved, List.append_assoc,
      List.append_assoc, decoded_step]

/-- What the main thread is told to put on the bridge is what the line publishes. -/
theorem published_run {handle : Nat} (proper : ∀ e ∈ events, e.Proper sink handle) :
    (Runs.shares (AcquisitionLine.step cv slaves sink single dataDir cal hash) mainShare start events).flatMap
        MainEvent.published =
      (Runs.outputs (AcquisitionLine.step cv slaves sink single dataDir cal hash) start events).filterMap
        LineOutput.toPublished := by
  rw [Runs.shares_hom mainShare _ (List.flatMap MainEvent.published) rfl fun _ _ => List.flatMap_append]
  symm
  apply Runs.filterMap_outputs
  intro v visited
  have allowed := proper _ (Runs.visits_map_snd _ start events ▸ List.mem_map_of_mem visited)
  obtain ⟨l, event⟩ := v
  cases event with
  | worker e =>
    by_cases free : l.decoded = []
    · simp [AcquisitionLine.step, mainShare, free, LineOutput.toPublished, Function.comp_def]
    · simp [AcquisitionLine.step, mainShare, free]
  | publish =>
    cases waiting : l.decoded with
    | nil => simp [AcquisitionLine.step, mainShare, waiting]
    | cons x rest =>
      simp [AcquisitionLine.step, mainShare, waiting, LineOutput.toPublished, MainEvent.published, Function.comp_def]
  | main e =>
    cases e with
    | publish x => exact absurd allowed id
    | _ => simp [AcquisitionLine.step, mainShare, LineOutput.toPublished, MainEvent.published, Function.comp_def]

theorem courteous_run {handle : Nat} (proper : ∀ e ∈ events, e.Proper sink handle) :
    ∀ e ∈ Runs.shares (AcquisitionLine.step cv slaves sink single dataDir cal hash) mainShare start events,
      e.Courteous sink handle := by
  intro e member
  obtain ⟨v, visited, shared⟩ := List.mem_flatMap.mp member
  have allowed := proper _ (Runs.visits_map_snd _ start events ▸ List.mem_map_of_mem visited)
  obtain ⟨l, event⟩ := v
  cases event with
  | worker e => cases shared
  | publish =>
    obtain ⟨x, -, rfl⟩ := List.mem_map.mp shared
    trivial
  | main e' =>
    obtain rfl := List.mem_singleton.mp shared
    cases e with
    | publish x => trivial
    | _ => exact allowed

end Run

section Origin
variable (points : List (PointRuntime D))

/-- A value that an answer brought: of an enabled point, by the cells that its slave held when the read was
served. -/
structure Originates (done : List (Sent × Answer)) (p : Publication D) : Prop where
  answered : ∃ x ∈ done, ∃ pr ∈ points, pr.enabled = true ∧ x.1.req.slaveAddress = pr.slaveAddress ∧
    p.1 = pr.pointId ∧ p.2.2 = pointReading cv (cellAt x.2 x.1.req.startingAddress.toNat) pr

variable {points} {x : Sent × Answer} {d : Decoded D}

theorem Takes.samples (takes : Takes cv points x d) : d.samples = d.segment.points.map fun pr =>
    (pr.pointId, d.timestamp, pointReading cv (cellAt x.2 d.segment.startAddr.toNat) pr) := by
  rw [Decoded.samples, takes.values, List.filterMap_map]
  exact List.filterMap_eq_map_iff_forall_eq_some.mpr fun _ _ => rfl

/-- What was taken apart is the answer to some poll. -/
theorem exists_taken {polls : List (Sent × Answer)} {ds : List (Decoded D)}
    (taken : List.Forall₂ (Takes cv points) polls ds) : ∀ d ∈ ds, ∃ x ∈ polls, Takes cv points x d := by
  induction taken with
  | nil => exact List.forall_mem_nil _
  | cons first rest ih =>
    rw [List.forall_mem_cons]
    constructor
    · exact ⟨_, List.mem_cons_self, first⟩
    · intro d member
      obtain ⟨x, found, takes⟩ := ih d member
      exact ⟨x, List.mem_cons_of_mem _ found, takes⟩

theorem originates_publications {out : List (PollOutput D)} {done : List (Sent × Answer)}
    (taken : List.Forall₂ (Takes cv points) (done.filter fun x => isCells x.2) (decodeds out)) :
    ∀ p ∈ publications out, Originates cv points done p := by
  intro p member
  obtain ⟨d, decoded, own⟩ := List.mem_flatMap.mp member
  obtain ⟨x, found, takes⟩ := exists_taken cv taken d decoded
  have answered := (List.mem_filter.mp found).1
  rw [takes.samples, List.mem_map] at own
  obtain ⟨pr, holds, rfl⟩ := own
  obtain ⟨listed, reads⟩ := reads_buildSegments takes.planned holds
  refine ⟨x, answered, pr, listed, reads.enabled, ?_, rfl, ?_⟩
  · rw [takes.asked, reads.slave]
    rfl
  · rw [takes.asked]
    rfl

end Origin

section Acquired
variable (table : PointTable D) (bank : RegisterBank)

/-- The line before anything has happened, with the store that was set up from the table. -/
def AcquisitionLine.start (l1 : L1SnapshotStore (Sample K)) (bbx : BlackBox (Sample K)) : AcquisitionLine σ D K where
  loop := (Loop.start (polledPoints table) bank, { device := bank.image slaves })
  main := MainThread.start sink l1 bbx

/-- What a line has come to: every decoded value is taken, displaced, on the bridge or not yet published,
once and in order; what was taken has reached the main thread; it came with an answer of the
slave of its point, and its point has a buffer in the store. -/
structure Acquired (first l : AcquisitionLine σ D K) (out : List (LineOutput σ D K))
    (done awaited : List (Sent × Answer)) (events : List (MainEvent σ D K)) (taken : List (Publication D)) : Prop where
  polled : Polled cv slaves (polledPoints table) l.loop.1 l.loop.2 (out.filterMap LineOutput.toWorker) done awaited
  delivered : Delivered sink single dataDir cal first.main events l.main (out.filterMap LineOutput.toMain) taken
  conserved : ((out.filterMap LineOutput.toMain).filterMap MainOutput.toLeft).map Removal.item ++ l.main.bridge.q ++
    l.decoded = publications (out.filterMap LineOutput.toWorker)
  origin : ∀ x ∈ taken, Originates cv (polledPoints table) done x
  registered : ∀ x ∈ taken, (l.main.capture.l1.lookup x.1).isSome = true

/-- Whatever order the events of the simulator, the worker and the main thread come in, a sample that reaches
the main thread is the reading of an enabled point of the table, by the cells that its slave held when the poll
was served. -/
theorem readings_acquired {blank : Sample K} {l1 : L1SnapshotStore (Sample K)} (bbx : BlackBox (Sample K))
    (events : List (LineEvent σ D K))
    (made : L1SnapshotStore.initFromPolicy blank {} (l1Policy table) = .ok (true, l1)) (addressable : bank.Addressable)
    (orderly : ∀ v ∈ Runs.visits (AcquisitionLine.step cv slaves sink single dataDir cal hash)
      (AcquisitionLine.start slaves sink table bank l1 bbx) events, ∀ e, v.2 = .worker e → e.Orderly v.1.loop.1)
    (proper : ∀ e ∈ events, e.Proper sink 1) :
    let first : AcquisitionLine σ D K := AcquisitionLine.start slaves sink table bank l1 bbx
    let machine := AcquisitionLine.step cv slaves sink single dataDir cal hash
    ∃ done awaited calls taken, Acquired cv slaves sink single dataDir cal table first (Runs.run machine first events)
      (Runs.outputs machine first events) done awaited calls taken := by
  intro first machine
  have ordered : ∀ u ∈ Runs.visits (closedLoop cv slaves) first.loop (Runs.shares machine loopShare first events),
      u.2.Orderly u.1.1 := by
    apply Runs.visits_shared (fun l : AcquisitionLine σ D K => l.loop) loopShare (A := fun u e => e.Orderly u.1)
      (fun v _ => (loop_step cv slaves sink single dataDir cal hash v.1 v.2).1)
    intro v visited u within
    have allowed := orderly v visited
    obtain ⟨l, event⟩ := v
    cases event with
    | worker e =>
      simp only [loopShare] at within
      split at within
      · obtain rfl := List.mem_singleton.mp within
        exact allowed e rfl
      · cases within
    | publish => cases within
    | main e => cases within
  obtain ⟨loops, heard⟩ := loop_run cv slaves sink single dataDir cal hash first events
  obtain ⟨mains, told⟩ := main_run cv slaves sink single dataDir cal hash first events
  obtain ⟨done, awaited, linked⟩ := linked_run cv slaves (polledPoints table) addressable _ ordered
  have polled := linked.polled
  have sunk : Sunk sink 1 first.main := sunk_start l1 bbx
  obtain ⟨taken, delivered⟩ := delivered_run sink single dataDir cal hash sunk
    (courteous_run cv slaves sink single dataDir cal hash first events proper)
  change Polled cv slaves (polledPoints table) (Runs.run (closedLoop cv slaves) first.loop _).1
    (Runs.run (closedLoop cv slaves) first.loop _).2 (Runs.outputs (closedLoop cv slaves) first.loop _) done
    awaited at polled
  rw [← loops, ← heard] at polled
  rw [← mains, ← told] at delivered
  have published := published_run cv slaves sink single dataDir cal hash first events proper
  have decoded := decoded_run cv slaves sink single dataDir cal hash first events rfl
  have conserved := delivered.bridge
  rw [published] at conserved
  have whole : (((Runs.outputs machine first events).filterMap LineOutput.toMain).filterMap MainOutput.toLeft).map
      Removal.item ++ (Runs.run machine first events).main.bridge.q ++ (Runs.run machine first events).decoded =
      publications ((Runs.outputs machine first events).filterMap LineOutput.toWorker) := by
    rw [conserved, ← decoded]
    rfl
  have origin : ∀ x ∈ taken, Originates cv (polledPoints table) done x := by
    intro x member
    apply originates_publications cv polled.taken
    rw [← delivered.removed] at member
    rw [← whole]
    exact List.mem_append_left _ (List.mem_append_left _ ((takenOf_sublist _).subset member))
  exact ⟨done, awaited, _, taken,
    { polled := polled
      delivered := delivered
      conserved := whole
      origin := origin
      registered := by
        intro x member
        obtain ⟨-, -, pr, listed, enabled, -, own, -⟩ := (origin x member).answered
        have held : (l1.lookup x.1).isSome = true := own ▸ isSome_l1Policy made listed enabled
        rw [delivered.stored, Option.isSome_map]
        exact held }⟩

end Acquired

end Machine
section Example
open PollWorld

attribute [local instance] extendedToString

/-- A table of two registers of slave 1. -/
def pairTable : PointTable Int where
  byPointId :=
    { entries := [⟨7, { pointId := 7, slaveAddress := 1, registerAddr := 0, scaleFactor := 1, offset := 0 }⟩,
        ⟨8, { pointId := 8, slaveAddress := 1, registerAddr := 1, scaleFactor := 1, offset := 0 }⟩]
      nodupKeys := by simp [List.NodupKeys, List.keys] }

/-- A poll whose two values are published with a round in between. -/
def onePoll : List (LineEvent Nat Int Extended) :=
  [.worker (.startPolling 100), .worker .tick, .worker .serve, .worker (.deliver ⟨50, 1050⟩ 100), .publish,
    .main (.consume ⟨1060, 60, 1060, HashOrder.insertion _⟩), .worker .tick, .publish]

def readingOf (n : Int) : Extended := extended n

/-- The store that the application sets up for it. -/
def pairStore : L1SnapshotStore (Sample Extended) :=
  match L1SnapshotStore.initFromPolicy blankSample {} (l1Policy pairTable) with
  | .ok (_, store) => store
  | .error _ => {}

theorem made_pairStore :
    L1SnapshotStore.initFromPolicy blankSample {} (l1Policy pairTable) = .ok (true, pairStore) := by
  have apart : ¬SpansIds (l1Policy pairTable) := fun spans => absurd spans.1 (by decide)
  obtain ⟨store, made, -⟩ := L1SnapshotStore.initFromPolicy_registers blankSample {} (by decide) apart
  rw [pairStore, made]

theorem orderly_onePoll : ∀ v ∈ Runs.visits
    (AcquisitionLine.step integers [1] 3 readingOf "data" january (HashOrder.insertion _))
    (AcquisitionLine.start [1] 3 pairTable fourRegisters pairStore blankBox) onePoll,
    ∀ e, v.2 = .worker e → e.Orderly v.1.loop.1 := by
  intro v visited
  simp only [onePoll, Runs.visits, List.mem_cons, List.not_mem_nil, or_false] at visited
  rcases visited with rfl | rfl | rfl | rfl | rfl | rfl | rfl | rfl
  · intro e worker
    cases worker
    trivial
  · intro e worker
    cases worker
    trivial
  · intro e worker
    cases worker
    trivial
  · intro e worker
    cases worker
    exact Nat.le_of_ble_eq_true (by decide +kernel)
  · intro e worker
    cases worker
  · intro e worker
    cases worker
  · intro e worker
    cases worker
    trivial
  · intro e worker
    cases worker

theorem readings_acquired_pair :
    let first := AcquisitionLine.start [1] 3 pairTable fourRegisters pairStore blankBox
    let machine := AcquisitionLine.step integers [1] 3 readingOf "data" january (HashOrder.insertion _)
    ∃ done awaited calls taken, Acquired integers [1] 3 readingOf "data" january pairTable first
      (Runs.run machine first onePoll) (Runs.outputs machine first onePoll) done awaited calls taken := by
  apply readings_acquired integers [1] 3 readingOf "data" january (HashOrder.insertion _) pairTable fourRegisters
    blankBox onePoll made_pairStore addressable_fourRegisters
  · exact orderly_onePoll
  · intro e member
    simp only [onePoll, List.mem_cons, List.not_mem_nil, or_false] at member
    rcases member with rfl | rfl | rfl | rfl | rfl | rfl | rfl | rfl <;> trivial

end Example

end EnerSentry.App
