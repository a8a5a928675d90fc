import EnerSentry.App.PollTransitions
import EnerSentry.Protocol.TransactionPairing

/-!
The read that a tick hands to the channel, as the state before it determines it: the driver
has to be free, the segment is the next one of the plan, and the engine needs a free id and
a request that a frame can be built for. The scheduler has no say, since its queues are empty
between two ticks and no link waits to be freed.
-/

namespace EnerSentry.Protocol
open EnerSentry.Lib

/-- A link with nothing to do that need not be freed. -/
structure LinkState.Idle (link : LinkState) : Prop where
  fullDuplex : link.params.isHalfDuplex = false
  high : link.highPriorityQueue = []
  normal : link.normalQueue = []
  low : link.lowPriorityQueue = []

/-- The task that is put in comes out. -/
theorem LinkState.Idle.round {link : LinkState} (idle : link.Idle) (slave : UInt8) (intervalMs : UInt32) :
    ∃ next : LinkState, next.Idle ∧
      (link.enqueue (.normal slave slave intervalMs)).dequeueNext = (next, .normal slave slave intervalMs) := by
  obtain ⟨fullDuplex, high, normal, low⟩ := idle
  have queued : link.enqueue (.normal slave slave intervalMs) =
      { link with normalQueue := [.normal slave slave intervalMs] } := by
    simp [LinkState.enqueue, PollTask.normal, normal]
  rw [queued]
  refine ⟨{ link with normalQueue := [], consecutivePreemptCount := link.consecutivePreemptCount + 1, busy := true },
    ⟨fullDuplex, high, rfl, low⟩, ?_⟩
  simp only [LinkState.dequeueNext, fullDuplex, Bool.false_and, Bool.false_eq_true, if_false, high, low]
  cases decide (link.params.maxConsecutivePreempt ≤ link.consecutivePreemptCount) <;> rfl

namespace PollScheduler
variable {s : PollScheduler} {slave : UInt8}

/-- What a tick does to the scheduler. -/
def round (s : PollScheduler) (slave : UInt8) : PollScheduler × PollTask :=
  (s.enqueue (.normal slave slave 1000)).dequeueNext slave

theorem round_idle {link : LinkState} (known : s.links slave = some link) (idle : link.Idle) :
    (s.round slave).2 = .normal slave slave 1000 ∧
      ∀ sid l, s.links sid = some l → l.Idle → ∃ l', (s.round slave).1.links sid = some l' ∧ l'.Idle := by
  obtain ⟨next, still, served⟩ := idle.round slave 1000
  have queued : (s.enqueue (.normal slave slave 1000)).links slave =
      some (link.enqueue (.normal slave slave 1000)) := by
    simp only [enqueue, PollTask.normal, Function.update_self, known, Option.getD_some]
  have turned : s.round slave = ({ s.enqueue (.normal slave slave 1000) with
      links := Function.update (s.enqueue (.normal slave slave 1000)).links slave (some next) },
      .normal slave slave 1000) := by
    simp only [round, dequeueNext, queued, served]
  rw [turned]
  refine ⟨rfl, fun sid l there rests => ?_⟩
  by_cases own : sid = slave
  · subst own
    exact ⟨next, Function.update_self .., still⟩
  · refine ⟨l, ?_, rests⟩
    simp only [Function.update_of_ne own, enqueue, PollTask.normal]
    exact there

/-- The task of a device with an address is one to serve. -/
theorem round_valid {link : LinkState} (known : s.links slave = some link) (idle : link.Idle) (named : slave ≠ 0) :
    (s.round slave).2.isValid = true := by
  rw [(round_idle known idle).1]
  simpa [PollTask.isValid, PollTask.normal] using named

theorem links_onResponseReceived (ok : Bool) (nowMs : Int) :
    (s.onResponseReceived slave ok nowMs).1.links = s.links := by
  simp only [onResponseReceived]
  split
  · rfl
  · split <;> rfl

end PollScheduler

namespace ModbusEngine

/-- An id is marked when it has an entry, and 0 has none. -/
def Tidy (e : ModbusEngine) : Prop := Paired (e, e.inFlight)

/-- A request over TCP with the id it draws, if there is one and a frame can be built. -/
def drawn (e : ModbusEngine) (req : ModbusRequest) : Option ModbusRequest :=
  if e.txIdAllocator.allocate.1 ≠ 0 ∧ req.Buildable then
    some { req with transactionId := e.txIdAllocator.allocate.1 }
  else none

section Tidy
variable {e : ModbusEngine} {req sent : ModbusRequest} {channel : Channel} {linkId : UInt32} {frame : List UInt8}

theorem Tidy.free (tidy : e.Tidy) {tid : UInt16} (unused : e.txIdAllocator.used tid = false) : e.inFlight tid = none :=
  Paired.free tidy unused

theorem tidy_start : ({ transport := .tcp } : ModbusEngine).Tidy := paired_start

/-- Taking an id back that was just given out changes nothing. -/
theorem Tidy.undo (tidy : e.Tidy) {tid : UInt16} (nonzero : tid ≠ 0) (unused : e.txIdAllocator.used tid = false)
    (entry : InFlightEntry) : (e.register tid entry).forget tid = e := by
  have free := tidy.free unused
  have marks : ((e.txIdAllocator.mark tid).release tid) = e.txIdAllocator := by
    simp only [TransactionIdAllocator.release, TransactionIdAllocator.mark, TransactionIdAllocator.invalidId,
      if_neg nonzero,
      Function.update_idem]
    rw [← unused, Function.update_eq_self]
  simp only [register_of_free free, forget, marks, Function.update_idem, update_none free]

/-- Without an id or a frame, a write leaves nothing behind. -/
theorem Tidy.write_none (tidy : e.Tidy) (tcp : req.transport = .tcp) (none : e.drawn req = none) :
    e.writeRequest (some channel) req linkId = ⟨e, -1, .none⟩ := by
  have pairs : e.Pairs req := ⟨tidy.tcp, tcp⟩
  have blocked : ¬(e.txIdAllocator.allocate.1 ≠ 0 ∧ req.Buildable) := by
    intro both
    rw [drawn, if_pos both] at none
    cases none
  have written := write_cases e (some channel) req linkId
  generalize e.writeRequest (some channel) req linkId = w at written
  cases written with
  | closed absent => cases absent
  | exhausted => rfl
  | undone _ tid nonzero unused => rw [tidy.undo nonzero unused]
  | paired _ c present tid nonzero unused built drawn => exact absurd ⟨drawn ▸ nonzero, built⟩ blocked
  | dropped unpaired => exact absurd pairs unpaired
  | rejected unpaired => rfl
  | passed unpaired => exact absurd pairs unpaired

/-- With both, the request is entered and goes to the channel. -/
theorem Tidy.write_some (tidy : e.Tidy) (tcp : req.transport = .tcp) (some' : e.drawn req = some sent) :
    e.writeRequest (some channel) req linkId =
      ⟨e.register sent.transactionId ⟨linkId, req.slaveAddress⟩, channel (buildRequest sent), some sent⟩ := by
  have pairs : e.Pairs req := ⟨tidy.tcp, tcp⟩
  obtain ⟨⟨exists_, built⟩, same⟩ := Option.ite_none_right_eq_some.mp some'
  have named : sent = { req with transactionId := e.txIdAllocator.allocate.1 } := (Option.some.inj same).symm
  have written := write_cases e (some channel) req linkId
  generalize e.writeRequest (some channel) req linkId = w at written
  cases written with
  | closed absent => cases absent
  | exhausted _ _ _ drawn => exact absurd drawn exists_
  | undone _ _ _ _ broken => exact absurd built broken
  | paired _ c present tid nonzero unused _ drawn =>
    obtain rfl := Option.some.inj present
    rw [named, drawn]
  | dropped unpaired => exact absurd pairs unpaired
  | rejected unpaired => exact absurd pairs unpaired
  | passed unpaired => exact absurd pairs unpaired

/-- The id that is drawn is free. -/
theorem drawn_spec (some' : e.drawn req = some sent) : sent = { req with transactionId := sent.transactionId } ∧
    sent.transactionId ≠ 0 ∧ e.txIdAllocator.used sent.transactionId = false ∧ req.Buildable := by
  obtain ⟨⟨nonzero, built⟩, same⟩ := Option.ite_none_right_eq_some.mp some'
  obtain rfl := Option.some.inj same
  refine ⟨rfl, nonzero, ?_, built⟩
  obtain ⟨allocated, -⟩ | ⟨id, -, unused, allocated⟩ := e.txIdAllocator.allocate_cases
  · exact absurd (congrArg Prod.fst allocated) nonzero
  · rw [congrArg Prod.fst allocated]
    exact unused

theorem Tidy.register (tidy : e.Tidy) (some' : e.drawn req = some sent) (entry : InFlightEntry) :
    (e.register sent.transactionId entry).Tidy ∧
      (e.register sent.transactionId entry).inFlight = Function.update e.inFlight sent.transactionId (some entry) := by
  obtain ⟨-, nonzero, unused, -⟩ := drawn_spec some'
  have table : (e.register sent.transactionId entry).inFlight =
      Function.update e.inFlight sent.transactionId (some entry) := by
    rw [register_of_free (tidy.free unused)]
  have paired : Paired (e.register sent.transactionId entry,
      Function.update e.inFlight sent.transactionId (some entry)) :=
    Paired.register tidy nonzero unused
  exact ⟨by rwa [Tidy, table], table⟩

/-- A frame takes the entry with its id out of the table. -/
theorem Tidy.onFrame (tidy : e.Tidy) (frame : List UInt8) :
    (e.onFrame frame).1.Tidy ∧ (e.onFrame frame).1.inFlight = Owners.settle e.inFlight frame := by
  have paired : Paired ((e.onFrame frame).1, Owners.settle e.inFlight frame) := Paired.onFrame tidy frame
  have table := paired.owners
  refine ⟨?_, table⟩
  rw [Tidy, table]
  exact paired

theorem Tidy.receive (tidy : e.Tidy) (data : List UInt8) :
    (e.receive data).1.Tidy ∧ (e.receive data).1.inFlight = e.inFlight := by
  have paired : Paired ((e.receive data).1, e.inFlight) := Paired.receive tidy data
  have table := paired.owners
  refine ⟨?_, table⟩
  rw [Tidy, table]
  exact paired

theorem Tidy.onConnectionChanged (tidy : e.Tidy) (connected : Bool) : (e.onConnectionChanged connected).Tidy := by
  cases connected with
  | true => exact tidy
  | false => exact ⟨tidy.tcp, fun _ => rfl, rfl, rfl⟩

end Tidy
end ModbusEngine
end EnerSentry.Protocol

namespace EnerSentry.App
open EnerSentry.Lib EnerSentry.Protocol

variable {K : Type*}

namespace PollWorld

/-- The signal makes the driver give its pending poll up, for better or worse. -/
def Gives (w : PollWorld K) : EngineSignal → Prop
  | .responseParsed linkId slave resp => isRead resp ∧ w.driver.expects linkId slave resp = true
  | .frameError linkId slave kind => w.driver.failsPending linkId slave kind = true

/-- The frame does: it is no response, or one that is in flight and looks like the answer. -/
def GivesFor (w : PollWorld K) (frame : List UInt8) : Prop :=
  match parseTcpResponse frame with
  | none => w.driver.pending.active = true
  | some resp => ∃ entry, w.engine.inFlight resp.transactionId = some entry ∧ isRead resp ∧
      w.driver.expects entry.linkId entry.slaveAddress resp = true

/-- Nothing of the driver changes but that it may give its pending poll up. -/
structure Settles (w w' : PollWorld K) (given : Prop) : Prop where
  links : w'.scheduler.links = w.scheduler.links
  gives : given → w'.driver = w.driver.resetPending
  keeps : ¬given → w'.driver = w.driver

section Settles
variable {w w' w'' : PollWorld K} {given : Prop}

theorem Settles.refl (kept : ¬given) : w.Settles w given := ⟨rfl, fun gives => absurd gives kept, fun _ => rfl⟩

theorem Settles.keep (first : w.Settles w' given) (links : w''.scheduler.links = w'.scheduler.links)
    (driver : w''.driver = w'.driver) : w.Settles w'' given :=
  ⟨links.trans first.links, fun gives => driver.trans (first.gives gives), fun kept => driver.trans (first.keeps kept)⟩

theorem settles_settle {clock : Clock} {slave : UInt8} {ok : Bool} (gives : given) :
    w.Settles (w.settle clock slave ok).1 given :=
  ⟨PollScheduler.links_onResponseReceived ok clock.steadyMs, fun _ => rfl, fun kept => absurd gives kept⟩

theorem failsPending_malformed (d : PollDriver K) : d.failsPending 0 0 .malformed = d.pending.active := by
  have exception : (FrameErrorKind.malformed != FrameErrorKind.exception) = true := by decide
  have spurious : (FrameErrorKind.malformed != FrameErrorKind.spurious) = true := by decide
  simp [PollDriver.failsPending, exception, spurious]

theorem not_failsPending {kind : FrameErrorKind} (other : kind = .spurious ∨ kind = .exception) (d : PollDriver K)
    (linkId : UInt32) (slave : UInt8) : ¬d.failsPending linkId slave kind = true := by
  rcases other with rfl | rfl <;> simp [PollDriver.failsPending]

end Settles

section Signals
variable [Zero K] [One K] [Add K] [Mul K] {cv : Conversions K} {w : PollWorld K} {clock : Clock} {frame : List UInt8}

theorem settles_onSignal (cv : Conversions K) (clock : Clock) (w : PollWorld K) (signal : EngineSignal) :
    (w.onSignal cv clock signal).1.engine = w.engine ∧
    w.Settles (w.onSignal cv clock signal).1 (w.Gives signal) := by
  cases signal with
  | responseParsed linkId slave resp =>
    simp only [onSignal, onResponseParsed, Gives, isRead, Bool.or_eq_true, decide_eq_true_eq]
    split
    · rename_i outside
      refine ⟨rfl, Settles.refl fun gives => ?_⟩
      exact outside.elim (UInt8.not_lt.mpr gives.1.1) (UInt8.not_lt.mpr gives.1.2)
    · rename_i inside
      rw [not_or, UInt8.not_lt, UInt8.not_lt] at inside
      split
      · rename_i unexpected
        refine ⟨rfl, Settles.refl fun gives => ?_⟩
        rw [gives.2] at unexpected
        cases unexpected
      · rename_i expected
        rw [Bool.not_eq_true, Bool.not_eq_false'] at expected
        split
        · exact ⟨rfl, settles_settle ⟨inside, expected⟩⟩
        · exact ⟨rfl, settles_settle ⟨inside, expected⟩⟩
  | frameError linkId slave kind =>
    simp only [onSignal, onFrameError, Gives]
    split
    · rename_i fails
      exact ⟨rfl, settles_settle fails⟩
    · rename_i kept
      exact ⟨rfl, Settles.refl kept⟩

/-- The first signal of a frame decides; only an exception has a second one, which is not for
the driver. -/
theorem settles_first (cv : Conversions K) (clock : Clock) {signal : EngineSignal} {rest : List EngineSignal}
    (signals : (w.engine.onFrame frame).2 = signal :: rest) (decides : w.Gives signal ↔ w.GivesFor frame)
    (others : rest = [] ∨ ∃ linkId slave, rest = [.frameError linkId slave .exception]) :
    (w.onFrame cv clock frame).1.engine = (w.engine.onFrame frame).1 ∧
      w.Settles (w.onFrame cv clock frame).1 (w.GivesFor frame) := by
  generalize handled : ({ w with engine := (w.engine.onFrame frame).1 } : PollWorld K) = v
  have same : v.engine = (w.engine.onFrame frame).1 ∧ v.scheduler = w.scheduler ∧ v.driver = w.driver := by
    subst handled
    exact ⟨rfl, rfl, rfl⟩
  obtain ⟨engine, scheduler, driver⟩ := same
  have framed : (w.onFrame cv clock frame).1 = Runs.run (onSignal cv clock) v (w.engine.onFrame frame).2 := by
    rw [← handled]
    rfl
  obtain ⟨kept, settled⟩ := settles_onSignal cv clock v signal
  have given : v.Gives signal ↔ w.GivesFor frame := by
    rw [← decides]
    cases signal <;> simp only [Gives, driver]
  have start : w.Settles (v.onSignal cv clock signal).1 (w.GivesFor frame) :=
    ⟨settled.links.trans (congrArg _ scheduler),
      fun gives => (settled.gives (given.mpr gives)).trans (congrArg _ driver),
      fun keeps => (settled.keeps fun gives => keeps (given.mp gives)).trans driver⟩
  rw [framed, signals, Runs.run]
  rcases others with rfl | ⟨linkId, slave, rfl⟩
  · exact ⟨kept.trans engine, start⟩
  · obtain ⟨kept', settled'⟩ := settles_onSignal cv clock (v.onSignal cv clock signal).1
      (.frameError linkId slave .exception)
    have quiet := settled'.keeps (not_failsPending (Or.inr rfl) _ linkId slave)
    exact ⟨kept'.trans (kept.trans engine), start.keep settled'.links quiet⟩

/-- A frame takes its way through the engine, and the driver gives the pending poll up or not. -/
theorem settles_onFrame (cv : Conversions K) (clock : Clock) (tcp : w.engine.transport = .tcp) (frame : List UInt8) :
    (w.onFrame cv clock frame).1.engine = (w.engine.onFrame frame).1 ∧
      w.Settles (w.onFrame cv clock frame).1 (w.GivesFor frame) := by
  cases parsed : parseTcpResponse frame with
  | none =>
    have signals : (w.engine.onFrame frame).2 = [.frameError 0 0 .malformed] := by
      simp only [ModbusEngine.onFrame, tcp, if_true, parsed]
    have decides : w.Gives (.frameError 0 0 .malformed) ↔ w.GivesFor frame := by
      simp only [Gives, GivesFor, parsed, failsPending_malformed]
    exact settles_first cv clock signals decides (Or.inl rfl)
  | some resp =>
    cases hit : w.engine.inFlight resp.transactionId with
    | none =>
      have signals : (w.engine.onFrame frame).2 = [.frameError 0 resp.slaveAddress .spurious] := by
        simp only [ModbusEngine.onFrame, tcp, if_true, parsed, hit]
      have decides : w.Gives (.frameError 0 resp.slaveAddress .spurious) ↔ w.GivesFor frame := by
        refine iff_of_false (not_failsPending (Or.inl rfl) _ 0 resp.slaveAddress) ?_
        simp only [GivesFor, parsed, hit, reduceCtorEq, false_and, exists_false, not_false_eq_true]
      exact settles_first cv clock signals decides (Or.inl rfl)
    | some entry =>
      have signals := congrArg Prod.snd (ModbusEngine.onFrame_hit tcp parsed hit)
      have decides : w.Gives (.responseParsed entry.linkId entry.slaveAddress resp) ↔ w.GivesFor frame := by
        simp only [Gives, GivesFor, parsed, hit, Option.some.injEq, exists_eq_left']
      rw [ModbusEngine.reportResponse] at signals
      split at signals
      · exact settles_first cv clock signals decides (Or.inr ⟨_, _, rfl⟩)
      · exact settles_first cv clock signals decides (Or.inl rfl)

end Signals

/-- The segment that a tick would poll. -/
def turn (w : PollWorld K) : Option (Segment K) :=
  if w.driver.running = true ∧ w.driver.pending.active = false then
    w.driver.segments[w.driver.nextSegIdx % w.driver.segments.length]?
  else none

/-- The read that a tick hands to the channel. -/
def due (w : PollWorld K) : Option ModbusRequest := w.turn.bind fun seg => w.engine.drawn (readRequest seg)

/-- What every reachable world has: the books of the engine agree, the plan is that of the point
table, a timer runs while polling is on, and the links of the plan are idle between events. -/
structure Ready (points : List (PointRuntime K)) (w : PollWorld K) : Prop where
  tidy : w.engine.Tidy
  segments : w.driver.segments = buildSegments points
  armed : w.driver.running = true → w.driver.armed ≠ 0
  links : ∀ seg ∈ buildSegments points, ∃ link, w.scheduler.links seg.slave = some link ∧ link.Idle

/-- The driver of the next tick, `passed` segments on in its plan. -/
structure Turned (w : PollWorld K) (d : PollDriver K) (passed : Nat) : Prop where
  pending : d.pending = w.driver.pending
  segments : d.segments = w.driver.segments
  running : d.running = w.driver.running
  armed : d.running = true → d.armed ≠ 0
  next : d.nextSegIdx = w.driver.nextSegIdx + passed

section Ticks
variable {points : List (PointRuntime K)} {w : PollWorld K} {channel : Channel} {seg : Segment K} {req : ModbusRequest}

theorem turned_scheduleNext {d : PollDriver K} {passed : Nat} (pending : d.pending = w.driver.pending)
    (segments : d.segments = w.driver.segments) (running : d.running = w.driver.running)
    (next : d.nextSegIdx = w.driver.nextSegIdx + passed) : w.Turned d.scheduleNext passed := by
  unfold PollDriver.scheduleNext
  split
  · exact ⟨pending, segments, running, fun _ => Nat.succ_ne_zero _, next⟩
  · rename_i stopped
    exact ⟨pending, segments, running, fun still => absurd still stopped, next⟩

/-- A tick that finds the driver stopped or busy, or nothing to poll, changes its timer at most. -/
theorem onTimeout_none (ready : Ready points w) (channel : Channel) (none : w.turn = none) :
    ∃ d, w.Turned d 0 ∧ w.onTimeout channel = ({ w with driver := d }, []) := by
  unfold onTimeout
  by_cases unarmed : w.driver.armed = 0
  · rw [if_pos unarmed]
    exact ⟨w.driver, ⟨rfl, rfl, rfl, ready.armed, rfl⟩, rfl⟩
  · rw [if_neg unarmed]
    unfold onPollTick
    by_cases stopped : w.driver.running = false
    · rw [if_pos (by rw [stopped]; rfl)]
      exact ⟨{ w.driver with armed := w.driver.armed - 1 },
        ⟨rfl, rfl, rfl, fun still => absurd (still.symm.trans stopped) (by decide), rfl⟩, rfl⟩
    · rw [Bool.not_eq_false] at stopped
      have rest : w.Turned ({ w.driver with armed := w.driver.armed - 1 } : PollDriver K).scheduleNext 0 :=
        turned_scheduleNext rfl rfl rfl rfl
      rw [if_neg (by rw [stopped]; decide)]
      by_cases busy : w.driver.pending.active = true
      · rw [if_pos busy]
        exact ⟨_, rest, rfl⟩
      · rw [if_neg busy]
        rw [turn, if_pos ⟨stopped, Bool.not_eq_true _ ▸ busy⟩] at none
        simp only [none]
        exact ⟨_, rest, rfl⟩

/-- A request that the engine cannot send leaves the world as it is. -/
theorem write_none (w : PollWorld K) (channel : Channel) (linkId : UInt32) (tidy : w.engine.Tidy)
    (tcp : req.transport = .tcp)
    (none : w.engine.drawn req = none) : w.write channel req linkId = (w, -1, []) := by
  simp only [write, tidy.write_none tcp none]

theorem write_some (w : PollWorld K) (channel : Channel) (linkId : UInt32) {sent : ModbusRequest} (tidy : w.engine.Tidy)
    (tcp : req.transport = .tcp) (some' : w.engine.drawn req = some sent) : w.write channel req linkId =
      ({ w with engine := w.engine.register sent.transactionId ⟨linkId, req.slaveAddress⟩ },
        channel (buildRequest sent),
        [.written linkId sent (channel (buildRequest sent))]) := by
  simp only [write, tidy.write_some tcp some']

/-- A segment that the engine has no request for is passed over. -/
theorem pollSegment_none (w : PollWorld K) (channel : Channel) (index : Nat) (tidy : w.engine.Tidy)
    (none : w.engine.drawn (readRequest seg) = none) :
    w.pollSegment channel index seg = ({ w with
      scheduler := (w.scheduler.round seg.slave).1
      driver := ({ w.driver with nextSegIdx := w.driver.nextSegIdx + 1 } : PollDriver K).scheduleNext }, []) := by
  have quiet := write_none ⟨w.engine, (w.scheduler.round seg.slave).1, { w.driver with
    nextSegIdx := w.driver.nextSegIdx + 1 }⟩ channel seg.slave.toUInt32 tidy rfl none
  simp only [pollSegment]
  split
  · rfl
  · rw [PollScheduler.round] at quiet
    rw [quiet]
    rfl

/-- A segment that it has one for is polled, and pending when the channel takes the request. -/
theorem pollSegment_some (w : PollWorld K) (channel : Channel) (index : Nat) (tidy : w.engine.Tidy)
    (running : w.driver.running = true) (valid : (w.scheduler.round seg.slave).2.isValid = true)
    (drawn : w.engine.drawn (readRequest seg) = some req) : w.pollSegment channel index seg =
      ({ engine := w.engine.register req.transactionId ⟨seg.slave.toUInt32, seg.slave⟩
         scheduler := (w.scheduler.round seg.slave).1
         driver :=
          let d := ({ w.driver with nextSegIdx := w.driver.nextSegIdx + 1 } : PollDriver K).scheduleNext
          if channel (buildRequest req) < 0 then d else { d with pending :=
            ⟨seg.slave.toUInt32, seg.slave, fcForRead seg.rt, seg.startAddr, seg.qty, index, true⟩ } },
        [.written seg.slave.toUInt32 req (channel (buildRequest req))]) := by
  have wrote := write_some ⟨w.engine, (w.scheduler.round seg.slave).1, { w.driver with
    nextSegIdx := w.driver.nextSegIdx + 1 }⟩ channel seg.slave.toUInt32 tidy rfl drawn
  rw [PollScheduler.round] at valid wrote ⊢
  simp only [pollSegment, valid, Bool.not_true, Bool.false_eq_true, if_false, wrote]
  by_cases refused : channel (buildRequest req) < 0
  · simp only [if_pos refused]
    rfl
  · simp only [if_neg refused, scheduleNext, PollDriver.scheduleNext, running, if_true]
    rfl

/-- A tick polls the segment whose turn it is. -/
theorem onTimeout_turn (armed : w.driver.armed ≠ 0) (channel : Channel) (some' : w.turn = some seg) :
    w.onTimeout channel = ({ w with driver := { w.driver with armed := w.driver.armed - 1 } } : PollWorld K).pollSegment
      channel (w.driver.nextSegIdx % w.driver.segments.length) seg := by
  obtain ⟨⟨running, free⟩, planned⟩ := Option.ite_none_right_eq_some.mp some'
  unfold onTimeout onPollTick
  rw [if_neg armed, if_neg (by rw [running]; decide), if_neg (by rw [free]; decide)]
  simp only [planned]

/-- A tick that finds the driver free passes one segment on, and sends what the engine makes of it. -/
theorem onTimeout_some (ready : Ready points w) (channel : Channel) (some' : w.turn = some seg) :
    ∃ d s, w.Turned d 1 ∧ (∀ seg ∈ buildSegments points, ∃ link, s.links seg.slave = some link ∧ link.Idle) ∧
      (w.engine.drawn (readRequest seg) = none →
        w.onTimeout channel = ({ w with scheduler := s, driver := d }, [])) ∧
      ∀ req, w.engine.drawn (readRequest seg) = some req → ∃ index, w.onTimeout channel =
        ({ engine := w.engine.register req.transactionId ⟨seg.slave.toUInt32, seg.slave⟩
           scheduler := s
           driver := if channel (buildRequest req) < 0 then d else { d with pending :=
              ⟨seg.slave.toUInt32, seg.slave, fcForRead seg.rt, seg.startAddr, seg.qty, index, true⟩ } },
          [.written seg.slave.toUInt32 req (channel (buildRequest req))]) := by
  obtain ⟨⟨running, free⟩, planned⟩ := Option.ite_none_right_eq_some.mp some'
  have polled := onTimeout_turn (ready.armed running) channel some'
  obtain ⟨link, known, idle⟩ := ready.links seg (ready.segments ▸ List.mem_of_getElem? planned)
  refine ⟨({ w.driver with armed := w.driver.armed - 1, nextSegIdx := w.driver.nextSegIdx + 1 } :
    PollDriver K).scheduleNext, (w.scheduler.round seg.slave).1, turned_scheduleNext rfl rfl rfl rfl, ?_, ?_, ?_⟩
  · intro other planned'
    obtain ⟨link', known', idle'⟩ := ready.links other planned'
    exact (PollScheduler.round_idle known idle).2 other.slave link' known' idle'
  · intro none
    rw [polled, pollSegment_none]
    · exact ready.tidy
    · exact none
  · intro req drawn
    obtain ⟨-, -, -, built⟩ := ModbusEngine.drawn_spec drawn
    have named : seg.slave ≠ 0 := by
      intro zero
      have low : (1 : UInt8) ≤ seg.slave := built.1
      rw [zero] at low
      exact absurd low (by decide)
    refine ⟨w.driver.nextSegIdx % w.driver.segments.length, ?_⟩
    rw [polled, pollSegment_some]
    · exact ready.tidy
    · exact running
    · exact PollScheduler.round_valid known idle named
    · exact drawn

end Ticks

section Reach
variable {points : List (PointRuntime K)} {w w' : PollWorld K}

theorem idle_setLinkParams {s : PollScheduler} (sid : UInt8)
    (idle : ∀ id l, s.links id = some l → l.Idle) :
    (∀ id l, (s.setLinkParams sid { isHalfDuplex := false }).links id = some l → l.Idle) ∧
      ∀ id, id = sid ∨ (s.links id).isSome → ((s.setLinkParams sid { isHalfDuplex := false }).links id).isSome := by
  simp only [PollScheduler.setLinkParams]
  constructor
  · intro id l there
    by_cases own : id = sid
    · subst own
      rw [Function.update_self] at there
      obtain rfl := Option.some.inj there
      cases known : s.links id with
      | none => exact ⟨rfl, rfl, rfl, rfl⟩
      | some l => exact ⟨rfl, (idle id l known).high, (idle id l known).normal, (idle id l known).low⟩
    · rw [Function.update_of_ne own] at there
      exact idle id l there
  · intro id known
    by_cases own : id = sid
    · rw [own, Function.update_self]
      rfl
    · rw [Function.update_of_ne own]
      exact known.resolve_left own

theorem idle_links (sids : List UInt8) (s : PollScheduler) (idle : ∀ id l, s.links id = some l → l.Idle) :
    (∀ id l, (sids.foldl (fun s sid => s.setLinkParams sid { isHalfDuplex := false }) s).links id = some l → l.Idle) ∧
      ∀ id, id ∈ sids ∨ (s.links id).isSome →
        ((sids.foldl (fun s sid => s.setLinkParams sid { isHalfDuplex := false }) s).links id).isSome := by
  induction sids generalizing s with
  | nil => exact ⟨idle, fun id known => known.resolve_left List.not_mem_nil⟩
  | cons sid sids ih =>
    obtain ⟨idle', known'⟩ := idle_setLinkParams sid idle
    obtain ⟨rest, all⟩ := ih _ idle'
    refine ⟨rest, fun id known => all id ?_⟩
    rcases known with member | known
    · rcases List.mem_cons.mp member with own | later
      · exact Or.inr (known' id (Or.inl own))
      · exact Or.inl later
    · exact Or.inr (known' id (Or.inr known))

theorem ready_fresh (points : List (PointRuntime K)) : Ready points (fresh points) := by
  refine ⟨ModbusEngine.tidy_start, rfl, fun running => absurd running Bool.false_ne_true, fun seg planned => ?_⟩
  obtain ⟨idle, all⟩ := idle_links (((points.filter (·.enabled)).map (·.slaveAddress)).dedup) {}
    (fun _ _ there => by cases there)
  obtain ⟨pr, holds⟩ := points_buildSegments planned
  obtain ⟨member, reads⟩ := reads_buildSegments planned holds
  have listed : seg.slave ∈ ((points.filter (·.enabled)).map (·.slaveAddress)).dedup := by
    rw [List.mem_dedup, ← reads.slave]
    exact List.mem_map_of_mem (List.mem_filter.mpr ⟨member, reads.enabled⟩)
  obtain ⟨link, known⟩ := Option.isSome_iff_exists.mp (all seg.slave (Or.inl listed))
  exact ⟨link, known, idle _ _ known⟩

theorem Ready.turned (ready : Ready points w) {d : PollDriver K} {passed : Nat} (turned : w.Turned d passed)
    (engine : w'.engine.Tidy)
    (links : ∀ seg ∈ buildSegments points, ∃ link, w'.scheduler.links seg.slave = some link ∧ link.Idle)
    (driver : w'.driver.segments = d.segments ∧ w'.driver.running = d.running ∧ w'.driver.armed = d.armed) :
    Ready points w' := by
  obtain ⟨segments, running, armed⟩ := driver
  refine ⟨engine, ?_, ?_, links⟩
  · rw [segments, turned.segments, ready.segments]
  · rw [running, armed]
    exact turned.armed

theorem Ready.tick (ready : Ready points w) (channel : Channel) : Ready points (w.onTimeout channel).1 := by
  cases turn : w.turn with
  | none =>
    obtain ⟨d, turned, passed⟩ := onTimeout_none ready channel turn
    rw [passed]
    exact ready.turned turned ready.tidy ready.links ⟨rfl, rfl, rfl⟩
  | some seg =>
    obtain ⟨d, s, turned, links, quiet, sent⟩ := onTimeout_some ready channel turn
    cases drawn : w.engine.drawn (readRequest seg) with
    | none =>
      rw [quiet drawn]
      exact ready.turned turned ready.tidy links ⟨rfl, rfl, rfl⟩
    | some req =>
      obtain ⟨index, sends⟩ := sent req drawn
      rw [sends]
      refine ready.turned turned (ready.tidy.register drawn _).1 links ?_
      split <;> exact ⟨rfl, rfl, rfl⟩

theorem Ready.settles (ready : Ready points w) {given : Prop} (settles : w.Settles w' given) (tidy : w'.engine.Tidy) :
    Ready points w' := by
  have driver : w'.driver.segments = w.driver.segments ∧ w'.driver.running = w.driver.running ∧
      w'.driver.armed = w.driver.armed := by
    by_cases gives : given
    · rw [settles.gives gives]
      exact ⟨rfl, rfl, rfl⟩
    · rw [settles.keeps gives]
      exact ⟨rfl, rfl, rfl⟩
  obtain ⟨segments, running, armed⟩ := driver
  refine ⟨tidy, segments.trans ready.segments, ?_, ?_⟩
  · rw [running, armed]
    exact ready.armed
  · rw [settles.links]
    exact ready.links

theorem Ready.receive (ready : Ready points w) (data : List UInt8) : Ready points (w.receive data).1 :=
  ⟨(ready.tidy.receive data).1, ready.segments, ready.armed, ready.links⟩

variable [Zero K] [One K] [Add K] [Mul K] {cv : Conversions K} {clock : Clock}

theorem Ready.onFrame (ready : Ready points w) (cv : Conversions K) (clock : Clock) (frame : List UInt8) :
    Ready points (w.onFrame cv clock frame).1 := by
  obtain ⟨engine, settles⟩ := settles_onFrame cv clock ready.tidy.tcp frame
  exact ready.settles settles (engine ▸ (ready.tidy.onFrame frame).1)

theorem Ready.step (ready : Ready points w) (cv : Conversions K) (e : PollEvent) : Ready points (step cv w e).1 := by
  cases e with
  | startPolling intervalMs =>
    refine ⟨ready.tidy, ready.segments, fun _ => Nat.succ_ne_zero _, ready.links⟩
  | stopPolling => exact ⟨ready.tidy, ready.segments, fun running => absurd running Bool.false_ne_true, ready.links⟩
  | resetPending => exact ⟨ready.tidy, ready.segments, ready.armed, ready.links⟩
  | tick channel => exact ready.tick channel
  | sboCommand cmd channel =>
    simp only [PollWorld.step, dispatchSboCommand]
    cases drawn : w.engine.drawn (sboRequest cmd) with
    | none =>
      rw [write_none w channel 1 ready.tidy rfl drawn]
      exact ready
    | some sent =>
      rw [write_some w channel 1 ready.tidy rfl drawn]
      exact ⟨(ready.tidy.register drawn _).1, ready.segments, ready.armed, ready.links⟩
  | bytes clock data =>
    exact Runs.reached_always (PollWorld.onFrame cv clock) (w.receive data).2 (I := Ready points) (ready.receive data)
      (fun _ frame ready => ready.onFrame cv clock frame) _ Runs.run_mem_reached
  | connectionChanged connected =>
    exact ⟨ready.tidy.onConnectionChanged connected, ready.segments, ready.armed, ready.links⟩

theorem ready_reached (points : List (PointRuntime K)) (es : List PollEvent) :
    ∀ w ∈ Runs.reached (PollWorld.step cv) (fresh points) es, Ready points w :=
  Runs.reached_always (PollWorld.step cv) es (ready_fresh points) (fun _ e ready => ready.step cv e)

end Reach
end PollWorld
end EnerSentry.App
