import EnerSentry.App.PendingPoll
import EnerSentry.App.PolledTable
import EnerSentry.Sim.PipelinedSession

/-!
The worker and the simulator on a connection that stays up. Ticks of the poll timer, commands of the
control path, turns of the server, arriving bytes and new registers come in any order. At most one read
is on its way, the answer to a read is taken apart for the segment that asked for it, and every answered
read is taken apart once.
-/

namespace EnerSentry.App
open EnerSentry.Lib EnerSentry.Lib.Packing EnerSentry.Protocol EnerSentry.Protocol.ModbusStreamAccumulator
open EnerSentry.Business EnerSentry.Sim

/-- The worker at one end of a connection, the simulator at the other, and the bytes between them. -/
structure Loop (K : Type) where
  worker : PollWorld K
  upstream : List UInt8 := []
  bank : RegisterBank
  serving : Bool := true
  downstream : List UInt8 := []

inductive LoopEvent where
  | startPolling (intervalMs : Int)
  | stopPolling
  | tick
  | sboCommand (cmd : SboCommand)
  | serve
  | deliver (clock : Clock) (n : Nat)
  | publish (slave : UInt8) (regs : SlaveRegset)

/-- The requests that were handed to the channel. -/
def written {K : Type} (out : List (PollOutput K)) : List Sent :=
  out.filterMap fun
    | .written linkId req _ => some ⟨req, linkId⟩
    | _ => none

/-- The responses that were taken apart. -/
def decodeds {K : Type} (out : List (PollOutput K)) : List (Decoded K) :=
  out.filterMap fun
    | .decoded d => some d
    | _ => none

namespace Loop
variable {K : Type}

/-- The connection as the engine sees it. -/
def session (l : Loop K) : Session := ⟨l.worker.engine, l.upstream, l.bank, l.serving, l.downstream⟩

variable [Zero K] [One K] [Add K] [Mul K] (cv : Conversions K) (slaves : List UInt8)

/-- The worker acts on an event that brings no bytes. -/
def act (l : Loop K) (e : PollEvent) : Loop K × List (PollOutput K) :=
  let done := PollWorld.step cv l.worker e
  ({ l with worker := done.1, upstream := l.upstream ++ (written done.2).flatMap fun x => buildRequest x.req }, done.2)

def step : Runs.Step (Loop K) LoopEvent (PollOutput K) := fun l event =>
  match event with
  | .startPolling intervalMs => l.act cv (.startPolling intervalMs)
  | .stopPolling => l.act cv .stopPolling
  | .tick => l.act cv (.tick takesAll)
  | .sboCommand cmd => l.act cv (.sboCommand cmd takesAll)
  | .serve =>
      let s := (l.session.step slaves .serve).1
      ({ l with upstream := s.upstream, bank := s.bank, serving := s.serving, downstream := s.downstream }, [])
  | .deliver clock n =>
      let done := PollWorld.step cv l.worker (.bytes clock (l.downstream.take n))
      ({ l with worker := done.1, downstream := l.downstream.drop n }, done.2)
  | .publish slave regs => ({ l with bank := l.bank.publish slave regs }, [])

end Loop

/-- The account of a connection that the worker writes to. -/
def Loop.track {K : Type} (slaves : List UInt8) (_ : Loop K) (m : Dialogue) (event : LoopEvent)
    (out : List (PollOutput K)) : Dialogue :=
  match event with
  | .serve => m.serve
  | .deliver _ _ => m
  | .publish slave regs =>
      if slave ∈ slaves then { m with device := Function.update m.device slave (some regs.image) } else m
  | _ => { m with queued := m.queued ++ written out }

/-- The bytes that arrive at once fit into the ring, and published registers have addresses. -/
def LoopEvent.Orderly {K : Type} (l : Loop K) : LoopEvent → Prop
  | .deliver _ n => l.worker.engine.accumulator.size + (l.downstream.take n).length ≤ capacity
  | .publish _ regs => regs.Addressable
  | _ => True

def isPoll (x : Sent) : Bool := isReadCode x.req.functionCode

/-- The answer has cells; others refuse a read or confirm a write. -/
def isCells : Answer → Bool
  | .cells _ => true
  | _ => false

/-- The cells of an answer at the addresses that were asked for. -/
def cellAt (a : Answer) (start address : Nat) : UInt16 :=
  match a with
  | .cells values => values.getD (address - start) 0
  | _ => 0

section Account
variable {K : Type}

/-- The reads on their way: the pending poll and no other. -/
inductive Awaits (d : PollDriver K) : List Sent → Prop
  | idle (free : d.pending.active = false) : Awaits d []
  | polling (index : Nat) (seg : Segment K) (tid : UInt16) (planned : d.segments[index]? = some seg)
      (pending : d.pending =
        ⟨seg.slave.toUInt32, seg.slave, fcForRead seg.rt, seg.startAddr, seg.qty, index, true⟩) :
      Awaits d [⟨{ readRequest seg with transactionId := tid }, seg.slave.toUInt32⟩]

variable [Zero K] [One K] [Add K] [Mul K]

/-- The answer to the read of a planned segment, taken apart for this segment. -/
structure Takes (cv : Conversions K) (points : List (PointRuntime K)) (x : Sent × Answer) (d : Decoded K) : Prop where
  planned : d.segment ∈ buildSegments points
  asked : x.1.req = { readRequest d.segment with transactionId := x.1.tid }
  values : d.values = d.segment.points.map fun pr =>
    (pr, some (pointReading cv (cellAt x.2 d.segment.startAddr.toNat) pr))

/-- An answer of the kind its request gets: cells for a read, as many as it asks for. -/
structure Suits (x : Sent × Answer) : Prop where
  cells : ∀ values, x.2 = .cells values → isPoll x.1 = true ∧ values.length = x.1.req.quantity.toNat
  stored : x.2 = .stored → isPoll x.1 = false

/-- What the connection, its account and the outputs of the worker have to do with each other. -/
structure Linked (cv : Conversions K) (points : List (PointRuntime K)) (slaves : List UInt8) (l : Loop K) (m : Dialogue)
    (out : List (PollOutput K)) (done awaited : List (Sent × Answer)) : Prop where
  ready : PollWorld.Ready points l.worker
  speaks : Speaks slaves l.session m (Dialogue.reports done) done awaited
  awaits : Awaits l.worker.driver ((awaited.map Prod.fst ++ m.queued).filter isPoll)
  commands : ∀ x ∈ awaited.map Prod.fst ++ m.queued, isPoll x = false → x.req.functionCode = 0x06
  suits : ∀ x ∈ m.served, Suits x
  taken : List.Forall₂ (Takes cv points) (done.filter fun x => isCells x.2) (decodeds out)

end Account

section Ticks
variable {K : Type} {points : List (PointRuntime K)} {w : PollWorld K}

/-- What a tick does on a channel that takes every frame. -/
inductive Ticked (w : PollWorld K) : PollWorld K × List (PollOutput K) → Prop
  | quiet (w' : PollWorld K) (engine : w'.engine = w.engine) (segments : w'.driver.segments = w.driver.segments)
      (pending : w'.driver.pending = w.driver.pending) : Ticked w (w', [])
  | polls (w' : PollWorld K) (index : Nat) (seg : Segment K) (req : ModbusRequest)
      (free : w.driver.pending.active = false) (planned : w.driver.segments[index]? = some seg)
      (drawn : w.engine.drawn (readRequest seg) = some req)
      (engine : w'.engine = w.engine.register req.transactionId ⟨seg.slave.toUInt32, seg.slave⟩)
      (segments : w'.driver.segments = w.driver.segments)
      (pending : w'.driver.pending =
        ⟨seg.slave.toUInt32, seg.slave, fcForRead seg.rt, seg.startAddr, seg.qty, index, true⟩) :
      Ticked w (w', [.written seg.slave.toUInt32 req (takesAll (buildRequest req))])

theorem ticked_onTimeout (ready : PollWorld.Ready points w) : Ticked w (w.onTimeout takesAll) := by
  cases turn : w.turn with
  | none =>
    obtain ⟨d, turned, passed⟩ := PollWorld.onTimeout_none ready takesAll turn
    rw [passed]
    exact .quiet _ rfl turned.segments turned.pending
  | some seg =>
    obtain ⟨⟨running, free⟩, planned⟩ := Option.ite_none_right_eq_some.mp turn
    have turned := PollWorld.onTimeout_turn (ready.armed running) takesAll turn
    cases drawn : w.engine.drawn (readRequest seg) with
    | none =>
      rw [turned.trans (PollWorld.pollSegment_none _ takesAll _ ready.tidy drawn)]
      apply Ticked.quiet
      · rfl
      · unfold PollDriver.scheduleNext
        split <;> rfl
      · unfold PollDriver.scheduleNext
        split <;> rfl
    | some req =>
      obtain ⟨link, known, idle⟩ := ready.links seg (ready.segments ▸ List.mem_of_getElem? planned)
      obtain ⟨-, -, -, built⟩ := ModbusEngine.drawn_spec drawn
      have named : seg.slave ≠ 0 := by
        intro zero
        have low : (1 : UInt8) ≤ seg.slave := built.1
        rw [zero] at low
        exact absurd low (by decide)
      have valid := PollScheduler.round_valid known idle named
      rw [turned.trans (PollWorld.pollSegment_some _ takesAll _ ready.tidy running valid drawn)]
      have taken : ¬takesAll (buildRequest req) < 0 := Int.not_lt.mpr (Int.natCast_nonneg _)
      simp only [if_neg taken]
      apply Ticked.polls _ _ _ _ free planned drawn
      · rfl
      · unfold PollDriver.scheduleNext
        split <;> rfl
      · rfl

end Ticks

section Writes
variable {K : Type} {points : List (PointRuntime K)} {slaves : List UInt8} {l : Loop K} {m : Dialogue}
  {out : List EngineSignal} {done awaited : List (Sent × Answer)} {req sent : ModbusRequest}

/-- A request that draws an id goes out behind the others. -/
theorem speaks_drawn (speaks : Speaks slaves l.session m out done awaited) (tidy : l.worker.engine.Tidy)
    (drawn : l.worker.engine.drawn req = some sent) (linkId : UInt32) (tcp : req.transport = .tcp)
    (within : req.quantity.toNat ≤ quantityLimit req.functionCode) :
    Speaks slaves
      { l.session with
        engine := l.worker.engine.register sent.transactionId ⟨linkId, req.slaveAddress⟩
        upstream := l.upstream ++ buildRequest sent }
      { m with queued := m.queued ++ [⟨sent, linkId⟩] } out done awaited := by
  have wrote : l.session.engine.writeRequest (some takesAll) req linkId = _ := tidy.write_some tcp drawn
  have written := speaks.write linkId tcp within
  simp only [Session.step, Dialogue.track, wrote, Option.map_some, Option.getD_some] at written
  exact written

theorem not_isPoll_sbo {cmd : SboCommand} (drawn : l.worker.engine.drawn (sboRequest cmd) = some sent)
    (linkId : UInt32) : isPoll ⟨sent, linkId⟩ = false := by
  obtain ⟨same, -⟩ := ModbusEngine.drawn_spec drawn
  rw [isPoll, same]
  rfl

theorem written_one (linkId : UInt32) (req : ModbusRequest) (n : Int) :
    written [(.written linkId req n : PollOutput K)] = [⟨req, linkId⟩] := rfl

end Writes

section Answers
variable {K : Type} {x : Sent} {a : Answer}

theorem suits_saved (m : RemoteMemory) (next : Option RemoteMemory) (write : isPoll x = false) :
    Suits (x, (RemoteMemory.saved m next).2) := by
  constructor
  · intro values given
    cases next <;> cases given
  · exact fun _ => write

theorem suits_memory (m : RemoteMemory) (x : Sent) : Suits (x, (m.obey (commandOf x.req)).2) := by
  by_cases read : isReadCode x.req.functionCode = true
  · rw [commandOf, if_pos read, RemoteMemory.obey]
    cases loaded : m.load (SlaveCommand.areaOf x.req.functionCode) x.req.startingAddress.toNat
        x.req.quantity.toNat with
    | none => exact ⟨fun _ given => (by cases given), fun given => (by cases given)⟩
    | some values =>
      constructor
      · intro values' given
        cases given
        exact ⟨read, CellMemory.Memory.length_load loaded⟩
      · exact fun given => (by cases given)
  · have write : isPoll x = false := Bool.eq_false_iff.mpr read
    rw [commandOf, if_neg read]
    split
    · exact suits_saved m _ write
    split
    · exact suits_saved m _ write
    split
    · exact suits_saved m _ write
    · exact suits_saved m _ write

/-- A request gets an answer of its kind. -/
theorem suits_obey (d : RemoteDevice) (x : Sent) : Suits (x, (d.obey x.req.slaveAddress (commandOf x.req)).2) := by
  rw [RemoteDevice.obey]
  cases d x.req.slaveAddress with
  | none => exact ⟨fun _ given => (by cases given), fun given => (by cases given)⟩
  | some m => exact suits_memory m x

theorem mem_decodeds {out : List (PollOutput K)} {d : Decoded K} : d ∈ decodeds out ↔ .decoded d ∈ out := by
  rw [decodeds, List.mem_filterMap]
  constructor
  · rintro ⟨o, member, found⟩
    cases o with
    | decoded e =>
      cases found
      exact member
    | _ => cases found
  · exact fun member => ⟨_, member, rfl⟩

theorem decodeds_append (first second : List (PollOutput K)) :
    decodeds (first ++ second) = decodeds first ++ decodeds second := List.filterMap_append

theorem decodeds_settle (w : PollWorld K) (clock : Clock) (slave : UInt8) (ok : Bool) :
    decodeds (w.settle clock slave ok).2 = [] :=
  List.eq_nil_iff_forall_not_mem.mpr fun _ member => PollWorld.not_decoded_settle (mem_decodeds.mp member)

theorem decodeds_onFrameError (w : PollWorld K) (clock : Clock) (linkId : UInt32) (slave : UInt8)
    (kind : FrameErrorKind) : decodeds (w.onFrameError clock linkId slave kind).2 = [] :=
  List.eq_nil_iff_forall_not_mem.mpr fun _ member => PollWorld.not_decoded_onFrameError (mem_decodeds.mp member)

/-- The oldest read is the pending poll. -/
theorem Awaits.front {d : PollDriver K} {rest : List Sent} (awaits : Awaits d (x :: rest)) :
    rest = [] ∧ ∃ index seg tid, d.segments[index]? = some seg ∧ d.pending =
        ⟨seg.slave.toUInt32, seg.slave, fcForRead seg.rt, seg.startAddr, seg.qty, index, true⟩ ∧
      x = ⟨{ readRequest seg with transactionId := tid }, seg.slave.toUInt32⟩ := by
  cases awaits with
  | polling index seg tid planned pending => exact ⟨rfl, index, seg, tid, planned, pending, rfl⟩

/-- Only the plan and the pending poll matter. -/
theorem Awaits.congr {d d' : PollDriver K} {xs : List Sent} (awaits : Awaits d xs) (segments : d'.segments = d.segments)
    (pending : d'.pending = d.pending) : Awaits d' xs := by
  cases awaits with
  | idle free => exact .idle (pending ▸ free)
  | polling index seg tid planned same => exact .polling index seg tid (segments ▸ planned) (pending.trans same)

/-- Both a normal response and an exception have the code of the read in their lower bits. -/
theorem code_response {seg : Segment K} {tid : UInt16} (stored : a ≠ .stored) :
    (a.response { readRequest seg with transactionId := tid }).functionCode &&& 0x7F = fcForRead seg.rt := by
  cases a with
  | refused code =>
    simp only [Answer.response, replyHead, readRequest]
    cases seg.rt <;> rfl
  | cells values =>
    simp only [Answer.response, replyHead, readRequest]
    cases seg.rt <;> rfl
  | stored => exact absurd rfl stored

theorem unread_command (code : x.req.functionCode = 0x06) : ¬PollWorld.isRead (a.response x.req) := by
  intro read
  cases a with
  | refused exceptionCode =>
    simp only [Answer.response, replyHead, code, PollWorld.isRead] at read
    exact absurd read (by decide)
  | cells values =>
    simp only [Answer.response, replyHead, code, PollWorld.isRead] at read
    exact absurd read (by decide)
  | stored =>
    simp only [Answer.response, replyHead, code, PollWorld.isRead] at read
    exact absurd read (by decide)

variable [Zero K] [One K] [Add K] [Mul K] {cv : Conversions K} {w : PollWorld K} {clock : Clock} {frame : List UInt8}
  {resp : ModbusResponse} {entry : InFlightEntry}

/-- The response to the pending poll is taken apart once, or not at all when it is an exception. -/
theorem decodeds_onResponseParsed {linkId : UInt32} {slave : UInt8} (read : PollWorld.isRead resp)
    (expected : w.driver.expects linkId slave resp = true) :
    decodeds (w.onResponseParsed cv clock linkId slave resp).2 =
      if resp.isException then [] else [PollWorld.answer cv w clock resp] := by
  have inside : ¬(decide (resp.functionCode &&& 0x7F < 0x01) || decide (0x04 < resp.functionCode &&& 0x7F)) = true := by
    rw [Bool.or_eq_true, decide_eq_true_iff, decide_eq_true_iff, not_or]
    exact ⟨UInt8.not_lt.mpr read.1, UInt8.not_lt.mpr read.2⟩
  simp only [PollWorld.onResponseParsed]
  rw [if_neg inside, if_neg (by rw [expected]; decide)]
  cases resp.isException with
  | true => exact decodeds_settle _ _ _ _
  | false =>
    simp only [Bool.false_eq_true, if_false]
    rw [decodeds_append, decodeds_settle]
    rfl

theorem decodeds_onFrame (handled : w.engine.onFrame frame =
      (w.engine.forget resp.transactionId, ModbusEngine.reportResponse entry.linkId entry.slaveAddress resp))
    (read : PollWorld.isRead resp) (expected : w.driver.expects entry.linkId entry.slaveAddress resp = true) :
    decodeds (w.onFrame cv clock frame).2 = if resp.isException then [] else [PollWorld.answer cv w clock resp] := by
  let w' : PollWorld K := { w with engine := w.engine.forget resp.transactionId }
  have parsed : decodeds (w'.onResponseParsed cv clock entry.linkId entry.slaveAddress resp).2 =
      if resp.isException then [] else [PollWorld.answer cv w clock resp] := decodeds_onResponseParsed read expected
  rw [← parsed]
  simp only [PollWorld.onFrame, handled, ModbusEngine.reportResponse]
  split
  · simp only [Runs.outputs, PollWorld.onSignal, decodeds_append, decodeds_onFrameError]
    exact List.append_nil _
  · simp only [Runs.outputs, PollWorld.onSignal, List.append_nil]
    rfl

/-- The answer to the poll of a planned segment is taken apart for it when it has cells. -/
theorem takes_answer {points : List (PointRuntime K)} {seg : Segment K} {index : Nat} {tid : UInt16}
    (segments : w.driver.segments = buildSegments points) (planned : w.driver.segments[index]? = some seg)
    (pending : w.driver.pending =
      ⟨seg.slave.toUInt32, seg.slave, fcForRead seg.rt, seg.startAddr, seg.qty, index, true⟩)
    {values : List UInt16} (counted : values.length = seg.qty.toNat) :
    Takes cv points (⟨{ readRequest seg with transactionId := tid }, seg.slave.toUInt32⟩, .cells values)
      (PollWorld.answer cv w clock ((Answer.cells values).response { readRequest seg with transactionId := tid })) := by
  have own : w.driver.segments.getD w.driver.pending.segmentIndex {} = seg := by
    rw [pending, List.getD_eq_getElem?_getD, planned]
    rfl
  have member : seg ∈ buildSegments points := segments ▸ List.mem_of_getElem? planned
  have same : values = (List.range seg.qty.toNat).map fun i =>
      cellAt (.cells values) seg.startAddr.toNat (seg.startAddr.toNat + i) := by
    apply List.ext_getElem
    · rw [List.length_map, List.length_range, counted]
    · intro i inside _
      simp [cellAt, inside]
  have carries := carries_cells tid same
  rw [PollWorld.answer, own]
  refine ⟨member, rfl, ?_⟩
  apply List.map_congr_left
  intro pr holds
  exact congrArg (pr, ·) (carries.decoded cv ((planned_buildSegments points).reads seg member pr holds))

/-- The reply to the oldest request gives up the pending poll if the request is a read, and is taken apart
if it has cells. -/
theorem reply_taken {points : List (PointRuntime K)} {later : List Sent} (clock : Clock)
    (paired : ModbusEngine.Paired (w.engine, Sent.table (x :: later))) (distinct : ((x :: later).map Sent.tid).Nodup)
    (replies : x.Replies a) (awaits : Awaits w.driver ((x :: later).filter isPoll))
    (command : isPoll x = false → x.req.functionCode = 0x06) (suits : Suits (x, a))
    (segments : w.driver.segments = buildSegments points) :
    let r := w.onFrame cv clock (x.reply a)
    r.1.engine = w.engine.forget x.tid ∧ r.1.driver.segments = buildSegments points ∧
      Awaits r.1.driver (later.filter isPoll) ∧
      List.Forall₂ (Takes cv points) ([(x, a)].filter fun x => isCells x.2) (decodeds r.2) := by
  intro r
  obtain ⟨hit, handled, -⟩ := reply_reported paired distinct replies
  obtain ⟨engine, settles⟩ := PollWorld.settles_onFrame cv clock paired.tcp (x.reply a)
  have gives : w.GivesFor (x.reply a) ↔ PollWorld.isRead (a.response x.req) ∧
      w.driver.expects x.linkId x.req.slaveAddress (a.response x.req) = true := by
    rw [PollWorld.GivesFor, replies.parsed]
    simp only [replies.own, hit, Option.some.injEq, exists_eq_left']
    rfl
  refine ⟨engine.trans (congrArg Prod.fst handled), ?_⟩
  cases poll : isPoll x with
  | false =>
    have unread : ¬PollWorld.isRead (a.response x.req) := unread_command (command poll)
    have kept : r.1.driver = w.driver := settles.keeps fun given => unread (gives.mp given).1
    have none : decodeds r.2 = [] := by
      apply List.eq_nil_iff_forall_not_mem.mpr
      intro d member
      have hit' : w.engine.inFlight (a.response x.req).transactionId = some x.entry := replies.own ▸ hit
      exact unread ((PollWorld.decoded_onFrame_hit paired.tcp replies.parsed hit').mp (mem_decodeds.mp member)).1
    have plain : isCells a = false := by
      cases a with
      | cells values => exact absurd (suits.cells values rfl).1 (by rw [poll]; decide)
      | _ => rfl
    rw [List.filter_cons_of_neg (by rw [poll]; decide)] at awaits
    rw [kept, none, List.filter_cons_of_neg (by rw [plain]; decide)]
    exact ⟨segments, awaits, .nil⟩
  | true =>
    rw [List.filter_cons_of_pos poll] at awaits
    obtain ⟨rest, index, seg, tid, planned, pending, rfl⟩ := awaits.front
    have stored : a ≠ .stored := fun same => absurd (suits.stored same) (by rw [poll]; decide)
    have code := @code_response K a seg tid stored
    have expected : w.driver.expects seg.slave.toUInt32 seg.slave
        (a.response { readRequest seg with transactionId := tid }) = true := by
      rw [PollDriver.expects, pending, code]
      simp
    have read := PollWorld.isRead_of_code code
    have given : r.1.driver = w.driver.resetPending := settles.gives (gives.mpr ⟨read, expected⟩)
    have reported :
        w.engine.onFrame (Sent.reply ⟨{ readRequest seg with transactionId := tid }, seg.slave.toUInt32⟩ a) =
        (w.engine.forget (a.response { readRequest seg with transactionId := tid }).transactionId,
          ModbusEngine.reportResponse seg.slave.toUInt32 seg.slave
            (a.response { readRequest seg with transactionId := tid })) := by
      rw [replies.own]
      exact handled
    have taken := @decodeds_onFrame _ _ _ _ _ cv w clock _ _ ⟨seg.slave.toUInt32, seg.slave⟩ reported read expected
    rw [given, rest]
    refine ⟨segments, .idle rfl, ?_⟩
    rw [taken]
    cases a with
    | refused code => exact .nil
    | cells values =>
      have counted := (suits.cells values rfl).2
      exact .cons (takes_answer segments planned pending counted) .nil
    | stored => exact absurd rfl stored

/-- Replies that arrive in their order are taken apart in it. -/
theorem replies_taken {points : List (PointRuntime K)} {later : List Sent} (clock : Clock)
    (first : List (Sent × Answer)) (paired : ModbusEngine.Paired (w.engine, Sent.table (first.map Prod.fst ++ later)))
    (distinct : ((first.map Prod.fst ++ later).map Sent.tid).Nodup) (replies : ∀ x ∈ first, x.1.Replies x.2)
    (awaits : Awaits w.driver ((first.map Prod.fst ++ later).filter isPoll))
    (commands : ∀ x ∈ first, isPoll x.1 = false → x.1.req.functionCode = 0x06) (suits : ∀ x ∈ first, Suits x)
    (segments : w.driver.segments = buildSegments points) :
    let frames := first.map fun x => x.1.reply x.2
    (Runs.run (PollWorld.onFrame cv clock) w frames).engine = Runs.run ModbusEngine.onFrame w.engine frames ∧
      Awaits (Runs.run (PollWorld.onFrame cv clock) w frames).driver (later.filter isPoll) ∧
      List.Forall₂ (Takes cv points) (first.filter fun x => isCells x.2)
        (decodeds (Runs.outputs (PollWorld.onFrame cv clock) w frames)) := by
  induction first generalizing w with
  | nil => exact ⟨rfl, awaits, .nil⟩
  | cons x first ih =>
    obtain ⟨reply, replies⟩ := List.forall_mem_cons.mp replies
    obtain ⟨command, commands⟩ := List.forall_mem_cons.mp commands
    obtain ⟨suit, suits⟩ := List.forall_mem_cons.mp suits
    obtain ⟨-, handled, forgotten⟩ := reply_reported paired distinct reply
    obtain ⟨engine, segments', awaits', here⟩ :=
      @reply_taken _ _ _ _ _ _ _ cv w _ _ clock paired distinct reply awaits command suit segments
    have next := ih (engine ▸ forgotten) (List.nodup_cons.mp distinct).2 replies awaits' commands suits segments'
    obtain ⟨engines, awaits'', rest⟩ := next
    refine ⟨?_, awaits'', ?_⟩
    · rw [engine] at engines
      simp only [List.map_cons, Runs.run, handled]
      exact engines
    · have order : (x :: first).filter (fun x => isCells x.2) =
          [x].filter (fun x => isCells x.2) ++ first.filter fun x => isCells x.2 := List.filter_append [x] first
      rw [order, List.map_cons, Runs.outputs, decodeds_append]
      exact List.rel_append here rest

end Answers

section Steps
variable {K : Type} [Zero K] [One K] [Add K] [Mul K] {cv : Conversions K} {points : List (PointRuntime K)}
  {slaves : List UInt8} {l : Loop K} {m : Dialogue} {out : List (PollOutput K)} {done awaited : List (Sent × Answer)}
  {w : PollWorld K} {req sent : ModbusRequest}

/-- An event that sends nothing and leaves the pending poll alone. -/
theorem Linked.rests (linked : Linked cv points slaves l m out done awaited) (ready : PollWorld.Ready points w)
    (engine : w.engine = l.worker.engine) (segments : w.driver.segments = l.worker.driver.segments)
    (pending : w.driver.pending = l.worker.driver.pending) :
    Linked cv points slaves { l with worker := w } m out done awaited := by
  have same : Loop.session { l with worker := w } = l.session := by rw [Loop.session, Loop.session, engine]
  exact { linked with
    ready := ready
    speaks := same ▸ linked.speaks
    awaits := linked.awaits.congr segments pending }

/-- An event that sends a request. -/
theorem Linked.sends (linked : Linked cv points slaves l m out done awaited) (ready : PollWorld.Ready points w)
    {linkId : UInt32} (drawn : l.worker.engine.drawn req = some sent)
    (engine : w.engine = l.worker.engine.register sent.transactionId ⟨linkId, req.slaveAddress⟩)
    (tcp : req.transport = .tcp) (within : req.quantity.toNat ≤ quantityLimit req.functionCode)
    (awaits : Awaits w.driver ((awaited.map Prod.fst ++ m.queued ++ [(⟨sent, linkId⟩ : Sent)]).filter isPoll))
    (command : isPoll ⟨sent, linkId⟩ = false → sent.functionCode = 0x06) (n : Int) :
    Linked cv points slaves { l with worker := w, upstream := l.upstream ++ buildRequest sent }
      { m with queued := m.queued ++ [⟨sent, linkId⟩] } (out ++ [.written linkId sent n]) done awaited := by
  have speaks := speaks_drawn linked.speaks linked.ready.tidy drawn linkId tcp within
  rw [← engine] at speaks
  exact
    { ready := ready
      speaks := speaks
      awaits := by
        rw [← List.append_assoc]
        exact awaits
      commands := by
        rw [← List.append_assoc]
        exact List.forall_mem_append.mpr ⟨linked.commands, List.forall_mem_singleton.mpr command⟩
      suits := linked.suits
      taken := by
        rw [decodeds_append]
        exact (List.append_nil _).symm ▸ linked.taken }

/-- A tick polls the segment whose turn it is, or rests. -/
theorem Linked.tick (linked : Linked cv points slaves l m out done awaited) :
    Linked cv points slaves (l.step cv slaves .tick).1 (l.track slaves m .tick (l.step cv slaves .tick).2)
      (out ++ (l.step cv slaves .tick).2) done awaited := by
  have ticked := ticked_onTimeout linked.ready
  have ready : PollWorld.Ready points (l.worker.onTimeout takesAll).1 := linked.ready.tick takesAll
  have acts : PollWorld.step cv l.worker (.tick takesAll) = l.worker.onTimeout takesAll := rfl
  simp only [Loop.step, Loop.act, Loop.track, acts]
  generalize l.worker.onTimeout takesAll = r at ticked ready
  cases ticked with
  | quiet w engine segments pending =>
    simp only [written, List.filterMap_nil, List.flatMap_nil, List.append_nil]
    exact linked.rests ready engine segments pending
  | polls w index seg req free planned drawn engine segments pending =>
    obtain ⟨same, -⟩ := ModbusEngine.drawn_spec drawn
    have member : seg ∈ buildSegments points := linked.ready.segments ▸ List.mem_of_getElem? planned
    have within : (readRequest seg).quantity.toNat ≤ quantityLimit (readRequest seg).functionCode :=
      ((planned_buildSegments points).size seg member).2.trans (quantityLimit_fcForRead seg.rt).ge
    have read : isPoll ⟨req, seg.slave.toUInt32⟩ = true := by
      rw [isPoll, same]
      exact isReadCode_fcForRead seg.rt
    have awaits : Awaits w.driver
        ((awaited.map Prod.fst ++ m.queued ++ [(⟨req, seg.slave.toUInt32⟩ : Sent)]).filter isPoll) := by
      have nothing : (awaited.map Prod.fst ++ m.queued).filter isPoll = [] := by
        cases polls : (awaited.map Prod.fst ++ m.queued).filter isPoll with
        | nil => rfl
        | cons x rest =>
          obtain ⟨-, index', seg', tid, -, busy, -⟩ := (polls ▸ linked.awaits).front
          rw [busy] at free
          cases free
      rw [List.filter_append, nothing, List.nil_append, List.filter_cons_of_pos read, List.filter_nil, same]
      exact .polling index seg _ (segments ▸ planned) pending
    simp only [written_one, List.flatMap_singleton]
    exact linked.sends ready drawn engine rfl within awaits (fun write => absurd write (by rw [read]; decide)) _

/-- A command goes out between the polls. -/
theorem Linked.sboCommand (linked : Linked cv points slaves l m out done awaited) (cmd : SboCommand) :
    Linked cv points slaves (l.step cv slaves (.sboCommand cmd)).1
      (l.track slaves m (.sboCommand cmd) (l.step cv slaves (.sboCommand cmd)).2)
      (out ++ (l.step cv slaves (.sboCommand cmd)).2) done awaited := by
  have ready : PollWorld.Ready points (PollWorld.step cv l.worker (.sboCommand cmd takesAll)).1 :=
    linked.ready.step cv (.sboCommand cmd takesAll)
  simp only [PollWorld.step, PollWorld.dispatchSboCommand] at ready
  simp only [Loop.step, Loop.act, Loop.track, PollWorld.step, PollWorld.dispatchSboCommand]
  cases drawn : l.worker.engine.drawn (sboRequest cmd) with
  | none =>
    rw [PollWorld.write_none l.worker takesAll 1 linked.ready.tidy rfl drawn]
    simp only [written, List.filterMap_nil, List.flatMap_nil, List.append_nil]
    exact linked
  | some sent =>
    rw [PollWorld.write_some l.worker takesAll 1 linked.ready.tidy rfl drawn] at ready ⊢
    obtain ⟨same, -⟩ := ModbusEngine.drawn_spec drawn
    have write : isPoll ⟨sent, 1⟩ = false := not_isPoll_sbo drawn 1
    have awaits : Awaits l.worker.driver
        ((awaited.map Prod.fst ++ m.queued ++ [(⟨sent, 1⟩ : Sent)]).filter isPoll) := by
      rw [List.filter_append, List.filter_cons_of_neg (by rw [write]; decide), List.filter_nil, List.append_nil]
      exact linked.awaits
    have code : sent.functionCode = 0x06 := by
      rw [same]
      rfl
    have within : (sboRequest cmd).quantity.toNat ≤ quantityLimit (sboRequest cmd).functionCode := by
      change (1 : UInt16).toNat ≤ quantityLimit 0x06
      decide
    simp only [written_one, List.flatMap_singleton]
    exact linked.sends ready drawn rfl rfl within awaits (fun _ => code) _

theorem session_serve (l : Loop K) :
    (l.step cv slaves .serve).1.session = (l.session.step slaves .serve).1 := by
  have engine : (l.session.step slaves .serve).1.engine = l.worker.engine := by
    simp only [Session.step]
    split
    · rfl
    · split <;> rfl
  have whole (s : Session) (same : s.engine = l.worker.engine) :
      (⟨l.worker.engine, s.upstream, s.bank, s.serving, s.downstream⟩ : Session) = s := by rw [← same]
  exact whole _ engine

theorem suits_serve (suits : ∀ x ∈ m.served, Suits x) : ∀ x ∈ m.serve.served, Suits x := by
  unfold Dialogue.serve
  cases m.queued with
  | nil => exact suits
  | cons x rest => exact List.forall_mem_append.mpr ⟨suits, List.forall_mem_singleton.mpr (suits_obey m.device x)⟩

theorem Linked.serve (linked : Linked cv points slaves l m out done awaited) : ∃ awaited',
    Linked cv points slaves (l.step cv slaves .serve).1 m.serve out done awaited' := by
  obtain ⟨awaited', order, speaks⟩ := linked.speaks.serve
  rw [← @session_serve K _ _ _ _ cv slaves l] at speaks
  exact ⟨awaited',
    { ready := linked.ready
      speaks := speaks
      awaits := order ▸ linked.awaits
      commands := order ▸ linked.commands
      suits := suits_serve linked.suits
      taken := linked.taken }⟩

/-- The bytes that arrive bring the replies they complete, each for the request it answers. -/
theorem Linked.deliver (linked : Linked cv points slaves l m out done awaited) (clock : Clock) (n : Nat)
    (room : l.worker.engine.accumulator.size + (l.downstream.take n).length ≤ capacity) : ∃ done' awaited',
    Linked cv points slaves (l.step cv slaves (.deliver clock n)).1 m (out ++ (l.step cv slaves (.deliver clock n)).2)
      done' awaited' := by
  obtain ⟨first, second, rfl, frames, spoken⟩ := linked.speaks.deliver n room
  have order : (first ++ second).map Prod.fst ++ m.queued =
      first.map Prod.fst ++ (second.map Prod.fst ++ m.queued) := by
    rw [List.map_append, List.append_assoc]
  have paired := linked.speaks.paired.receive (l.downstream.take n)
  have distinct := linked.speaks.distinct
  have awaits := linked.awaits
  have commands := linked.commands
  rw [order] at paired distinct awaits commands
  have suits : ∀ x ∈ first, Suits x := by
    intro x member
    apply linked.suits x
    rw [linked.speaks.split]
    exact List.mem_append_right _ (List.mem_append_left _ member)
  obtain ⟨replies, -⟩ := List.forall_mem_append.mp linked.speaks.replies
  obtain ⟨early, late⟩ := List.forall_mem_append.mp commands
  have own : ∀ x ∈ first, isPoll x.1 = false → x.1.req.functionCode = 0x06 := fun x member =>
    early x.1 (List.mem_map_of_mem member)
  obtain ⟨engine, awaits', taken⟩ :=
    @replies_taken _ _ _ _ _ cv (l.worker.receive (l.downstream.take n)).1 points _ clock
    first paired distinct replies awaits own suits linked.ready.segments
  have given : (l.worker.receive (l.downstream.take n)).2 = first.map fun x => x.1.reply x.2 := frames
  have received : PollWorld.step cv l.worker (.bytes clock (l.downstream.take n)) =
      (Runs.run (PollWorld.onFrame cv clock) (l.worker.receive (l.downstream.take n)).1
          (first.map fun x => x.1.reply x.2),
        Runs.outputs (PollWorld.onFrame cv clock) (l.worker.receive (l.downstream.take n)).1
          (first.map fun x => x.1.reply x.2)) := by
    rw [← given]
    rfl
  have ready := linked.ready.step cv (.bytes clock (l.downstream.take n))
  have session : (l.step cv slaves (.deliver clock n)).1.session = (l.session.step slaves (.deliver n)).1 := by
    have cut : (l.worker.engine.receive (l.downstream.take n)).2 = first.map fun x => x.1.reply x.2 := frames
    simp only [Loop.step, Loop.session, received, engine, Session.step, ModbusEngine.onBytesReceived, cut]
    rfl
  have reported := spoken.reported
  rw [reported, ← session] at spoken
  rw [received] at ready
  simp only [Loop.step, received] at spoken ⊢
  refine ⟨done ++ first, second,
    { ready := ready, speaks := spoken, awaits := awaits', commands := late, suits := linked.suits, taken := ?_ }⟩
  rw [List.filter_append, decodeds_append]
  exact List.rel_append linked.taken taken

theorem Linked.step (linked : Linked cv points slaves l m out done awaited) {event : LoopEvent}
    (orderly : event.Orderly l) : ∃ done' awaited', Linked cv points slaves (l.step cv slaves event).1
      (l.track slaves m event (l.step cv slaves event).2) (out ++ (l.step cv slaves event).2) done' awaited' := by
  cases event with
  | startPolling intervalMs =>
    have ready := linked.ready.step cv (.startPolling intervalMs)
    simp only [Loop.step, Loop.act, Loop.track, PollWorld.step, written, List.filterMap_nil, List.flatMap_nil,
      List.append_nil] at ready ⊢
    exact ⟨done, awaited, linked.rests ready rfl rfl rfl⟩
  | stopPolling =>
    have ready := linked.ready.step cv .stopPolling
    simp only [Loop.step, Loop.act, Loop.track, PollWorld.step, written, List.filterMap_nil, List.flatMap_nil,
      List.append_nil] at ready ⊢
    exact ⟨done, awaited, linked.rests ready rfl rfl rfl⟩
  | tick => exact ⟨done, awaited, linked.tick⟩
  | sboCommand cmd => exact ⟨done, awaited, linked.sboCommand cmd⟩
  | serve =>
    obtain ⟨awaited', served⟩ := linked.serve
    refine ⟨done, awaited', ?_⟩
    rw [show (l.step cv slaves .serve).2 = [] from rfl, List.append_nil]
    exact served
  | deliver clock n => exact linked.deliver clock n orderly
  | publish slave regs =>
    have spoken := linked.speaks.publish slave orderly
    refine ⟨done, awaited, ?_⟩
    simp only [Loop.step, Loop.track, List.append_nil]
    have kept : ∀ device : RemoteDevice, (if slave ∈ slaves then { m with device := device } else m).queued = m.queued ∧
        (if slave ∈ slaves then { m with device := device } else m).served = m.served := by
      intro device
      split <;> exact ⟨rfl, rfl⟩
    obtain ⟨queued, served⟩ := kept (Function.update m.device slave (some regs.image))
    exact
      { ready := linked.ready
        speaks := spoken
        awaits := by
          rw [queued]
          exact linked.awaits
        commands := by
          rw [queued]
          exact linked.commands
        suits := by
          rw [served]
          exact linked.suits
        taken := linked.taken }

end Steps

section Runs
variable {K : Type} [Zero K] [One K] [Add K] [Mul K] (cv : Conversions K) (slaves : List UInt8)
  (points : List (PointRuntime K)) (bank : RegisterBank)

/-- A worker that has not begun to poll, and a bank. -/
def Loop.start : Loop K := { worker := PollWorld.fresh points, bank := bank }

/-- The connection beside its account. -/
def closedLoop : Runs.Step (Loop K × Dialogue) LoopEvent (PollOutput K) :=
  Runs.watch (Loop.step cv slaves) (Loop.track slaves)

/-- What a connection has come to. The answers to polls with cells were taken apart, one after the other, for
the segments that asked for them; of the reads that were sent only the pending poll has no answer yet. -/
structure Polled (l : Loop K) (m : Dialogue) (out : List (PollOutput K)) (done awaited : List (Sent × Answer)) :
    Prop where
  served : m.served = done ++ awaited
  taken : List.Forall₂ (Takes cv points) (done.filter fun x => isCells x.2) (decodeds out)
  awaits : Awaits l.worker.driver ((awaited.map Prod.fst ++ m.queued).filter isPoll)
  device : l.bank.image slaves = m.device

variable {bank}

theorem linked_start (addressable : bank.Addressable) :
    Linked cv points slaves (Loop.start points bank) { device := bank.image slaves } [] [] [] :=
  { ready := PollWorld.ready_fresh points
    speaks := speaks_start slaves addressable
    awaits := .idle rfl
    commands := fun _ none => absurd none List.not_mem_nil
    suits := fun _ none => absurd none List.not_mem_nil
    taken := .nil }

theorem Linked.polled {l : Loop K} {m : Dialogue} {out : List (PollOutput K)} {done awaited : List (Sent × Answer)}
    (linked : Linked cv points slaves l m out done awaited) : Polled cv slaves points l m out done awaited :=
  ⟨linked.speaks.split, linked.taken, linked.awaits, linked.speaks.device⟩

theorem linked_run (addressable : bank.Addressable) (events : List LoopEvent)
    (orderly : ∀ v ∈ Runs.visits (closedLoop cv slaves)
      (Loop.start points bank, { device := bank.image slaves }) events,
      v.2.Orderly v.1.1) :
    let last := Runs.run (closedLoop cv slaves) (Loop.start points bank, { device := bank.image slaves }) events
    ∃ done awaited, Linked cv points slaves last.1 last.2
      (Runs.outputs (closedLoop cv slaves) (Loop.start points bank, { device := bank.image slaves }) events)
      done awaited :=
  Runs.history_invariant (closedLoop cv slaves) events
    (I := fun x out => ∃ done awaited, Linked cv points slaves x.1 x.2 out done awaited)
    (A := fun x event => event.Orderly x.1)
    ⟨[], [], linked_start cv slaves points addressable⟩
    (by
      intro x out event linked orderly
      obtain ⟨done, awaited, linked⟩ := linked
      exact linked.step orderly)
    orderly

/-- While the connection stays up, the answer to every read is taken apart once, for the segment that asked
for it and with the cells its slave held when the read was served; no other poll is sent before. -/
theorem polls_decoded (addressable : bank.Addressable) (events : List LoopEvent)
    (orderly : ∀ v ∈ Runs.visits (closedLoop cv slaves)
      (Loop.start points bank, { device := bank.image slaves }) events,
      v.2.Orderly v.1.1) :
    let last := Runs.run (closedLoop cv slaves) (Loop.start points bank, { device := bank.image slaves }) events
    ∃ done awaited, Polled cv slaves points last.1 last.2
      (Runs.outputs (closedLoop cv slaves) (Loop.start points bank, { device := bank.image slaves }) events)
      done awaited := by
  obtain ⟨done, awaited, linked⟩ := linked_run cv slaves points addressable events orderly
  exact ⟨done, awaited, linked.polled⟩

end Runs

section Example
open PollWorld

/-- A poll is answered in two pieces around a command, and the next poll is refused. -/
def twoPolls : List LoopEvent :=
  [.startPolling 100, .tick, .serve, .sboCommand { slaveId := 1, registerAddr := 2, value := 7 },
    .deliver ⟨0, 1000⟩ 5, .serve, .tick, .deliver ⟨50, 1050⟩ 100, .tick, .serve, .publish 2 {},
    .deliver ⟨100, 1100⟩ 100]

theorem orderly_twoPolls : ∀ v ∈ Runs.visits (closedLoop integers [1])
    (Loop.start apartPoints fourRegisters, { device := fourRegisters.image [1] }) twoPolls, v.2.Orderly v.1.1 := by
  intro v member
  simp only [twoPolls, Runs.visits, List.mem_cons, List.not_mem_nil, or_false] at member
  rcases member with rfl | rfl | rfl | rfl | rfl | rfl | rfl | rfl | rfl | rfl | rfl | rfl
  · trivial
  · trivial
  · trivial
  · trivial
  · exact Nat.le_of_ble_eq_true (by decide +kernel)
  · trivial
  · trivial
  · exact Nat.le_of_ble_eq_true (by decide +kernel)
  · trivial
  · trivial
  · intro t
    cases t <;> decide
  · exact Nat.le_of_ble_eq_true (by decide +kernel)

theorem polls_decoded_two : ∃ done awaited, Polled integers [1] apartPoints
    (Runs.run (closedLoop integers [1])
      (Loop.start apartPoints fourRegisters, { device := fourRegisters.image [1] }) twoPolls).1
    (Runs.run (closedLoop integers [1])
      (Loop.start apartPoints fourRegisters, { device := fourRegisters.image [1] }) twoPolls).2
    (Runs.outputs (closedLoop integers [1])
      (Loop.start apartPoints fourRegisters, { device := fourRegisters.image [1] }) twoPolls) done awaited :=
  polls_decoded integers [1] apartPoints addressable_fourRegisters twoPolls orderly_twoPolls

end Example

end EnerSentry.App
