import EnerSentry.Protocol.Chunking
import EnerSentry.Protocol.TransactionPairing
import EnerSentry.Sim.ClientStream

/-!
One TCP connection between the engine of the application and the simulator, with any number of
requests on their way. Writes, turns of the server, arriving bytes and publications of new registers
come in any order. The engine reports every reply once, under the write it belongs to and in the order
of the writes, and it reports what the device answered when the request was served.
-/

namespace EnerSentry.Sim
open EnerSentry.Lib EnerSentry.Lib.Packing EnerSentry.Protocol EnerSentry.Protocol.ModbusStreamAccumulator

/-- A connection: the engine at one end, the bank at the other, and the bytes between them. -/
structure Session where
  engine : ModbusEngine := { transport := .tcp }
  upstream : List UInt8 := []
  bank : RegisterBank
  serving : Bool := true
  downstream : List UInt8 := []

inductive SessionEvent where
  | write (req : ModbusRequest) (linkId : UInt32)
  | serve
  | deliver (n : Nat)
  | publish (slave : UInt8) (regs : SlaveRegset)

/-- What a channel that is connected answers. -/
def takesAll : Channel := fun frame => frame.length

/-- No fault on any link. -/
def noFault {S : Type*} : S → UInt8 → FaultEffect Nat := fun _ _ => {}

namespace Session

def step (slaves : List UInt8) : Runs.Step Session SessionEvent EngineSignal := fun s event =>
  match event with
  | .write req linkId =>
      let w := s.engine.writeRequest (some takesAll) req linkId
      ({ s with engine := w.engine, upstream := s.upstream ++ (w.handed.map buildRequest).getD [] }, [])
  | .serve =>
      -- an open connection without a byte keeps the loop waiting
      if !s.serving || s.upstream.isEmpty then (s, [])
      else
        match clientTurn (dispatchHandler slaves) noFault s.bank [s.upstream] with
        | (bank, none) => ({ s with bank := bank, serving := false }, [])
        | (bank, some (reply, left)) =>
            ({ s with bank := bank, upstream := delivered left, downstream := s.downstream ++ reply }, [])
  | .deliver n =>
      let r := s.engine.onBytesReceived (s.downstream.take n)
      ({ s with engine := r.1, downstream := s.downstream.drop n }, r.2)
  | .publish slave regs => ({ s with bank := s.bank.publish slave regs }, [])

end Session

/-- A request that went out, under the id it was given. -/
structure Sent where
  req : ModbusRequest
  linkId : UInt32

namespace Sent

def tid (x : Sent) : UInt16 := x.req.transactionId

def entry (x : Sent) : InFlightEntry := ⟨x.linkId, x.req.slaveAddress⟩

/-- The in-flight table of requests that are on their way. -/
def table (xs : List Sent) : Owners := fun id => (xs.find? fun x => x.tid == id).map entry

/-- The reply that carries an answer. -/
def reply (x : Sent) (a : Answer) : List UInt8 :=
  let pdu := a.pdu (commandOf x.req)
  emitMbap { transactionId := x.tid, length := UInt16.ofNat (pdu.length + 1), unitId := x.req.slaveAddress } ++ pdu

/-- What the engine reports when an answer arrives. -/
def report (x : Sent) (a : Answer) : List EngineSignal :=
  ModbusEngine.reportResponse x.linkId x.req.slaveAddress (a.response x.req)

end Sent

/-- The account of a connection: the device, the requests that wait for the server, and those it has
answered, with their answers. -/
structure Dialogue where
  device : RemoteDevice
  queued : List Sent := []
  served : List (Sent × Answer) := []

namespace Dialogue

/-- The oldest request is answered. -/
def serve (m : Dialogue) : Dialogue :=
  match m.queued with
  | [] => m
  | x :: rest =>
      let done := m.device.obey x.req.slaveAddress (commandOf x.req)
      ⟨done.1, rest, m.served ++ [(x, done.2)]⟩

def track (slaves : List UInt8) (s : Session) (m : Dialogue) (event : SessionEvent) (_ : List EngineSignal) :
    Dialogue :=
  match event with
  | .write req linkId =>
      match (s.engine.writeRequest (some takesAll) req linkId).handed with
      | some sent => { m with queued := m.queued ++ [⟨sent, linkId⟩] }
      | none => m
  | .serve => m.serve
  | .deliver _ => m
  | .publish slave regs =>
      if slave ∈ slaves then { m with device := Function.update m.device slave (some regs.image) } else m

/-- The reports of the first answers. -/
def reports (answered : List (Sent × Answer)) : List EngineSignal := answered.flatMap fun x => x.1.report x.2

end Dialogue

/-- What the application and the generator keep to: requests over TCP within the limits of their codes,
registers that all have an address, and no more bytes at once than the ring has room for. -/
def SessionEvent.Orderly (s : Session) : SessionEvent → Prop
  | .write req _ => req.transport = .tcp ∧ req.quantity.toNat ≤ quantityLimit req.functionCode
  | .serve => True
  | .deliver n => s.engine.accumulator.size + (s.downstream.take n).length ≤ capacity
  | .publish _ regs => regs.Addressable

section Table
variable {x : Sent} {xs ys : List Sent} {id : UInt16}

theorem table_concat (fresh : Sent.table xs x.tid = none) :
    Sent.table (xs ++ [x]) = Function.update (Sent.table xs) x.tid (some x.entry) := by
  funext id
  by_cases own : id = x.tid
  · subst own
    have missing := Option.map_eq_none_iff.mp fresh
    rw [Function.update_self, Sent.table, List.find?_append, missing]
    simp
  · rw [Function.update_of_ne own, Sent.table, Sent.table, List.find?_append]
    have other : ¬x.tid = id := fun same => own same.symm
    simp [other]

theorem table_head : Sent.table (x :: xs) x.tid = some x.entry := by
  simp [Sent.table]

theorem table_eq_none : Sent.table xs id = none ↔ ∀ x ∈ xs, x.tid ≠ id := by
  simp [Sent.table]

/-- The oldest request leaves the table when no other one has its id. -/
theorem table_tail (distinct : (xs.map Sent.tid).Nodup) (head : xs = x :: ys) :
    Function.update (Sent.table xs) x.tid none = Sent.table ys := by
  subst head
  funext id
  by_cases own : id = x.tid
  · subst own
    rw [Function.update_self]
    refine (table_eq_none.mpr fun y member same => ?_).symm
    rw [List.map_cons, List.nodup_cons] at distinct
    exact distinct.1 (List.mem_map.mpr ⟨y, member, same⟩)
  · rw [Function.update_of_ne own]
    have other : ¬x.tid = id := fun same => own same.symm
    simp [Sent.table, other]

end Table

/-- A request on its way: over TCP, built, and within the limit of its code. -/
structure Sent.Formed (x : Sent) : Prop where
  tcp : x.req.transport = .tcp
  built : buildRequest x.req ≠ []
  within : x.req.quantity.toNat ≤ quantityLimit x.req.functionCode

/-- The frame of an answer is cut off the stream as it is and parsed as this answer. -/
structure Sent.Replies (x : Sent) (a : Answer) : Prop where
  valid : ValidFrame .tcp (x.reply a)
  parsed : parseTcpResponse (x.reply a) = some (a.response x.req)
  own : (a.response x.req).transactionId = x.tid

section Replies
variable {c : SlaveCommand} {a : Answer} {x : Sent} {pdu : List UInt8}

theorem flagged_code_plain (formed : c.WellFormed) : flagged c.code = false := by
  obtain read | write := code_cases formed
  · rcases readCode_cases read with code | code | code | code <;> rw [code] <;> decide
  · rcases writeCode_cases write with code | code | code | code <;> rw [code] <;> decide

theorem head_echo (write : isWriteCode c.code = true) (formed : c.WellFormed) : c.echo.getD 0 0 = c.code := by
  cases c with
  | read fc addr qty =>
    have code : isWriteCode fc = true := write
    rcases readCode_cases formed.1 with rfl | rfl | rfl | rfl <;> cases code
  | _ => rfl

/-- Only a refusal is flagged, and it has two bytes. -/
theorem flagged_pdu (formed : c.WellFormed) (fits : a.Fits c) (mark : flagged ((a.pdu c).getD 0 0) = true) :
    (a.pdu c).length = 2 := by
  have plain := flagged_code_plain formed
  cases a with
  | refused code => rfl
  | cells values =>
    have code : flagged c.code = true := mark
    rw [plain] at code
    cases code
  | stored =>
    rw [Answer.pdu, head_echo fits formed, plain] at mark
    cases mark

theorem length_pdu (fits : a.Fits c) : (a.pdu c).length ≤ 257 := by
  cases a with
  | refused code =>
    rw [Answer.pdu, List.length_cons, List.length_singleton]
    omega
  | cells values =>
    have short := fits.2
    rw [Answer.pdu, List.length_cons, List.length_cons]
    omega
  | stored =>
    rw [Answer.pdu]
    cases c <;> simp [SlaveCommand.echo, appendU16BE]

/-- An answer that fits its request is recognised in the stream and in the table. -/
theorem Sent.Formed.replies (sent : x.Formed) (encoded : requestPdu x.req = some pdu)
    (formed : (commandOf x.req).WellFormed) (fits : a.Fits (commandOf x.req)) : x.Replies a := by
  have few := length_pdu fits
  have one := List.length_pos_iff.mpr (pdu_filled formed fits)
  have count : (UInt16.ofNat ((a.pdu (commandOf x.req)).length + 1)).toNat = (a.pdu (commandOf x.req)).length + 1 := by
    rw [UInt16.toNat_ofNat']
    exact Nat.mod_eq_of_lt (by omega)
  constructor
  · have field : readU16BE (x.reply a) 4 = UInt16.ofNat ((a.pdu (commandOf x.req)).length + 1) := by
      simp [reply, emitMbap, readU16BE]
    have size : (x.reply a).length = 7 + (a.pdu (commandOf x.req)).length := by
      simp only [reply, emitMbap, List.length_append, List.length_cons, List.length_nil]
    have head : (x.reply a).getD 7 0 = (a.pdu (commandOf x.req)).getD 0 0 := by
      simp [reply, emitMbap]
    simp only [ValidFrame]
    rw [field, count, size, head]
    refine ⟨by omega, by omega, by omega, fun mark => ?_⟩
    rw [flagged_pdu formed fits mark]
  · have parsed := parseReply_answer encoded formed fits
    rw [sent.tcp] at parsed
    exact parsed
  · cases a <;> simp [Answer.response, replyHead, sent.tcp, tid]

end Replies

/-- The two ends of a connection and its account agree. The answers whose replies were parsed are `done`,
and those whose replies are still on their way are `awaited`. -/
structure Speaks (slaves : List UInt8) (s : Session) (m : Dialogue) (out : List EngineSignal)
    (done awaited : List (Sent × Answer)) : Prop where
  split : m.served = done ++ awaited
  reported : out = Dialogue.reports done
  paired : ModbusEngine.Paired (s.engine, Sent.table (awaited.map Prod.fst ++ m.queued))
  distinct : ((awaited.map Prod.fst ++ m.queued).map Sent.tid).Nodup
  formed : ∀ x ∈ m.queued, x.Formed
  replies : ∀ x ∈ awaited, x.1.Replies x.2
  ring : s.engine.accumulator.Holds s.downstream (awaited.map fun x => x.1.reply x.2)
  upstream : s.upstream = m.queued.flatMap fun x => buildRequest x.req
  serving : s.serving = true
  addressable : s.bank.Addressable
  device : s.bank.image slaves = m.device

section Steps
variable {slaves : List UInt8} {s : Session} {m : Dialogue} {out : List EngineSignal}
  {done awaited : List (Sent × Answer)}

/-- A write takes an id of its own and sends its request, or changes nothing. -/
theorem Speaks.write (speaks : Speaks slaves s m out done awaited) {req : ModbusRequest} (linkId : UInt32)
    (tcp : req.transport = .tcp) (within : req.quantity.toNat ≤ quantityLimit req.functionCode) :
    Speaks slaves (s.step slaves (.write req linkId)).1 (Dialogue.track slaves s m (.write req linkId) [])
      out done awaited := by
  have written := ModbusEngine.write_cases s.engine (some takesAll) req linkId
  simp only [Session.step, Dialogue.track]
  generalize s.engine.writeRequest (some takesAll) req linkId = w at written
  cases written with
  | closed absent => cases absent
  | exhausted pairs full present drawn =>
    simp only [Option.map_none, Option.getD_none, List.append_nil]
    exact speaks
  | undone pairs tid nonzero unused broken present drawn =>
    have free := speaks.paired.free unused
    have registered : ModbusEngine.Paired (s.engine.register tid ⟨linkId, req.slaveAddress⟩, _) :=
      speaks.paired.register nonzero unused
    have again := registered.forget tid
    have unowned := (congrFun speaks.paired.owners tid).symm.trans free
    rw [Function.update_idem, ModbusEngine.update_none unowned] at again
    have ring := speaks.ring
    simp only [Option.map_none, Option.getD_none, List.append_nil]
    refine { speaks with paired := again, ring := ?_ }
    rw [ModbusEngine.register_of_free free]
    exact ring
  | paired pairs c present tid nonzero unused built drawn =>
    have free := speaks.paired.free unused
    have unowned := (congrFun speaks.paired.owners tid).symm.trans free
    have registered : ModbusEngine.Paired (s.engine.register tid ⟨linkId, req.slaveAddress⟩, _) :=
      speaks.paired.register nonzero unused
    let x : Sent := ⟨{ req with transactionId := tid }, linkId⟩
    have whole : buildRequest x.req ≠ [] := fun empty =>
      (buildRequest_isEmpty x.req).mp (List.isEmpty_iff.mpr empty) built
    simp only [Option.map_some, Option.getD_some]
    refine { speaks with paired := ?_, distinct := ?_, formed := ?_, ring := ?_, upstream := ?_ }
    · rw [← List.append_assoc, table_concat (x := x) unowned]
      exact registered
    · rw [← List.append_assoc, List.map_append, List.map_singleton, List.nodup_append]
      refine ⟨speaks.distinct, List.pairwise_singleton _ _, fun a member b last => ?_⟩
      obtain ⟨y, listed, rfl⟩ := List.mem_map.mp member
      rw [List.mem_singleton.mp last]
      exact table_eq_none.mp unowned y listed
    · intro y member
      rcases List.mem_append.mp member with old | new
      · exact speaks.formed y old
      · rw [List.mem_singleton.mp new]
        exact ⟨tcp, whole, within⟩
    · rw [ModbusEngine.register_of_free free]
      exact speaks.ring
    · rw [speaks.upstream, List.flatMap_append, List.flatMap_singleton]
  | dropped unpaired named broken present => exact absurd ⟨speaks.paired.tcp, tcp⟩ unpaired
  | rejected unpaired unnamed broken present => exact absurd ⟨speaks.paired.tcp, tcp⟩ unpaired
  | passed unpaired c present built => exact absurd ⟨speaks.paired.tcp, tcp⟩ unpaired

/-- A frame that is sent behind the others is given up after them. -/
theorem holds_concat {a : ModbusStreamAccumulator} {rest frame : List UInt8} {left : List (List UInt8)}
    {transport : Transport} (holds : a.Holds rest left) (valid : ValidFrame transport frame) :
    a.Holds (rest ++ frame) (left ++ [frame]) := by
  refine ⟨holds.sound, ?_, fun f head => ?_⟩
  · rw [← List.append_assoc, holds.bytes, List.flatten_append, List.flatten_singleton]
  · cases left with
    | nil =>
      obtain rfl : frame = f := Option.some.inj head
      have empty : a.bytes = [] := (List.append_eq_nil_iff.mp holds.bytes).1
      rw [← length_bytes, empty]
      exact Nat.lt_of_lt_of_le (Nat.zero_lt_succ 4) valid.five_le
    | cons g left => exact holds.incomplete f head

/-- Bytes that follow a whole request are not read. -/
theorem mbapRequest_append {bytes later pdu : List UInt8} {hdr : MbapHeader}
    (whole : mbapRequest bytes = some (hdr, pdu)) : mbapRequest (bytes ++ later) = some (hdr, pdu) := by
  unfold mbapRequest at whole ⊢
  cases parsed : parseMbap (bytes.take 7) with
  | none =>
    rw [parsed] at whole
    cases whole
  | some header =>
    have long : 7 ≤ bytes.length := by
      by_contra short
      rw [parseMbap, if_pos (by rw [List.length_take]; omega)] at parsed
      cases parsed
    rw [parsed] at whole
    rw [List.take_append_of_le_length long, parsed]
    simp only at whole ⊢
    split at whole
    · cases whole
    · rename_i clean
      rw [if_neg clean]
      split at whole
      · cases whole
      · rename_i enough
        have count : ((bytes.drop 7).take (header.length.toNat - 1)).length = header.length.toNat - 1 := by
          simpa using enough
        have inside : header.length.toNat - 1 ≤ (bytes.drop 7).length := by
          rw [← count, List.length_take]
          exact Nat.min_le_right _ _
        rw [List.drop_append_of_le_length long, List.take_append_of_le_length inside, if_neg enough]
        exact whole

/-- A turn of the server on a request of the application: the device obeys, and the reply carries its
answer. -/
theorem step_serve {x : Sent} {later : List UInt8} (sent : x.Formed) (addressable : s.bank.Addressable)
    (serving : s.serving = true) (stream : s.upstream = buildRequest x.req ++ later) :
    let done := (s.bank.image slaves).obey x.req.slaveAddress (commandOf x.req)
    x.Replies done.2 ∧ ∃ bank : RegisterBank, bank.Addressable ∧ bank.image slaves = done.1 ∧
      s.step slaves .serve =
        ({ s with bank := bank, upstream := later, downstream := s.downstream ++ x.reply done.2 }, []) := by
  intro done
  obtain ⟨pdu, encoded, frame⟩ := built_frame sent.built
  have handled : Handled slaves s.bank x.req pdu := handled_built addressable encoded sent.within
  rw [sent.tcp] at frame
  have waiting : s.upstream.isEmpty = false := by
    rw [stream, List.isEmpty_eq_false_iff]
    exact List.append_ne_nil_of_left_ne_nil sent.built _
  have bytes : delivered [s.upstream] = s.upstream := delivered_single s.upstream
  have front : mbapRequest s.upstream =
      some (⟨x.req.transactionId, 0, UInt16.ofNat (1 + pdu.length), x.req.slaveAddress⟩, pdu) := by
    rw [stream, frame]
    exact mbapRequest_append (mbapRequest_framed _ _ handled.arrives.filled handled.arrives.short)
  refine ⟨sent.replies encoded handled.formed handled.fits, _, handled.handles.addressable, handled.handles.device, ?_⟩
  obtain ⟨nothing, -⟩ | ⟨hdr, pdu', left, taken, remaining, turned⟩ :=
    clientTurn_stream (dispatchHandler slaves) (noFault (S := RegisterBank)) s.bank [s.upstream]
  · rw [bytes, front] at nothing
    cases nothing
  · rw [bytes, front] at taken
    obtain ⟨rfl, rfl⟩ := Prod.mk.inj (Option.some.inj taken)
    have size : (buildRequest x.req).length = 7 + pdu.length := by
      rw [frame, List.length_append]
      rfl
    have remains : delivered left = later := by
      rw [remaining, bytes, ← size, stream, List.drop_left]
    have unchanged : FaultEffect.Passes ({} : FaultEffect Nat) := rfl
    have replied := replyUnder_passes unchanged
      ⟨x.req.transactionId, 0, UInt16.ofNat (1 + pdu.length), x.req.slaveAddress⟩ handled.answers
    rw [handled.handles.answer] at replied
    simp only [noFault, handled.handles.answer, replied, Option.map_some] at turned
    simp only [Session.step, serving, waiting, turned, remains, Bool.not_true, Bool.or_self, Bool.false_eq_true,
      if_false]
    rfl

/-- The server takes the oldest request, and its reply goes behind the others. -/
theorem Speaks.serve (speaks : Speaks slaves s m out done awaited) :
    ∃ awaited', awaited'.map Prod.fst ++ m.serve.queued = awaited.map Prod.fst ++ m.queued ∧
      Speaks slaves (s.step slaves .serve).1 m.serve out done awaited' := by
  unfold Dialogue.serve
  cases queue : m.queued with
  | nil =>
    have nothing : s.upstream = [] := by rw [speaks.upstream, queue, List.flatMap_nil]
    have waits : s.step slaves .serve = (s, []) := by simp [Session.step, nothing]
    rw [waits]
    exact ⟨awaited, congrArg (awaited.map Prod.fst ++ ·) queue, speaks⟩
  | cons x rest =>
    have sent := speaks.formed x (queue ▸ List.mem_cons_self)
    have stream : s.upstream = buildRequest x.req ++ rest.flatMap fun y => buildRequest y.req := by
      rw [speaks.upstream, queue, List.flatMap_cons]
    have served := @step_serve slaves s x _ sent speaks.addressable speaks.serving stream
    rw [speaks.device] at served
    obtain ⟨replies, bank, addressable, device, stepped⟩ := served
    rw [stepped]
    dsimp only
    generalize m.device.obey x.req.slaveAddress (commandOf x.req) = answered at *
    have order : (awaited ++ [(x, answered.2)]).map Prod.fst ++ rest = awaited.map Prod.fst ++ m.queued := by
      rw [queue, List.map_append, List.append_assoc]
      rfl
    refine ⟨awaited ++ [(x, answered.2)], queue ▸ order, ?_⟩
    exact
      { split := by rw [speaks.split, List.append_assoc]
        reported := speaks.reported
        paired := by
          rw [order]
          exact speaks.paired
        distinct := by
          rw [order]
          exact speaks.distinct
        formed := fun y member => speaks.formed y (queue ▸ List.mem_cons_of_mem x member)
        replies := List.forall_mem_append.mpr ⟨speaks.replies, List.forall_mem_singleton.mpr replies⟩
        ring := by
          rw [List.map_append]
          exact holds_concat speaks.ring replies.valid
        upstream := rfl
        serving := speaks.serving
        addressable := addressable
        device := device }

/-- The reply to the oldest request is reported under it, and the request leaves the table. -/
theorem reply_reported {e : ModbusEngine} {x : Sent} {a : Answer} {later : List Sent}
    (paired : ModbusEngine.Paired (e, Sent.table (x :: later))) (distinct : ((x :: later).map Sent.tid).Nodup)
    (replies : x.Replies a) :
    e.inFlight x.tid = some x.entry ∧ e.onFrame (x.reply a) = (e.forget x.tid, x.report a) ∧
      ModbusEngine.Paired (e.forget x.tid, Sent.table later) := by
  have hit : e.inFlight x.tid = some x.entry := by
    rw [congrFun paired.owners x.tid]
    exact table_head
  have handled := ModbusEngine.onFrame_hit paired.tcp replies.parsed (replies.own ▸ hit)
  have forgotten := paired.forget x.tid
  have tail : Function.update (Sent.table (x :: later)) x.tid none = Sent.table later := table_tail distinct rfl
  rw [tail] at forgotten
  rw [replies.own] at handled
  exact ⟨hit, handled, forgotten⟩

/-- Replies that come in their order are reported under their own requests, which leave the table. -/
theorem replies_reported {e : ModbusEngine} {later : List Sent} (first : List (Sent × Answer))
    (paired : ModbusEngine.Paired (e, Sent.table (first.map Prod.fst ++ later)))
    (distinct : ((first.map Prod.fst ++ later).map Sent.tid).Nodup) (replies : ∀ x ∈ first, x.1.Replies x.2) :
    let frames := first.map fun x => x.1.reply x.2
    Runs.outputs ModbusEngine.onFrame e frames = Dialogue.reports first ∧
      ModbusEngine.Paired (Runs.run ModbusEngine.onFrame e frames, Sent.table later) ∧
      (Runs.run ModbusEngine.onFrame e frames).accumulator = e.accumulator := by
  induction first generalizing e with
  | nil => exact ⟨rfl, paired, rfl⟩
  | cons x first ih =>
    obtain ⟨here, others⟩ := List.forall_mem_cons.mp replies
    obtain ⟨-, handled, forgotten⟩ := reply_reported paired distinct here
    obtain ⟨reported, paired', ring⟩ := ih forgotten (List.nodup_cons.mp distinct).2 others
    simp only [List.map_cons, Runs.outputs, Runs.run, handled]
    refine ⟨?_, paired', ring⟩
    rw [reported]
    rfl

theorem receive_accumulator (e : ModbusEngine) (data : List UInt8) :
    (e.receive data).1.accumulator =
      (ModbusStreamAccumulator.feeding (e.transport = .tcp) e.accumulator data).1 := by
  rw [ModbusEngine.receive, ModbusStreamAccumulator.feeding]
  split <;> rfl

/-- The bytes that arrive bring the replies they complete. -/
theorem Speaks.deliver (speaks : Speaks slaves s m out done awaited) (n : Nat)
    (room : s.engine.accumulator.size + (s.downstream.take n).length ≤ capacity) :
    ∃ first second, awaited = first ++ second ∧
      (s.engine.receive (s.downstream.take n)).2 = (first.map fun x => x.1.reply x.2) ∧
      Speaks slaves (s.step slaves (.deliver n)).1 m (out ++ (s.step slaves (.deliver n)).2) (done ++ first)
        second := by
  have ring : s.engine.accumulator.Holds (s.downstream.take n ++ s.downstream.drop n)
      (awaited.map fun x => x.1.reply x.2) := by
    rw [List.take_append_drop]
    exact speaks.ring
  have valid : ∀ f ∈ awaited.map fun x => x.1.reply x.2, ValidFrame .tcp f := by
    intro f member
    obtain ⟨x, listed, rfl⟩ := List.mem_map.mp member
    exact (speaks.replies x listed).valid
  obtain ⟨left, cut, holds⟩ := ring.feeding valid room
  obtain ⟨first, second, rfl, frames, rest⟩ := List.map_eq_append_iff.mp cut
  have tcp : s.engine.transport = .tcp := speaks.paired.tcp
  have received := speaks.paired.receive (s.downstream.take n)
  have order : (first ++ second).map Prod.fst ++ m.queued =
      first.map Prod.fst ++ (second.map Prod.fst ++ m.queued) := by
    rw [List.map_append, List.append_assoc]
  have distinct := speaks.distinct
  rw [order] at received distinct
  obtain ⟨known, others⟩ := List.forall_mem_append.mp speaks.replies
  obtain ⟨reported, paired, kept⟩ := replies_reported first received distinct known
  have given : (s.engine.receive (s.downstream.take n)).2 = first.map fun x => x.1.reply x.2 := by
    rw [ModbusEngine.receive_feeding, tcp, frames]
  refine ⟨first, second, rfl, given, ?_⟩
  simp only [Session.step, ModbusEngine.onBytesReceived, given]
  refine { speaks with split := ?_, reported := ?_, paired := paired, distinct := ?_, replies := others, ring := ?_ }
  · rw [speaks.split, List.append_assoc]
  · rw [reported, speaks.reported, Dialogue.reports, Dialogue.reports, Dialogue.reports, List.flatMap_append]
  · rw [List.map_append, List.nodup_append] at distinct
    exact distinct.2.1
  · rw [kept, receive_accumulator, tcp, rest]
    exact holds

/-- Registers that are published are those of the device, where their slave is served. -/
theorem Speaks.publish (speaks : Speaks slaves s m out done awaited) (slave : UInt8) {regs : SlaveRegset}
    (fits : regs.Addressable) : Speaks slaves { s with bank := s.bank.publish slave regs }
      (if slave ∈ slaves then { m with device := Function.update m.device slave (some regs.image) } else m) out done
      awaited := by
  have image := RegisterBank.image_publish_eq s.bank slaves slave regs
  rw [speaks.device] at image
  have published : (if slave ∈ slaves then { m with device := Function.update m.device slave (some regs.image) }
      else m) = { m with device := (s.bank.publish slave regs).image slaves } := by
    rw [image]
    split <;> rfl
  rw [published]
  exact { speaks with addressable := speaks.addressable.publish fits, device := rfl }

end Steps

/-- What a connection has come to: the signals are the reports of the first answers in the order of their
requests, and the table has the requests without a report. Nothing is outstanding when no byte is. -/
structure Accounts (slaves : List UInt8) (s : Session) (m : Dialogue) (out : List EngineSignal)
    (done awaited : List (Sent × Answer)) : Prop where
  served : m.served = done ++ awaited
  signals : out = Dialogue.reports done
  inFlight : s.engine.inFlight = Sent.table (awaited.map Prod.fst ++ m.queued)
  arrived : s.downstream = [] → awaited = []
  taken : s.upstream = [] → m.queued = []
  serving : s.serving = true
  device : s.bank.image slaves = m.device

theorem Speaks.accounts {slaves : List UInt8} {s : Session} {m : Dialogue} {out : List EngineSignal}
    {done awaited : List (Sent × Answer)} (speaks : Speaks slaves s m out done awaited) :
    Accounts slaves s m out done awaited := by
  refine ⟨speaks.split, speaks.reported, speaks.paired.owners, fun empty => ?_, fun empty => ?_, speaks.serving,
    speaks.device⟩
  · have ring := speaks.ring
    rw [empty] at ring
    exact List.map_eq_nil_iff.mp ring.done.1
  · have stream := speaks.upstream
    rw [empty] at stream
    apply List.eq_nil_iff_forall_not_mem.mpr
    intro x member
    exact (speaks.formed x member).built (List.flatMap_eq_nil_iff.mp stream.symm x member)

theorem Speaks.step {slaves : List UInt8} {s : Session} {m : Dialogue} {out : List EngineSignal}
    {done awaited : List (Sent × Answer)} (speaks : Speaks slaves s m out done awaited) {event : SessionEvent}
    (orderly : event.Orderly s) : ∃ done' awaited', Speaks slaves (s.step slaves event).1
      (Dialogue.track slaves s m event (s.step slaves event).2) (out ++ (s.step slaves event).2) done' awaited' := by
  cases event with
  | write req linkId =>
    have quiet : (s.step slaves (.write req linkId)).2 = [] := rfl
    rw [quiet, List.append_nil]
    exact ⟨done, awaited, speaks.write linkId orderly.1 orderly.2⟩
  | serve =>
    have quiet : (s.step slaves .serve).2 = [] := by
      simp only [Session.step]
      split
      · rfl
      · split <;> rfl
    rw [quiet, List.append_nil]
    obtain ⟨awaited', -, served⟩ := speaks.serve
    exact ⟨done, awaited', served⟩
  | deliver n =>
    obtain ⟨first, second, -, -, delivered⟩ := speaks.deliver n orderly
    exact ⟨done ++ first, second, delivered⟩
  | publish slave regs =>
    have quiet : (s.step slaves (.publish slave regs)).2 = [] := rfl
    rw [quiet, List.append_nil]
    exact ⟨done, awaited, speaks.publish slave orderly⟩

theorem speaks_start (slaves : List UInt8) {bank : RegisterBank} (addressable : bank.Addressable) :
    Speaks slaves { bank := bank } { device := bank.image slaves } [] [] [] :=
  { split := rfl
    reported := rfl
    paired := ModbusEngine.paired_start
    distinct := List.nodup_nil
    formed := fun x none => absurd none List.not_mem_nil
    replies := fun x none => absurd none List.not_mem_nil
    ring := ⟨sound_empty, rfl, fun f none => by cases none⟩
    upstream := rfl
    serving := rfl
    addressable := addressable
    device := rfl }

/-- The connection beside its account. -/
def conversation (slaves : List UInt8) : Runs.Step (Session × Dialogue) SessionEvent EngineSignal :=
  Runs.watch (Session.step slaves) (Dialogue.track slaves)

/-- Whatever order the writes, the turns of the server, the arriving bytes and the publications come in,
every answer is reported once, under the write it belongs to and in the order of the writes. -/
theorem answers_in_order (slaves : List UInt8) {bank : RegisterBank} (addressable : bank.Addressable)
    (events : List SessionEvent)
    (orderly : ∀ v ∈ Runs.visits (conversation slaves) ({ bank := bank }, { device := bank.image slaves }) events,
      v.2.Orderly v.1.1) :
    let last := Runs.run (conversation slaves) ({ bank := bank }, { device := bank.image slaves }) events
    ∃ done awaited, Accounts slaves last.1 last.2
      (Runs.outputs (conversation slaves) ({ bank := bank }, { device := bank.image slaves }) events) done awaited := by
  intro last
  have spoken := Runs.history_invariant (conversation slaves) events
    (I := fun x out => ∃ done awaited, Speaks slaves x.1 x.2 out done awaited)
    (A := fun x event => event.Orderly x.1)
    ⟨[], [], speaks_start slaves addressable⟩
    (by
      intro x out event spoken orderly
      obtain ⟨done, awaited, speaks⟩ := spoken
      exact speaks.step orderly)
    orderly
  obtain ⟨done, awaited, speaks⟩ := spoken
  exact ⟨done, awaited, speaks.accounts⟩

/-- Two reads on their way at once. The registers change between the two answers, and the first reply
arrives in two pieces. -/
def twoReads : List SessionEvent :=
  [.write ⟨.tcp, 0, 1, 0x03, 0, 1, [], []⟩ 7, .write ⟨.tcp, 0, 1, 0x03, 1, 1, [], []⟩ 8, .serve, .publish 1 {}, .serve,
    .deliver 5, .deliver 100]

theorem orderly_twoReads : ∀ v ∈ Runs.visits (conversation [1])
    ({ bank := fourRegisters }, { device := fourRegisters.image [1] }) twoReads, v.2.Orderly v.1.1 := by
  intro v member
  simp only [twoReads, Runs.visits, List.mem_cons, List.not_mem_nil, or_false] at member
  rcases member with rfl | rfl | rfl | rfl | rfl | rfl | rfl
  · exact ⟨rfl, by decide⟩
  · exact ⟨rfl, by decide⟩
  · trivial
  · intro t
    cases t <;> decide
  · trivial
  · exact Nat.le_of_ble_eq_true (by decide +kernel)
  · exact Nat.le_of_ble_eq_true (by decide +kernel)

theorem answers_in_order_two :
    ∃ done awaited, Accounts [1]
      (Runs.run (conversation [1]) ({ bank := fourRegisters }, { device := fourRegisters.image [1] }) twoReads).1
      (Runs.run (conversation [1]) ({ bank := fourRegisters }, { device := fourRegisters.image [1] }) twoReads).2
      (Runs.outputs (conversation [1]) ({ bank := fourRegisters }, { device := fourRegisters.image [1] }) twoReads)
      done awaited :=
  answers_in_order [1] addressable_fourRegisters twoReads orderly_twoReads

end EnerSentry.Sim
