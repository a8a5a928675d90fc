import EnerSentry.App.PollDriver

/-!
What the events of the worker can do to its driver. A poll is sent by a tick only, and
then it becomes the pending one; every other event leaves the pending poll alone or gives
it up. Samples come from the one response that the driver takes for the answer to its
pending poll.
-/

namespace EnerSentry.App.PollWorld
open EnerSentry.Lib EnerSentry.Protocol

variable {K : Type*}

/-- The pending poll stays as it is or is given up; the plan and the transport stay. -/
structure Calm (w w' : PollWorld K) : Prop where
  transport : w'.engine.transport = w.engine.transport
  segments : w'.driver.segments = w.driver.segments
  pending : w'.driver.pending.active = true → w'.driver.pending = w.driver.pending

/-- The read of the segment `index` went out and is pending. -/
structure Polls (w w' : PollWorld K) (out : List (PollOutput K)) (index : Nat) (seg : Segment K)
    (tid : UInt16) (n : Int) : Prop where
  transport : w'.engine.transport = w.engine.transport
  segments : w'.driver.segments = w.driver.segments
  planned : w.driver.segments[index]? = some seg
  pending : w'.driver.pending =
    ⟨seg.slave.toUInt32, seg.slave, fcForRead seg.rt, seg.startAddr, seg.qty, index, true⟩
  accepted : 0 ≤ n
  written : out = [.written seg.slave.toUInt32 { readRequest seg with transactionId := tid } n]

section Calm
variable {w w' w'' : PollWorld K} {clock : Clock} {linkId : UInt32} {slave : UInt8}

theorem Calm.refl (w : PollWorld K) : w.Calm w := ⟨rfl, rfl, fun _ => rfl⟩

theorem Calm.trans (first : w.Calm w') (second : w'.Calm w'') : w.Calm w'' := by
  refine ⟨second.transport.trans first.transport, second.segments.trans first.segments, ?_⟩
  intro active
  have kept := second.pending active
  rw [kept] at active ⊢
  exact first.pending active

/-- A change that neither the plan, the pending poll nor the transport shows. -/
theorem Calm.of_eq (transport : w'.engine.transport = w.engine.transport)
    (segments : w'.driver.segments = w.driver.segments) (pending : w'.driver.pending = w.driver.pending) :
    w.Calm w' := ⟨transport, segments, fun _ => pending⟩

theorem pending_scheduleNext (w : PollWorld K) : w.scheduleNext.driver.pending = w.driver.pending := by
  rw [scheduleNext, PollDriver.scheduleNext]
  split <;> rfl

theorem segments_scheduleNext (w : PollWorld K) : w.scheduleNext.driver.segments = w.driver.segments := by
  rw [scheduleNext, PollDriver.scheduleNext]
  split <;> rfl

theorem calm_scheduleNext (w : PollWorld K) : w.Calm w.scheduleNext :=
  Calm.of_eq rfl (segments_scheduleNext w) (pending_scheduleNext w)

theorem calm_write (w : PollWorld K) (channel : Channel) (req : ModbusRequest) (linkId : UInt32) :
    w.Calm (w.write channel req linkId).1 :=
  Calm.of_eq (ModbusEngine.transport_writeRequest _) rfl rfl

theorem calm_receive {data : List UInt8} : w.Calm (w.receive data).1 :=
  Calm.of_eq ModbusEngine.transport_receive rfl rfl

theorem calm_settle {ok : Bool} : w.Calm (w.settle clock slave ok).1 :=
  ⟨rfl, rfl, fun active => absurd active Bool.false_ne_true⟩

theorem calm_onFrameError {kind : FrameErrorKind} : w.Calm (w.onFrameError clock linkId slave kind).1 := by
  simp only [onFrameError]
  split
  · exact calm_settle
  · exact Calm.refl w

/-- Everything a write reports is its one request, with the channel's answer. -/
theorem written_write {channel : Channel} {req r : ModbusRequest} {link : UInt32} {n : Int}
    (reported : .written link r n ∈ (w.write channel req linkId).2.2) :
    n = (w.write channel req linkId).2.1 := by
  simp only [write] at reported ⊢
  split at reported
  · simp only [List.mem_singleton, PollOutput.written.injEq] at reported
    exact reported.2.2
  · exact absurd reported List.not_mem_nil

theorem accepted_write {channel : Channel} {req : ModbusRequest}
    (accepted : 0 ≤ (w.write channel req linkId).2.1) : ∃ tid, (w.write channel req linkId).2.2 =
      [.written linkId { req with transactionId := tid } (w.write channel req linkId).2.1] := by
  obtain ⟨tid, handed⟩ := ModbusEngine.handed_writeRequest accepted
  exact ⟨tid, by simp only [write, handed]⟩

/-- Nothing was sent that the channel accepted, and the pending poll is what it was. -/
def Idles (w w' : PollWorld K) (out : List (PollOutput K)) : Prop :=
  w.Calm w' ∧ ∀ linkId req n, .written linkId req n ∈ out → n < 0

theorem pollSegment_cases {index : Nat} {seg : Segment K} (channel : Channel)
    (planned : w.driver.segments[index]? = some seg) :
    w.Idles (w.pollSegment channel index seg).1 (w.pollSegment channel index seg).2 ∨
    ∃ tid n, w.Polls (w.pollSegment channel index seg).1 (w.pollSegment channel index seg).2
      index seg tid n := by
  simp only [pollSegment]
  generalize (w.scheduler.enqueue (.normal seg.slave seg.slave 1000)).dequeueNext seg.slave = next
  generalize turned : ({ w with
    scheduler := next.1
    driver := { w.driver with nextSegIdx := w.driver.nextSegIdx + 1 } } : PollWorld K) = v
  have same : w.Calm v := by
    subst turned
    exact Calm.of_eq rfl rfl rfl
  split
  · exact Or.inl ⟨same.trans (calm_scheduleNext v), by simp⟩
  · have wrote := calm_write v channel (readRequest seg) seg.slave.toUInt32
    split
    · rename_i refused
      refine Or.inl ⟨(same.trans wrote).trans (calm_scheduleNext _), ?_⟩
      intro linkId req n reported
      rw [written_write reported]
      exact refused
    · rename_i accepted
      obtain ⟨tid, out⟩ := accepted_write (Int.not_lt.mp accepted)
      refine Or.inr ⟨tid, _, ?_, ?_, planned, ?_, Int.not_lt.mp accepted, out⟩
      · exact wrote.transport.trans same.transport
      · rw [segments_scheduleNext]
        exact wrote.segments.trans same.segments
      · rw [pending_scheduleNext]
        rfl

theorem onPollTick_cases (w : PollWorld K) (channel : Channel) :
    w.Idles (w.onPollTick channel).1 (w.onPollTick channel).2 ∨
    ∃ index seg tid n, w.Polls (w.onPollTick channel).1 (w.onPollTick channel).2 index seg tid n := by
  simp only [onPollTick]
  split
  · exact Or.inl ⟨Calm.refl w, by simp⟩
  · split
    · exact Or.inl ⟨calm_scheduleNext w, by simp⟩
    · split
      · exact Or.inl ⟨calm_scheduleNext w, by simp⟩
      · rename_i seg planned
        obtain idles | polls := pollSegment_cases channel planned
        · exact Or.inl idles
        · exact Or.inr ⟨_, seg, polls⟩

/-- A tick sends the poll of one planned segment, or nothing that the channel accepted. -/
theorem onTimeout_cases (w : PollWorld K) (channel : Channel) :
    w.Idles (w.onTimeout channel).1 (w.onTimeout channel).2 ∨
    ∃ index seg tid n, w.Polls (w.onTimeout channel).1 (w.onTimeout channel).2 index seg tid n := by
  simp only [onTimeout]
  split
  · exact Or.inl ⟨Calm.refl w, by simp⟩
  · obtain ⟨calm, quiet⟩ | ⟨index, seg, tid, n, polls⟩ := onPollTick_cases { w with
      driver := { w.driver with armed := w.driver.armed - 1 } } channel
    · exact Or.inl ⟨⟨calm.transport, calm.segments, calm.pending⟩, quiet⟩
    · exact Or.inr ⟨index, seg, tid, n, polls.transport, polls.segments, polls.planned, polls.pending,
        polls.accepted, polls.written⟩

end Calm

section Errors
variable {w : PollWorld K} {clock : Clock} {linkId : UInt32} {slave : UInt8} {d : Decoded K}

theorem not_decoded_settle {ok : Bool} : .decoded d ∉ (w.settle clock slave ok).2 := by
  simp [settle]

theorem not_decoded_onFrameError {kind : FrameErrorKind} :
    .decoded d ∉ (w.onFrameError clock linkId slave kind).2 := by
  intro reported
  simp only [onFrameError] at reported
  rcases List.mem_append.mp reported with settled | seen
  · split at settled
    · exact not_decoded_settle settled
    · exact absurd settled List.not_mem_nil
  · exact absurd (List.mem_singleton.mp seen) (by simp)

theorem not_decoded_write {channel : Channel} {req : ModbusRequest} :
    .decoded d ∉ (w.write channel req linkId).2.2 := by
  simp only [write]
  split <;> simp

theorem not_decoded_onTimeout {channel : Channel} : .decoded d ∉ (w.onTimeout channel).2 := by
  simp only [onTimeout]
  split
  · exact List.not_mem_nil
  · simp only [onPollTick]
    split
    · exact List.not_mem_nil
    · split
      · exact List.not_mem_nil
      · split
        · exact List.not_mem_nil
        · simp only [pollSegment]
          split
          · exact List.not_mem_nil
          · split <;> exact not_decoded_write

end Errors

section Responses
variable [Zero K] [One K] [Add K] [Mul K] {cv : Conversions K} {w : PollWorld K} {clock : Clock}
  {linkId : UInt32} {slave : UInt8} {resp : ModbusResponse} {d : Decoded K} {frame data : List UInt8}

/-- A response of a read: the only ones the driver looks at. -/
def isRead (resp : ModbusResponse) : Prop :=
  0x01 ≤ resp.functionCode &&& 0x7F ∧ resp.functionCode &&& 0x7F ≤ 0x04

/-- What the driver makes of the response to its pending poll. -/
def answer (cv : Conversions K) (w : PollWorld K) (clock : Clock) (resp : ModbusResponse) : Decoded K :=
  decodeSegment cv (w.driver.segments.getD w.driver.pending.segmentIndex {}) resp clock.epochMs

theorem calm_onResponseParsed : w.Calm (w.onResponseParsed cv clock linkId slave resp).1 := by
  simp only [onResponseParsed]
  split
  · exact Calm.refl w
  · split
    · exact Calm.refl w
    · split <;> exact calm_settle

theorem calm_onSignal (signal : EngineSignal) : w.Calm (w.onSignal cv clock signal).1 := by
  cases signal with
  | responseParsed linkId slave resp => exact calm_onResponseParsed
  | frameError linkId slave kind => exact calm_onFrameError

/-- A response is taken apart when it is normal, of a read, and what the driver expects. -/
theorem decoded_onResponseParsed : .decoded d ∈ (w.onResponseParsed cv clock linkId slave resp).2 ↔
    isRead resp ∧ w.driver.expects linkId slave resp = true ∧ resp.isException = false ∧
      d = answer cv w clock resp := by
  simp only [onResponseParsed, isRead, Bool.or_eq_true, decide_eq_true_eq]
  split
  · rename_i outside
    simp only [List.not_mem_nil, false_iff]
    rintro ⟨⟨least, most⟩, -⟩
    exact outside.elim (UInt8.not_lt.mpr least) (UInt8.not_lt.mpr most)
  · rename_i inside
    rw [not_or, UInt8.not_lt, UInt8.not_lt] at inside
    split
    · rename_i unexpected
      simp_all
    · rename_i expected
      split
      · rename_i failed
        simp [failed, not_decoded_settle]
      · rename_i normal
        simp_all [not_decoded_settle, answer]

theorem decoded_onFrame_hit {entry : InFlightEntry} (tcp : w.engine.transport = .tcp)
    (parsed : parseTcpResponse frame = some resp)
    (hit : w.engine.inFlight resp.transactionId = some entry) :
    .decoded d ∈ (w.onFrame cv clock frame).2 ↔
      isRead resp ∧ w.driver.expects entry.linkId entry.slaveAddress resp = true ∧
        resp.isException = false ∧ d = answer cv w clock resp := by
  simp only [onFrame, ModbusEngine.onFrame_hit tcp parsed hit, ModbusEngine.reportResponse]
  split
  · rename_i failed
    -- the exception is reported twice, and neither report is taken apart
    simp only [Runs.outputs, onSignal, List.append_nil, List.mem_append, decoded_onResponseParsed, failed,
      Bool.true_eq_false, false_and, and_false, false_or, not_decoded_onFrameError]
  · simp only [Runs.outputs, onSignal, List.append_nil, decoded_onResponseParsed]
    rfl

theorem not_decoded_onFrame_miss (tcp : w.engine.transport = .tcp)
    (miss : ∀ resp, parseTcpResponse frame = some resp → w.engine.inFlight resp.transactionId = none) :
    .decoded d ∉ (w.onFrame cv clock frame).2 := by
  obtain ⟨slave, kind, reported⟩ := ModbusEngine.onFrame_miss tcp miss
  simp only [onFrame, reported, Runs.outputs, List.append_nil, onSignal]
  exact not_decoded_onFrameError

theorem calm_onFrame (frame : List UInt8) : w.Calm (w.onFrame cv clock frame).1 := by
  have engine : w.Calm { w with engine := (w.engine.onFrame frame).1 } :=
    Calm.of_eq ModbusEngine.transport_onFrame rfl rfl
  exact Runs.reached_always (onSignal cv clock) (w.engine.onFrame frame).2 (I := w.Calm) engine
    (fun _ signal calm => calm.trans (calm_onSignal signal)) _ Runs.run_mem_reached

/-- All along a chunk of bytes the pending poll is only ever given up. -/
theorem calm_reached {v : PollWorld K}
    (reached : v ∈ Runs.reached (onFrame cv clock) (w.receive data).1 (w.receive data).2) : w.Calm v :=
  Runs.reached_always (onFrame cv clock) (w.receive data).2 (I := w.Calm) calm_receive
    (fun _ frame calm => calm.trans (calm_onFrame frame)) v reached

/-- A tick aside, no event sends a poll. -/
theorem calm_step {e : PollEvent} (other : ∀ channel, e ≠ .tick channel) : w.Calm (step cv w e).1 := by
  cases e with
  | startPolling intervalMs =>
    exact Calm.of_eq rfl (segments_scheduleNext { w with driver := _ })
      (pending_scheduleNext { w with driver := _ })
  | stopPolling => exact Calm.of_eq rfl rfl rfl
  | resetPending => exact ⟨rfl, rfl, fun active => absurd active Bool.false_ne_true⟩
  | tick channel => exact absurd rfl (other channel)
  | sboCommand cmd channel => exact calm_write w channel (sboRequest cmd) 1
  | bytes clock data => exact calm_reached Runs.run_mem_reached
  | connectionChanged connected =>
    exact Calm.of_eq (ModbusEngine.transport_onConnectionChanged connected) rfl rfl

theorem transport_step {e : PollEvent} : (step cv w e).1.engine.transport = w.engine.transport := by
  by_cases tick : ∃ channel, e = .tick channel
  · obtain ⟨channel, rfl⟩ := tick
    obtain idles | ⟨index, seg, tid, n, polls⟩ := onTimeout_cases w channel
    · exact idles.1.transport
    · exact polls.transport
  · exact (calm_step fun channel same => tick ⟨channel, same⟩).transport

end Responses
end EnerSentry.App.PollWorld
