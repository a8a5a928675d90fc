import EnerSentry.App.PollTransitions

/-!
Which request a published sample answers. A monitor beside the worker keeps the last
request handed to the channel under each transaction id, and the request of the last poll
that was sent. The driver matches a response by link, slave and function code only, so a
response to an abandoned poll that is still in flight passes for the answer to the next
one.
-/

namespace EnerSentry.App
open EnerSentry.Lib EnerSentry.Protocol

/-- A request handed to the channel; no two of a run share their serial. -/
structure Ask where
  serial : Nat
  linkId : UInt32
  request : ModbusRequest
  deriving DecidableEq

/-- The requests of a run: how many there were, the last one under each transaction id,
and the one of the last poll that was sent. -/
structure Asks where
  count : Nat := 0
  asked : UInt16 → Option Ask := fun _ => none
  poll : Option Ask := none

variable {K : Type*}

namespace Asks

def record (polled : Bool) (m : Asks) : PollOutput K → Asks
  | .written linkId request result =>
      let ask : Ask := ⟨m.count, linkId, request⟩
      { count := m.count + 1
        asked := Function.update m.asked request.transactionId (some ask)
        poll := if polled && 0 ≤ result then some ask else m.poll }
  | _ => m

/-- Only a tick sends polls; every other request is an operator's write. -/
def track (_ : PollWorld K) (m : Asks) (e : PollEvent) (out : List (PollOutput K)) : Asks :=
  out.foldl (record (match e with | .tick _ => true | _ => false)) m

end Asks

/-- The request reads every address of the point. -/
structure AsksFor (r : ModbusRequest) (pr : PointRuntime K) : Prop where
  slave : r.slaveAddress = pr.slaveAddress
  functionCode : r.functionCode = fcForRead pr.regType
  first : r.startingAddress.toNat ≤ pr.registerAddr.toNat
  last : pr.registerAddr.toNat + pointWidth pr ≤ r.startingAddress.toNat + r.quantity.toNat

/-- A normal response to another request in flight that agrees with the pending poll in
link, slave and function code. -/
def Stray (m : Asks) (w : PollWorld K) (frame : List UInt8) : Prop :=
  ∃ resp entry, parseTcpResponse frame = some resp ∧
    w.engine.inFlight resp.transactionId = some entry ∧ resp.isException = false ∧
    w.driver.expects entry.linkId entry.slaveAddress resp = true ∧
    m.asked resp.transactionId ≠ m.poll

namespace PollWorld

/-- The driver follows its plan, and a pending poll is the monitor's last poll: the read of
the segment it stands for. -/
structure Driving (points : List (PointRuntime K)) (w : PollWorld K) (m : Asks) : Prop where
  transport : w.engine.transport = .tcp
  segments : w.driver.segments = buildSegments points
  pending : w.driver.pending.active = true → ∃ seg ask tid,
    (buildSegments points)[w.driver.pending.segmentIndex]? = some seg ∧ m.poll = some ask ∧
      ask.request = { readRequest seg with transactionId := tid } ∧
      w.driver.pending.functionCode = fcForRead seg.rt

section Monitor
variable {m : Asks} {polled : Bool} {out : List (PollOutput K)}

theorem poll_record (o : PollOutput K)
    (quiet : polled = true → ∀ linkId req n, o = .written linkId req n → n < 0) :
    (m.record polled o).poll = m.poll := by
  cases o with
  | written linkId req n =>
    simp only [Asks.record, Bool.and_eq_true, decide_eq_true_eq]
    rw [if_neg]
    rintro ⟨poll, accepted⟩
    have refused := quiet poll linkId req n rfl
    omega
  | _ => rfl

/-- The last poll stays the last one while no other is sent. -/
theorem poll_foldl_record
    (quiet : polled = true → ∀ linkId req n, .written linkId req n ∈ out → n < 0) :
    (out.foldl (Asks.record polled) m).poll = m.poll := by
  induction out generalizing m with
  | nil => rfl
  | cons o out ih =>
    rw [List.foldl_cons, ih fun poll linkId req n member => quiet poll linkId req n (.tail _ member)]
    apply poll_record
    intro poll linkId req n same
    exact quiet poll linkId req n (same ▸ .head _)

end Monitor

section Invariant
variable {points : List (PointRuntime K)} {w w' : PollWorld K} {m m' : Asks} {out : List (PollOutput K)}
  {resp : ModbusResponse}

theorem driving_fresh : Driving points (fresh points) m :=
  ⟨rfl, rfl, fun active => absurd active Bool.false_ne_true⟩

theorem Driving.calm (driving : Driving points w m) (calm : w.Calm w') (same : m'.poll = m.poll) :
    Driving points w' m' := by
  refine ⟨calm.transport.trans driving.transport, calm.segments.trans driving.segments, ?_⟩
  intro active
  have kept := calm.pending active
  rw [kept] at active ⊢
  rw [same]
  exact driving.pending active

/-- A poll that goes out is the monitor's last poll from then on. -/
theorem Driving.polls (driving : Driving points w m) {channel : Channel} {index : Nat} {seg : Segment K}
    {tid : UInt16} {n : Int} (polls : w.Polls w' out index seg tid n) :
    Driving points w' (Asks.track w m (.tick channel) out) := by
  refine ⟨polls.transport.trans driving.transport, polls.segments.trans driving.segments, ?_⟩
  intro _
  rw [polls.pending, polls.written, ← driving.segments]
  refine ⟨seg, ⟨m.count, seg.slave.toUInt32, { readRequest seg with transactionId := tid }⟩, tid,
    polls.planned, ?_, rfl, rfl⟩
  simp only [Asks.track, List.foldl_cons, List.foldl_nil, Asks.record, Bool.true_and,
    decide_eq_true_eq, if_pos polls.accepted]

theorem asksFor_of_reads {seg : Segment K} {pr : PointRuntime K} {tid : UInt16} (reads : seg.Reads pr) :
    AsksFor { readRequest seg with transactionId := tid } pr :=
  ⟨reads.slave.symm, by rw [reads.regType]; rfl, reads.first, reads.last⟩

theorem active_of_expects {linkId : UInt32} {slave : UInt8}
    (expected : w.driver.expects linkId slave resp = true) : w.driver.pending.active = true := by
  simp only [PollDriver.expects, Bool.and_eq_true] at expected
  exact expected.1.1.1

theorem isRead_of_expects (driving : Driving points w m) {linkId : UInt32} {slave : UInt8}
    (expected : w.driver.expects linkId slave resp = true) : isRead resp := by
  obtain ⟨seg, -, -, -, -, -, code⟩ := driving.pending (active_of_expects expected)
  simp only [PollDriver.expects, Bool.and_eq_true, beq_iff_eq] at expected
  rw [isRead, expected.2, code]
  cases seg.rt <;> decide

end Invariant
end PollWorld

section Attribution
variable [Zero K] [One K] [Add K] [Mul K] (cv : Conversions K)

/-- The value of a point that lies `offset` addresses behind the first one of a response. -/
def valueAt (resp : ModbusResponse) (pr : PointRuntime K) (offset : Nat) : Option K :=
  if isBitType pr.regType then bitValue resp pr offset else registerValue cv resp pr offset

/-- The request under the id of the response is that of the pending poll, it reads every
point that got a value, and the value is the one at the point's place in it. -/
def Attributed (m : Asks) (d : Decoded K) : Prop :=
  ∃ ask, m.asked d.response.transactionId = some ask ∧ m.poll = some ask ∧
    ∀ pr v, (pr, some v) ∈ d.values → AsksFor ask.request pr ∧
      valueAt cv d.response pr (pr.registerAddr.toNat - ask.request.startingAddress.toNat) = some v

namespace PollWorld

/-- Every frame an event brings, with the state of the worker that receives it. -/
def arrivals (w : PollWorld K) : PollEvent → List (PollWorld K × List UInt8)
  | .bytes clock data => Runs.visits (onFrame cv clock) (w.receive data).1 (w.receive data).2
  | _ => []

def watched : Runs.Step (PollWorld K × Asks) PollEvent (PollOutput K) :=
  Runs.watch (step cv) Asks.track

section Frames
variable {cv} {points : List (PointRuntime K)} {w : PollWorld K} {m : Asks} {clock : Clock}
  {resp : ModbusResponse} {frame : List UInt8}

theorem driving_watched {s : PollWorld K × Asks} {e : PollEvent} (driving : Driving points s.1 s.2) :
    Driving points (watched cv s e).1.1 (watched cv s e).1.2 := by
  simp only [watched, Runs.watch_fst, Runs.watch_snd]
  by_cases tick : ∃ channel, e = .tick channel
  · obtain ⟨channel, rfl⟩ := tick
    obtain ⟨calm, quiet⟩ | ⟨index, seg, tid, n, polls⟩ := onTimeout_cases s.1 channel
    · exact driving.calm calm (poll_foldl_record fun _ => quiet)
    · exact driving.polls polls
  · have other : ∀ channel, e ≠ .tick channel := fun channel same => tick ⟨channel, same⟩
    apply driving.calm (calm_step other)
    apply poll_foldl_record
    cases e with
    | tick channel => exact absurd rfl (other channel)
    | _ => intro poll; cases poll

/-- A point of a segment gets its value from its own place in the response. -/
theorem valueAt_of_decodePoint {seg : Segment K} {pr : PointRuntime K} {v : K} (reads : seg.Reads pr)
    (decoded : decodePoint cv seg resp pr = some v) :
    valueAt cv resp pr (pr.registerAddr.toNat - seg.startAddr.toNat) = some v := by
  have place : offsetIn seg pr = pr.registerAddr.toNat - seg.startAddr.toNat := by
    have first := reads.first
    have bound := pr.registerAddr.toNat_lt
    rw [offsetIn, Int.emod_eq_of_lt (by omega) (by omega)]
    omega
  rw [decodePoint, place, ← reads.regType] at decoded
  rw [valueAt]
  split at decoded
  · rename_i bits
    rw [if_pos bits]
    split at decoded
    · exact absurd decoded (by simp)
    · exact decoded
  · rename_i registers
    rw [if_neg registers]
    exact decoded

/-- The response to the pending poll itself is taken apart as it should be. -/
theorem attributed_answer (driving : Driving points w m) (active : w.driver.pending.active = true)
    (own : m.asked resp.transactionId = m.poll) : Attributed cv m (answer cv w clock resp) := by
  obtain ⟨seg, ask, tid, planned, poll, request, -⟩ := driving.pending active
  have segment : w.driver.segments.getD w.driver.pending.segmentIndex {} = seg := by
    rw [driving.segments, List.getD_eq_getElem?_getD, planned]
    rfl
  refine ⟨ask, own.trans poll, poll, ?_⟩
  intro pr v member
  simp only [answer, segment, decodeSegment, List.mem_map, Prod.mk.injEq] at member
  obtain ⟨pr, holds, rfl, decoded⟩ := member
  have reads := (reads_buildSegments (List.mem_of_getElem? planned) holds).2
  rw [request]
  exact ⟨asksFor_of_reads reads, valueAt_of_decodePoint reads decoded⟩

/-- What one frame publishes is attributed unless the frame is a stray. -/
theorem attributed_onFrame_iff (driving : Driving points w m) :
    (∀ d, .decoded d ∈ (w.onFrame cv clock frame).2 → Attributed cv m d) ↔ ¬Stray m w frame := by
  by_cases hit : ∃ resp entry, parseTcpResponse frame = some resp ∧
      w.engine.inFlight resp.transactionId = some entry
  · obtain ⟨resp, entry, parsed, hit⟩ := hit
    simp only [decoded_onFrame_hit driving.transport parsed hit]
    constructor
    · rintro attributed ⟨resp', entry', parsed', hit', normal, expected, foreign⟩
      obtain rfl := Option.some.inj (parsed.symm.trans parsed')
      obtain rfl := Option.some.inj (hit.symm.trans hit')
      obtain ⟨ask, asked, poll, -⟩ :=
        attributed _ ⟨isRead_of_expects driving expected, expected, normal, rfl⟩
      exact foreign (asked.trans poll.symm)
    · rintro quiet d ⟨-, expected, normal, rfl⟩
      apply attributed_answer driving (active_of_expects expected)
      by_contra foreign
      exact quiet ⟨resp, entry, parsed, hit, normal, expected, foreign⟩
  · have miss : ∀ resp, parseTcpResponse frame = some resp →
        w.engine.inFlight resp.transactionId = none := by
      intro resp parsed
      by_contra present
      obtain ⟨entry, hit'⟩ := Option.ne_none_iff_exists'.mp present
      exact hit ⟨resp, entry, parsed, hit'⟩
    constructor
    · rintro - ⟨resp, entry, parsed, hit', -⟩
      exact hit ⟨resp, entry, parsed, hit'⟩
    · intro _ d decoded
      exact absurd decoded (not_decoded_onFrame_miss driving.transport miss)

theorem not_decoded_step {e : PollEvent} (other : ∀ clock data, e ≠ .bytes clock data) (d : Decoded K) :
    .decoded d ∉ (step cv w e).2 := by
  cases e with
  | tick channel => exact not_decoded_onTimeout
  | sboCommand cmd channel => exact not_decoded_write
  | bytes clock data => exact absurd rfl (other clock data)
  | _ => exact List.not_mem_nil

/-- What one event publishes is attributed exactly when none of its frames is a stray. -/
theorem attributed_step_iff (driving : Driving points w m) (e : PollEvent) :
    (∀ d, .decoded d ∈ (step cv w e).2 → Attributed cv m d) ↔
      ∀ a ∈ arrivals cv w e, ¬Stray m a.1 a.2 := by
  cases e with
  | bytes clock data =>
    have along : ∀ a ∈ arrivals cv w (.bytes clock data),
        (∀ d, .decoded d ∈ (onFrame cv clock a.1 a.2).2 → Attributed cv m d) ↔ ¬Stray m a.1 a.2 :=
      fun a visited => attributed_onFrame_iff
        (driving.calm (calm_reached (Runs.visit_mem_reached visited).1) rfl)
    simp only [step, onBytesReceived, Runs.mem_outputs_iff]
    constructor
    · intro attributed a visited
      exact (along a visited).mp fun d decoded => attributed d ⟨a, visited, decoded⟩
    · rintro quiet d ⟨a, visited, decoded⟩
      exact (along a visited).mpr (quiet a visited) d decoded
  | _ =>
    constructor
    · intro _ a visited
      exact absurd visited List.not_mem_nil
    · intro _ d decoded
      exact absurd decoded (not_decoded_step (by simp) d)

end Frames

variable (points : List (PointRuntime K)) (es : List PollEvent)

/-- Every sample of a run answers the poll that was pending, which reads its point, exactly
when no frame of the run is a stray. -/
theorem attribution_iff :
    (∀ v ∈ Runs.visits (watched cv) (fresh points, {}) es,
      ∀ d, .decoded d ∈ (step cv v.1.1 v.2).2 → Attributed cv v.1.2 d) ↔
    ∀ v ∈ Runs.visits (watched cv) (fresh points, {}) es,
      ∀ a ∈ arrivals cv v.1.1 v.2, ¬Stray v.1.2 a.1 a.2 := by
  have driving := Runs.reached_always (watched cv) es (s := (fresh points, {}))
    (I := fun s => Driving points s.1 s.2) driving_fresh (fun _ _ => driving_watched)
  have visit : ∀ v ∈ Runs.visits (watched cv) (fresh points, {}) es,
      (∀ d, .decoded d ∈ (step cv v.1.1 v.2).2 → Attributed cv v.1.2 d) ↔
        ∀ a ∈ arrivals cv v.1.1 v.2, ¬Stray v.1.2 a.1 a.2 := fun v visited =>
    attributed_step_iff (driving v.1 (Runs.visit_mem_reached visited).1) v.2
  exact forall₂_congr visit

end PollWorld
end Attribution

namespace PollWorld

def integers : Conversions Int := ⟨id, fun x => x.toNat, fun x => x.toNat⟩

/-- Two points of one slave that are read by two segments. -/
def apartPoints : List (PointRuntime Int) :=
  [{ pointId := 1, slaveAddress := 1, registerAddr := 0, scaleFactor := 1, offset := 0 },
    { pointId := 2, slaveAddress := 1, registerAddr := 10, scaleFactor := 1, offset := 0 }]

/-- The first poll is given up for a malformed frame, and the other segment is polled. -/
def abandonedPoll : List PollEvent :=
  [.startPolling 100, .tick fun bytes => bytes.length,
    .bytes ⟨0, 0⟩ [0x00, 0x09, 0x00, 0x01, 0x00, 0x03, 0x01, 0x83, 0x02],
    .tick fun bytes => bytes.length]

def abandonedState : PollWorld Int × Asks :=
  Runs.run (watched integers) (fresh apartPoints, {}) abandonedPoll

/-- The response to the first poll, with the value of register 0. -/
def lateResponse : PollEvent :=
  .bytes ⟨200, 200⟩ [0x00, 0x01, 0x00, 0x00, 0x00, 0x05, 0x01, 0x03, 0x02, 0x00, 0x2A]

def lateAnswer : Decoded Int :=
  answer integers abandonedState.1 ⟨200, 200⟩
    { transport := .tcp, transactionId := 1, slaveAddress := 1, functionCode := 3, registerValues := [42] }

/-- The late response is published as the value of register 10. -/
theorem attribution_fails :
    ¬∀ v ∈ Runs.visits (watched integers) (fresh apartPoints, {}) (abandonedPoll ++ [lateResponse]),
      ∀ d, .decoded d ∈ (step integers v.1.1 v.2).2 → Attributed integers v.1.2 d := by
  intro holds
  rw [Runs.visits_concat] at holds
  have published : .decoded lateAnswer ∈ (step integers abandonedState.1 lateResponse).2 := by
    decide +kernel
  have foreign : abandonedState.2.asked lateAnswer.response.transactionId ≠ abandonedState.2.poll := by
    decide +kernel
  obtain ⟨ask, asked, poll, -⟩ := holds (abandonedState, lateResponse)
    (List.mem_append_right _ (List.mem_singleton.mpr rfl)) lateAnswer published
  exact foreign (asked.trans poll.symm)

end PollWorld
end EnerSentry.App
