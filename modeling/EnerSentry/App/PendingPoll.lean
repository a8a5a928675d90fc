import EnerSentry.App.DuePoll
import EnerSentry.App.PollAttribution

/-!
The pending poll of the driver and the in-flight table of the engine. The driver gives its
poll up for a malformed frame, and keeps it when an answer has another function code; the
engine goes by the transaction id alone. The two agree as long as every frame that comes while
a poll is pending is an answer to it in both respects or in none, nothing that was entered is
refused by the channel, and no reset comes late.
-/

namespace EnerSentry.App
open EnerSentry.Lib EnerSentry.Protocol

variable {K : Type*}

/-- What is awaited over the connection: the poll that was sent last, the operator's writes that
the channel took, and the resets of the driver that lost connections have queued. -/
structure Awaited where
  poll : Option UInt16 := none
  sbo : List UInt16 := []
  resets : Nat := 0

namespace Awaited

/-- A response with the id of a write is the answer to it. -/
def answer (m : Awaited) (frame : List UInt8) : Awaited :=
  match parseTcpResponse frame with
  | none => m
  | some resp => { m with sbo := m.sbo.filter (· ≠ resp.transactionId) }

def track (w : PollWorld K) (m : Awaited) (e : PollEvent) (out : List (PollOutput K)) : Awaited :=
  match e, out with
  | .tick _, [.written _ req n] => if 0 ≤ n then { m with poll := some req.transactionId } else m
  | .sboCommand _ _, [.written _ req n] => if 0 ≤ n then { m with sbo := req.transactionId :: m.sbo } else m
  | .bytes _ data, _ => (w.receive data).2.foldl answer m
  | .connectionChanged false, _ => { poll := none, sbo := [], resets := m.resets + 1 }
  | .resetPending, _ => { m with resets := m.resets - 1 }
  | _, _ => m

end Awaited

namespace PollWorld

/-- A pending poll has its entry in the table, which has one entry for it and one for each write
that is not answered, and no others. -/
structure Agrees (w : PollWorld K) (m : Awaited) : Prop where
  held : w.driver.pending.active = true → ∃ tid, m.poll = some tid ∧
    w.engine.inFlight tid = some ⟨w.driver.pending.linkId, w.driver.pending.slave⟩
  few : ∀ ids : List UInt16, ids.Nodup → (∀ tid ∈ ids, (w.engine.inFlight tid).isSome) →
    ids.length ≤ (if w.driver.pending.active then 1 else 0) + m.sbo.length

/-- While a poll of this connection is pending, a frame that comes is a response; under the id of
the poll it has its function code, and under another id in flight it does not look like its answer. -/
def Orderly (poll : Option UInt16) (w : PollWorld K) (frame : List UInt8) : Prop :=
  w.driver.pending.active = true → poll ≠ none → ∃ resp, parseTcpResponse frame = some resp ∧
    (poll = some resp.transactionId → resp.functionCode &&& 0x7F = w.driver.pending.functionCode) ∧
    ∀ entry, poll ≠ some resp.transactionId → w.engine.inFlight resp.transactionId = some entry →
      w.driver.expects entry.linkId entry.slaveAddress resp = false

/-- The plan as in every reachable world, and the invariant behind the agreement: between a lost
connection and its reset a poll may be pending that has no entry any more. -/
structure Tracked (points : List (PointRuntime K)) (w : PollWorld K) (m : Awaited) : Prop where
  ready : Ready points w
  code : w.driver.pending.active = true → ∃ rt, w.driver.pending.functionCode = fcForRead rt
  held : w.driver.pending.active = true → m.poll = none ∧ m.resets ≠ 0 ∨ ∃ tid, m.poll = some tid ∧
    w.engine.inFlight tid = some ⟨w.driver.pending.linkId, w.driver.pending.slave⟩
  known : ∀ tid, (w.engine.inFlight tid).isSome → tid ∈ m.sbo ∨ w.driver.pending.active = true ∧ m.poll = some tid

section Frames
variable {points : List (PointRuntime K)} {w w' : PollWorld K} {m : Awaited} {frame : List UInt8}
  {resp : ModbusResponse}

theorem Tracked.agrees (tracked : Tracked points w m) (settled : m.resets = 0) : Agrees w m := by
  refine ⟨fun active => ?_, fun ids distinct entered => ?_⟩
  · exact (tracked.held active).resolve_left fun lost => lost.2 settled
  · have among : ids ⊆ (if w.driver.pending.active then m.poll.toList else []) ++ m.sbo := by
      intro tid member
      rcases tracked.known tid (entered tid member) with write | ⟨active, poll⟩
      · exact List.mem_append_right _ write
      · apply List.mem_append_left
        rw [active, poll]
        exact List.mem_singleton.mpr rfl
    have fits := (List.subperm_of_subset distinct among).length_le
    rw [List.length_append] at fits
    refine fits.trans (Nat.add_le_add_right ?_ _)
    cases w.driver.pending.active with
    | false => exact Nat.le_refl 0
    | true => cases m.poll <;> simp

/-- A change that the pending poll and the table do not show. -/
theorem Tracked.calm {w' : PollWorld K} (tracked : Tracked points w m) (ready : Ready points w')
    (pending : w'.driver.pending = w.driver.pending) (table : w'.engine.inFlight = w.engine.inFlight) :
    Tracked points w' m := by
  refine ⟨ready, ?_, ?_, ?_⟩
  · rw [pending]
    exact tracked.code
  · rw [pending, table]
    exact tracked.held
  · rw [pending, table]
    exact tracked.known

theorem Tracked.receive (tracked : Tracked points w m) (data : List UInt8) : Tracked points (w.receive data).1 m :=
  tracked.calm (tracked.ready.receive data) rfl (tracked.ready.tidy.receive data).2

theorem tracked_fresh (points : List (PointRuntime K)) : Tracked points (fresh points) {} :=
  ⟨ready_fresh points, fun active => absurd active Bool.false_ne_true, fun active => absurd active Bool.false_ne_true,
    fun _ entered => nomatch entered⟩

theorem isRead_of_code {rt : RegisterType} (code : resp.functionCode &&& 0x7F = fcForRead rt) : isRead resp := by
  rw [isRead, code]
  cases rt <;> decide

/-- The frame is no response with this id. -/
def Spared (frame : List UInt8) (tid : UInt16) : Prop :=
  ∀ resp, parseTcpResponse frame = some resp → tid ≠ resp.transactionId

theorem settle_isSome {o : Owners} {tid : UInt16} (left : (o.settle frame tid).isSome) :
    (o tid).isSome ∧ Spared frame tid := by
  unfold Owners.settle at left
  unfold Spared
  cases parsed : parseTcpResponse frame with
  | none =>
    rw [parsed] at left
    exact ⟨left, fun resp same => nomatch same⟩
  | some resp =>
    simp only [parsed] at left
    by_cases own : tid = resp.transactionId
    · rw [own, Function.update_self] at left
      cases left
    · rw [Function.update_of_ne own] at left
      exact ⟨left, fun resp' same => Option.some.inj same ▸ own⟩

theorem settle_spared {o : Owners} {tid : UInt16} (spared : Spared frame tid) : o.settle frame tid = o tid := by
  unfold Owners.settle
  cases parsed : parseTcpResponse frame with
  | none => rfl
  | some resp => exact Function.update_of_ne (spared resp parsed) none o

theorem answer_spared {tid : UInt16} (write : tid ∈ m.sbo) (spared : Spared frame tid) :
    tid ∈ (m.answer frame).sbo := by
  unfold Awaited.answer
  cases parsed : parseTcpResponse frame with
  | none => exact write
  | some resp => exact List.mem_filter.mpr ⟨write, decide_eq_true (spared resp parsed)⟩

theorem answer_poll (m : Awaited) (frame : List UInt8) :
    (m.answer frame).poll = m.poll ∧ (m.answer frame).resets = m.resets := by
  unfold Awaited.answer
  split <;> exact ⟨rfl, rfl⟩

/-- A poll that is given up for a frame gets its answer by it. -/
theorem Orderly.answers (orderly : Orderly m.poll w frame) (gives : w.GivesFor frame) {tid : UInt16}
    (poll : m.poll = some tid) (active : w.driver.pending.active = true) : ¬Spared frame tid := by
  intro spared
  obtain ⟨resp, parsed, -, foreign⟩ := orderly active (poll ▸ Option.some_ne_none tid)
  simp only [GivesFor, parsed] at gives
  obtain ⟨entry, hit, -, expected⟩ := gives
  have other : m.poll ≠ some resp.transactionId := by
    rw [poll]
    exact fun same => spared resp parsed (Option.some.inj same)
  exact absurd (expected.symm.trans (foreign entry other hit)) (by decide)

/-- An answer to the poll makes the driver give it up. -/
theorem Tracked.given (tracked : Tracked points w m) (orderly : Orderly m.poll w frame) {tid : UInt16}
    (poll : m.poll = some tid) (active : w.driver.pending.active = true)
    (entered : w.engine.inFlight tid = some ⟨w.driver.pending.linkId, w.driver.pending.slave⟩)
    (kept : ¬w.GivesFor frame) : Spared frame tid := by
  intro resp parsed own
  obtain ⟨resp', parsed', code, -⟩ := orderly active (poll ▸ Option.some_ne_none tid)
  obtain rfl := Option.some.inj (parsed.symm.trans parsed')
  have same := code (own ▸ poll)
  obtain ⟨rt, read⟩ := tracked.code active
  apply kept
  simp only [GivesFor, parsed]
  refine ⟨_, own ▸ entered, isRead_of_code (same.trans read), ?_⟩
  simp only [PollDriver.expects, active, same, beq_self_eq_true, Bool.and_self]

variable [Zero K] [One K] [Add K] [Mul K] {cv : Conversions K} {clock : Clock}

/-- One frame takes the poll from both, or from neither. -/
theorem Tracked.onFrame (tracked : Tracked points w m) (orderly : Orderly m.poll w frame) :
    Tracked points (w.onFrame cv clock frame).1 (m.answer frame) := by
  obtain ⟨engine, settles⟩ := settles_onFrame cv clock tracked.ready.tidy.tcp frame
  have ready := tracked.ready.onFrame cv clock frame
  have table := (tracked.ready.tidy.onFrame frame).2
  rw [← engine] at table
  generalize (w.onFrame cv clock frame).1 = v at settles ready table
  have remaining : ∀ tid, (v.engine.inFlight tid).isSome → (w.engine.inFlight tid).isSome ∧ Spared frame tid := by
    intro tid left
    rw [table] at left
    exact settle_isSome left
  obtain ⟨poll, resets⟩ := answer_poll m frame
  by_cases gives : w.GivesFor frame
  · have free : ¬v.driver.pending.active = true := by
      rw [settles.gives gives]
      exact Bool.false_ne_true
    refine ⟨ready, fun active => absurd active free, fun active => absurd active free, fun tid left => ?_⟩
    obtain ⟨before, spared⟩ := remaining tid left
    rcases tracked.known tid before with write | ⟨active, own⟩
    · exact Or.inl (answer_spared write spared)
    · exact absurd spared (orderly.answers gives own active)
  · have same := settles.keeps gives
    refine ⟨ready, ?_, ?_, fun tid left => ?_⟩
    · rw [same]
      exact tracked.code
    · rw [same, poll, resets]
      intro active
      refine (tracked.held active).imp_right ?_
      rintro ⟨tid, own, entered⟩
      refine ⟨tid, own, ?_⟩
      rw [table, settle_spared (tracked.given orderly own active entered gives)]
      exact entered
    · obtain ⟨before, spared⟩ := remaining tid left
      rw [same, poll]
      exact (tracked.known tid before).imp_left fun write => answer_spared write spared

theorem Tracked.frames (tracked : Tracked points w m) (frames : List (List UInt8))
    (orderly : ∀ a ∈ Runs.visits (PollWorld.onFrame cv clock) w frames, Orderly m.poll a.1 a.2) :
    Tracked points (Runs.run (PollWorld.onFrame cv clock) w frames) (frames.foldl Awaited.answer m) := by
  induction frames generalizing w m with
  | nil => exact tracked
  | cons frame frames ih =>
    simp only [Runs.visits, List.forall_mem_cons] at orderly
    apply ih (tracked.onFrame orderly.1)
    rw [(answer_poll m frame).1]
    exact orderly.2

end Frames

section Steps
variable [Zero K] [One K] [Add K] [Mul K] (cv : Conversions K)

/-- The worker beside what is awaited. -/
def awaiting : Runs.Step (PollWorld K × Awaited) PollEvent (PollOutput K) := Runs.watch (step cv) Awaited.track

/-- The channel takes what is handed to it, every frame is in order, and no reset finds a poll
pending that was sent after the connection was lost. -/
def Undisturbed (w : PollWorld K) (m : Awaited) : PollEvent → Prop
  | .tick channel => ∀ req, w.due = some req → 0 ≤ channel (buildRequest req)
  | .sboCommand cmd channel => ∀ req, w.engine.drawn (sboRequest cmd) = some req → 0 ≤ channel (buildRequest req)
  | .bytes clock data => ∀ a ∈ arrivals cv w (.bytes clock data), Orderly m.poll a.1 a.2
  | .resetPending => w.driver.pending.active = true → m.poll = none
  | _ => True

variable {cv} {points : List (PointRuntime K)} {w : PollWorld K} {m : Awaited}

theorem Tracked.tick (tracked : Tracked points w m) {channel : Channel}
    (taken : ∀ req, w.due = some req → 0 ≤ channel (buildRequest req)) :
    Tracked points (awaiting cv (w, m) (.tick channel)).1.1 (awaiting cv (w, m) (.tick channel)).1.2 := by
  have ready := tracked.ready.tick channel
  simp only [awaiting, Runs.watch, step]
  cases turn : w.turn with
  | none =>
    obtain ⟨d, turned, passed⟩ := onTimeout_none tracked.ready channel turn
    rw [passed] at ready ⊢
    exact tracked.calm ready turned.pending rfl
  | some seg =>
    obtain ⟨d, s, turned, links, quiet, sent⟩ := onTimeout_some tracked.ready channel turn
    cases drawn : w.engine.drawn (readRequest seg) with
    | none =>
      rw [quiet drawn] at ready ⊢
      exact tracked.calm ready turned.pending rfl
    | some req =>
      obtain ⟨index, sends⟩ := sent req drawn
      have accepted := taken req (by rw [due, turn, Option.bind_some, drawn])
      have table := (tracked.ready.tidy.register drawn ⟨seg.slave.toUInt32, seg.slave⟩).2
      have free : w.driver.pending.active = false := (Option.ite_none_right_eq_some.mp turn).1.2
      rw [sends, if_neg (Int.not_lt.mpr accepted)] at ready ⊢
      simp only [Awaited.track, if_pos accepted]
      refine ⟨ready, fun _ => ⟨seg.rt, rfl⟩, fun _ => Or.inr ⟨req.transactionId, rfl, ?_⟩, fun tid entered => ?_⟩
      · simp only [table, Function.update_self]
      · simp only [table] at entered
        by_cases own : tid = req.transactionId
        · exact Or.inr ⟨rfl, congrArg some own.symm⟩
        · rw [Function.update_of_ne own] at entered
          exact Or.inl ((tracked.known tid entered).resolve_right fun busy =>
            absurd (busy.1.symm.trans free) (by decide))

theorem Tracked.sboCommand (tracked : Tracked points w m) {cmd : Business.SboCommand} {channel : Channel}
    (taken : ∀ req, w.engine.drawn (sboRequest cmd) = some req → 0 ≤ channel (buildRequest req)) :
    Tracked points (awaiting cv (w, m) (.sboCommand cmd channel)).1.1
      (awaiting cv (w, m) (.sboCommand cmd channel)).1.2 := by
  have ready := tracked.ready.step cv (.sboCommand cmd channel)
  simp only [awaiting, Runs.watch, step, dispatchSboCommand] at ready ⊢
  cases drawn : w.engine.drawn (sboRequest cmd) with
  | none =>
    rw [write_none w channel 1 tracked.ready.tidy rfl drawn] at ready ⊢
    exact tracked
  | some sent =>
    have accepted := taken sent drawn
    have table := (tracked.ready.tidy.register drawn ⟨1, (sboRequest cmd).slaveAddress⟩).2
    have unused := tracked.ready.tidy.free (ModbusEngine.drawn_spec drawn).2.2.1
    rw [write_some w channel 1 tracked.ready.tidy rfl drawn] at ready ⊢
    simp only [Awaited.track, if_pos accepted]
    refine ⟨ready, tracked.code, fun active => ?_, fun tid entered => ?_⟩
    · refine (tracked.held active).imp_right ?_
      rintro ⟨tid, own, there⟩
      refine ⟨tid, own, ?_⟩
      have other : tid ≠ sent.transactionId := by
        rintro rfl
        rw [unused] at there
        cases there
      simp only [table, Function.update_of_ne other]
      exact there
    · simp only [table] at entered
      by_cases own : tid = sent.transactionId
      · exact Or.inl (own ▸ List.mem_cons_self ..)
      · rw [Function.update_of_ne own] at entered
        exact (tracked.known tid entered).imp_left (List.mem_cons_of_mem _)

theorem Tracked.step {x : PollWorld K × Awaited} (tracked : Tracked points x.1 x.2) (e : PollEvent)
    (undisturbed : Undisturbed cv x.1 x.2 e) : Tracked points (awaiting cv x e).1.1 (awaiting cv x e).1.2 := by
  obtain ⟨w, m⟩ := x
  have ready := tracked.ready.step cv e
  cases e with
  | startPolling intervalMs => exact tracked.calm ready (pending_scheduleNext { w with driver := _ }) rfl
  | stopPolling => exact tracked.calm ready rfl rfl
  | resetPending =>
    have free : ¬(false = true) := Bool.false_ne_true
    refine ⟨ready, fun active => absurd active free, fun active => absurd active free, fun tid entered => ?_⟩
    refine Or.inl ((tracked.known tid entered).resolve_right ?_)
    rintro ⟨active, own⟩
    exact absurd ((undisturbed active).symm.trans own) (Option.some_ne_none tid).symm
  | tick channel => exact tracked.tick undisturbed
  | sboCommand cmd channel => exact tracked.sboCommand undisturbed
  | bytes clock data => exact (tracked.receive data).frames _ undisturbed
  | connectionChanged connected =>
    cases connected with
    | true => exact tracked
    | false => exact ⟨ready, tracked.code, fun _ => Or.inl ⟨rfl, Nat.succ_ne_zero _⟩,
        fun tid entered => nomatch entered⟩

end Steps

section Runs
variable [Zero K] [One K] [Add K] [Mul K] (cv : Conversions K)

/-- In an undisturbed run the driver and the table agree in every state but those in which a reset
of the driver is still queued. -/
theorem pending_agrees (points : List (PointRuntime K)) (es : List PollEvent)
    (undisturbed : ∀ v ∈ Runs.visits (awaiting cv) (fresh points, {}) es, Undisturbed cv v.1.1 v.1.2 v.2) :
    ∀ t ∈ Runs.reached (awaiting cv) (fresh points, {}) es, t.2.resets = 0 → Agrees t.1 t.2 := by
  intro t member settled
  have tracked := Runs.reached_invariant (awaiting cv) es (I := fun x => Tracked points x.1 x.2)
    (A := fun x e => Undisturbed cv x.1 x.2 e) (tracked_fresh points) (fun _ e tracked meets => tracked.step e meets)
    undisturbed t member
  exact tracked.agrees settled

end Runs

/-- A poll and a write go out, and then the connection is lost. -/
def lostRun : List PollEvent :=
  [.startPolling 100, .tick fun bytes => bytes.length,
    .sboCommand { slaveId := 1, registerAddr := 7, value := 1 } fun bytes => bytes.length,
    .connectionChanged false, .stopPolling, .resetPending]

theorem pending_agrees_lost : Agrees (Runs.run (awaiting integers) (fresh apartPoints, {}) lostRun).1
    (Runs.run (awaiting integers) (fresh apartPoints, {}) lostRun).2 := by
  refine pending_agrees integers apartPoints lostRun ?_ _ Runs.run_mem_reached (by decide +kernel)
  simp only [lostRun, Runs.visits, List.forall_mem_cons]
  refine ⟨trivial, fun _ _ => Int.natCast_nonneg _, fun _ _ => Int.natCast_nonneg _, trivial, trivial, fun _ => ?_, ?_⟩
  · rfl
  · exact List.forall_mem_nil _

/-- The read of register 0 is answered under its id by the read of another type. -/
def wrongAnswer : List PollEvent :=
  [.startPolling 100, .tick fun bytes => bytes.length,
    .bytes ⟨0, 0⟩ [0x00, 0x01, 0x00, 0x00, 0x00, 0x05, 0x01, 0x04, 0x02, 0x00, 0x2A]]

/-- The poll stays pending, and the table has nothing left that could end it. -/
theorem pending_disagrees : ¬∀ t ∈ Runs.reached (awaiting integers) (fresh apartPoints, {}) wrongAnswer,
    t.2.resets = 0 → Agrees t.1 t.2 := by
  intro agrees
  have final := agrees _ Runs.run_mem_reached (by decide +kernel)
  obtain ⟨tid, poll, entered⟩ := final.held (by decide +kernel)
  have first : (Runs.run (awaiting integers) (fresh apartPoints, {}) wrongAnswer).2.poll = some 1 := by decide +kernel
  have gone : (Runs.run (awaiting integers) (fresh apartPoints, {}) wrongAnswer).1.engine.inFlight 1 = none := by
    decide +kernel
  obtain rfl := Option.some.inj (first.symm.trans poll)
  rw [gone] at entered
  cases entered

end PollWorld
end EnerSentry.App
