import EnerSentry.App.PollAttribution
import EnerSentry.Protocol.BreakerInvariant

/-!
The circuit breaker of the scheduler as the driver uses it. The driver tells the scheduler how each
poll ended, and the scheduler keeps the count for the slaves that are registered with it. Nothing
registers a slave, so the breaker stays shut: it has never seen any slave fail.
-/

namespace EnerSentry.Protocol

namespace PollScheduler

/-- A slave whose next read is a probe. -/
def awaitsProbe (s : PollScheduler) (slave : UInt8) : Bool :=
  s.healthOf slave = .isolated || s.healthOf slave = .probing

variable {s : PollScheduler} {slave : UInt8}

theorem healthOf_unregistered (unknown : s.slaveStates slave = none) : s.healthOf slave = .healthy := by
  simp only [healthOf, unknown]

@[simp] theorem slaveStates_enqueue (task : PollTask) : (s.enqueue task).slaveStates = s.slaveStates := rfl

@[simp] theorem slaveStates_dequeueNext (linkId : UInt8) :
    (s.dequeueNext linkId).1.slaveStates = s.slaveStates := by
  simp only [dequeueNext]
  split <;> rfl

end PollScheduler
end EnerSentry.Protocol

namespace EnerSentry.App
open EnerSentry.Lib EnerSentry.Protocol

variable {K : Type*}

def PollEvent.isReset : PollEvent → Bool
  | .resetPending => true
  | _ => false

def PollOutput.isDecoded : PollOutput K → Bool
  | .decoded _ => true
  | _ => false

namespace PollWorld

/-- How the pending poll ended in a step, if it did: its slave, and whether data came back. A poll
that is reset has no outcome. -/
def pollOutcome (w : PollWorld K) (e : PollEvent) (next : PollWorld K × List (PollOutput K)) :
    Option (UInt8 × Bool) :=
  if w.driver.pending.active && !next.1.driver.pending.active && !e.isReset then
    some (w.driver.pending.slave, next.2.any PollOutput.isDecoded)
  else none

/-- What the worker did about its pending poll: nothing, or it told the scheduler how the poll ended. -/
inductive Tells (clock : Clock) (w w' : PollWorld K) (out : List (PollOutput K)) : Prop where
  | nothing (pending : w'.driver.pending = w.driver.pending)
      (states : w'.scheduler.slaveStates = w.scheduler.slaveStates)
      (quiet : out.any PollOutput.isDecoded = false)
  | outcome (ok : Bool) (before : w.driver.pending.active = true) (after : w'.driver.pending.active = false)
      (states : w'.scheduler.slaveStates =
        (w.scheduler.onResponseReceived w.driver.pending.slave ok clock.steadyMs).1.slaveStates)
      (data : out.any PollOutput.isDecoded = ok)

section Tells
variable {w w' w'' : PollWorld K} {clock : Clock} {out out' : List (PollOutput K)} {linkId : UInt32}
  {slave : UInt8}

/-- A poll ends once. -/
theorem Tells.trans (first : Tells clock w w' out) (second : Tells clock w' w'' out') :
    Tells clock w w'' (out ++ out') := by
  cases first with
  | nothing pending states quiet =>
    cases second with
    | nothing pending' states' quiet' =>
      exact .nothing (pending'.trans pending) (states'.trans states) (by rw [List.any_append, quiet, quiet']; rfl)
    | outcome ok before after states' data =>
      rw [pending] at before states'
      refine .outcome ok before after ?_ (by rw [List.any_append, quiet, data, Bool.false_or])
      rw [states', PollScheduler.slaveStates_onResponseReceived, PollScheduler.slaveStates_onResponseReceived,
        states]
  | outcome ok before after states data =>
    cases second with
    | nothing pending' states' quiet' =>
      exact .outcome ok before (pending' ▸ after) (states'.trans states)
        (by rw [List.any_append, quiet', data, Bool.or_false])
    | outcome ok' before' => exact absurd (before'.symm.trans after) (by decide)

theorem any_decoded_map (signals : List SchedulerSignal) :
    (signals.map (PollOutput.health (K := K))).any PollOutput.isDecoded = false := by
  simp [List.any_map, Function.comp_def, PollOutput.isDecoded]

theorem tells_settle (active : w.driver.pending.active = true) (more : List (PollOutput K)) :
    Tells clock w (w.settle clock w.driver.pending.slave (more.any PollOutput.isDecoded)).1
      ((w.settle clock w.driver.pending.slave (more.any PollOutput.isDecoded)).2 ++ more) :=
  .outcome _ active rfl rfl (by rw [List.any_append, settle, any_decoded_map, Bool.false_or])

theorem tells_onFrameError {kind : FrameErrorKind} :
    Tells clock w (w.onFrameError clock linkId slave kind).1 (w.onFrameError clock linkId slave kind).2 := by
  simp only [onFrameError]
  split
  · rename_i fails
    have active : w.driver.pending.active = true := by
      simp only [PollDriver.failsPending, Bool.and_eq_true] at fails
      exact fails.1.1.1
    exact tells_settle active [.frameErrorSeen slave kind]
  · exact .nothing rfl rfl rfl

/-- What every step of a sequence tells, the sequence tells. -/
theorem tells_run {E : Type*} {step : Runs.Step (PollWorld K) E (PollOutput K)}
    (tells : ∀ w e, Tells clock w (step w e).1 (step w e).2) (es : List E) :
    Tells clock w (Runs.run step w es) (Runs.outputs step w es) := by
  apply Runs.history_always step es (I := Tells clock w)
  · exact .nothing rfl rfl rfl
  · intro s out e told
    exact told.trans (tells s e)

/-- The engine does not show in what is told. -/
theorem Tells.of_engine {engine : ModbusEngine} (tells : Tells clock { w with engine := engine } w' out) :
    Tells clock w w' out := by
  cases tells with
  | nothing pending states quiet => exact .nothing pending states quiet
  | outcome ok before after states data => exact .outcome ok before after states data

variable [Zero K] [One K] [Add K] [Mul K] {cv : Conversions K}

theorem tells_onResponseParsed {resp : ModbusResponse} :
    Tells clock w (w.onResponseParsed cv clock linkId slave resp).1
      (w.onResponseParsed cv clock linkId slave resp).2 := by
  simp only [onResponseParsed]
  split
  · exact .nothing rfl rfl rfl
  · split
    · exact .nothing rfl rfl rfl
    · rename_i expected
      simp only [PollDriver.expects, Bool.not_eq_true, Bool.not_eq_false', Bool.and_eq_true, beq_iff_eq] at expected
      obtain ⟨⟨⟨active, -⟩, rfl⟩, -⟩ := expected
      split
      · rename_i failed
        rw [failed, ← List.append_nil (w.settle _ _ _).2]
        exact tells_settle active []
      · rename_i normal
        rw [Bool.not_eq_true] at normal
        rw [normal]
        exact tells_settle active [.decoded _]

theorem tells_onSignal (signal : EngineSignal) :
    Tells clock w (w.onSignal cv clock signal).1 (w.onSignal cv clock signal).2 := by
  cases signal with
  | responseParsed linkId slave resp => exact tells_onResponseParsed
  | frameError linkId slave kind => exact tells_onFrameError

theorem tells_onFrame (frame : List UInt8) :
    Tells clock w (w.onFrame cv clock frame).1 (w.onFrame cv clock frame).2 :=
  Tells.of_engine (tells_run (fun _ => tells_onSignal) _)

theorem tells_onBytesReceived (cv : Conversions K) (w : PollWorld K) (clock : Clock) (data : List UInt8) :
    Tells clock w (w.onBytesReceived cv clock data).1 (w.onBytesReceived cv clock data).2 :=
  Tells.of_engine (tells_run (fun _ => tells_onFrame) _)

end Tells

section Step
variable {w : PollWorld K} {clock : Clock}

theorem states_scheduleNext : w.scheduleNext.scheduler = w.scheduler := rfl

theorem states_onTimeout (channel : Channel) :
    (w.onTimeout channel).1.scheduler.slaveStates = w.scheduler.slaveStates := by
  simp only [onTimeout, onPollTick, pollSegment]
  split
  · rfl
  · split
    · rfl
    · split
      · rfl
      · split
        · rfl
        · split
          · simp [states_scheduleNext]
          · split <;> simp [states_scheduleNext, write]

/-- A tick leaves a poll that is pending alone. -/
theorem active_onTimeout (channel : Channel) (active : w.driver.pending.active = true) :
    (w.onTimeout channel).1.driver.pending.active = true := by
  simp only [onTimeout, onPollTick, active]
  split
  · exact active
  · split
    · exact active
    · simpa [pending_scheduleNext] using active

theorem pollOutcome_none {e : PollEvent} {next : PollWorld K × List (PollOutput K)}
    (kept : w.driver.pending.active = true → next.1.driver.pending.active = true) :
    w.pollOutcome e next = none := by
  rw [pollOutcome, if_neg]
  intro ended
  simp only [Bool.and_eq_true, Bool.not_eq_true'] at ended
  exact absurd ((kept ended.1.1).symm.trans ended.1.2) (by decide)

variable [Zero K] [One K] [Add K] [Mul K] (cv : Conversions K)

/-- The scheduler hears of every poll that ends, and of nothing else. -/
theorem states_step (w : PollWorld K) (e : PollEvent) :
    (w.pollOutcome e (step cv w e) = none ∧
      (step cv w e).1.scheduler.slaveStates = w.scheduler.slaveStates) ∨
    ∃ ok now, w.pollOutcome e (step cv w e) = some (w.driver.pending.slave, ok) ∧
      (step cv w e).1.scheduler.slaveStates =
        (w.scheduler.onResponseReceived w.driver.pending.slave ok now).1.slaveStates := by
  cases e with
  | tick channel => exact Or.inl ⟨pollOutcome_none (active_onTimeout channel), states_onTimeout channel⟩
  | resetPending =>
    refine Or.inl ⟨?_, rfl⟩
    rw [pollOutcome, PollEvent.isReset, Bool.not_true, Bool.and_false, if_neg Bool.false_ne_true]
  | startPolling intervalMs =>
    refine Or.inl ⟨pollOutcome_none fun active => ?_, rfl⟩
    have kept := pending_scheduleNext
      { w with driver := { w.driver with intervalMs := intervalMs, running := true } }
    exact (congrArg PendingPoll.active kept).trans active
  | bytes clock data =>
    cases tells_onBytesReceived cv w clock data with
    | nothing pending states quiet =>
      exact Or.inl ⟨pollOutcome_none fun active => (congrArg PendingPoll.active pending).trans active, states⟩
    | outcome ok before after states data =>
      refine Or.inr ⟨ok, clock.steadyMs, ?_, states⟩
      simp only [pollOutcome, step, before, after, data, PollEvent.isReset, Bool.not_false, Bool.and_self, if_true]
  | _ => exact Or.inl ⟨pollOutcome_none id, rfl⟩

end Step
end PollWorld

/-- What an observer counts for each slave: the polls that failed in a row, and whether a probe is
out whose outcome is not known. -/
structure BreakerLog where
  failures : UInt8 → Nat := fun _ => 0
  probing : UInt8 → Bool := fun _ => false

namespace BreakerLog
variable (log : BreakerLog) (slave other : UInt8)

def ended : Option (UInt8 × Bool) → BreakerLog
  | none => log
  | some (slave, ok) =>
      { failures := Function.update log.failures slave (if ok then 0 else log.failures slave + 1)
        probing := Function.update log.probing slave false }

def probed (sent : UInt8 → Bool) : BreakerLog :=
  { log with probing := fun slave => sent slave || log.probing slave }

theorem failures_ended_failed :
    (log.ended (some (slave, false))).failures slave = log.failures slave + 1 := by
  simp [ended]

theorem failures_ended_other {ok : Bool} (apart : other ≠ slave) :
    (log.ended (some (slave, ok))).failures other = log.failures other :=
  Function.update_of_ne apart _ _

theorem failures_ended_answered : (log.ended (some (slave, true))).failures slave = 0 := by
  simp [ended]

end BreakerLog

/-- A read of this slave was handed to the channel, which took it. -/
def sendsRead (out : List (PollOutput K)) (slave : UInt8) : Bool :=
  out.any fun
    | .written _ req n => decide (0 ≤ n) && isReadCode req.functionCode && req.slaveAddress == slave
    | _ => false

namespace PollWorld

theorem slaveStates_linkedScheduler (points : List (PointRuntime K)) :
    (linkedScheduler points).slaveStates = fun _ => none := by
  rw [linkedScheduler]
  generalize ((points.filter (·.enabled)).map (·.slaveAddress)).dedup = slaves
  have kept : ∀ s : PollScheduler, (slaves.foldl
      (fun s sid => s.setLinkParams sid { isHalfDuplex := false }) s).slaveStates = s.slaveStates := by
    induction slaves with
    | nil => exact fun _ => rfl
    | cons sid slaves ih => exact fun s => ih _
  exact kept {}

section Governed
variable [Zero K] [One K] [Add K] [Mul K] (cv : Conversions K)

/-- The log after one event. -/
def logged (w : PollWorld K) (log : BreakerLog) (e : PollEvent) : BreakerLog :=
  let next := step cv w e
  (log.ended (w.pollOutcome e next)).probed fun slave => sendsRead next.2 slave && w.scheduler.awaitsProbe slave

/-- The worker with the time of each event, beside the log. -/
def timed : Runs.Step (PollWorld K × BreakerLog) (Int × PollEvent) (PollOutput K) :=
  Runs.watch (fun w e => step cv w e.2) fun w log e _ => logged cv w log e.2

/-- The breaker governs an event: the failure of a poll that is at least the eighth in a row leaves
the slave isolated, and an isolated slave is read no earlier than 30 s after its last probe and not
again before the outcome of that read is known. -/
structure Governed (s : PollWorld K × BreakerLog) (e : Int × PollEvent) : Prop where
  isolates : ∀ slave, s.1.pollOutcome e.2 (step cv s.1 e.2) = some (slave, false) →
    8 ≤ (logged cv s.1 s.2 e.2).failures slave → (step cv s.1 e.2).1.scheduler.healthOf slave = .isolated
  waits : ∀ slave, sendsRead (step cv s.1 e.2).2 slave = true → ∀ state,
    s.1.scheduler.slaveStates slave = some state → state.health = .isolated →
      30000 ≤ e.1 - state.lastProbeTimeMs
  probesOnce : ∀ slave, sendsRead (step cv s.1 e.2).2 slave = true →
    s.1.scheduler.awaitsProbe slave = true → s.2.probing slave = false

/-- The poll that ends here is not the eighth in a row of its slave to fail. -/
def Unbroken (s : PollWorld K × BreakerLog) (e : Int × PollEvent) : Prop :=
  ∀ slave, s.1.pollOutcome e.2 (step cv s.1 e.2) = some (slave, false) →
    (logged cv s.1 s.2 e.2).failures slave < 8

variable {cv} {w : PollWorld K} {log : BreakerLog} {e : PollEvent} {slave : UInt8}

/-- No event registers a slave, and none strikes one off. -/
theorem isSome_states_step (cv : Conversions K) (w : PollWorld K) (e : PollEvent) (slave : UInt8) :
    ((step cv w e).1.scheduler.slaveStates slave).isSome = (w.scheduler.slaveStates slave).isSome := by
  obtain ⟨-, states⟩ | ⟨ok, now, -, states⟩ := states_step cv w e
  · rw [states]
  · rw [states, PollScheduler.slaveStates_onResponseReceived]
    by_cases same : slave = w.driver.pending.slave
    · rw [same, Function.update_self, Option.isSome_map]
    · rw [Function.update_of_ne same]

theorem unregistered_step (unknown : w.scheduler.slaveStates slave = none) :
    (step cv w e).1.scheduler.slaveStates slave = none := by
  have same := isSome_states_step cv w e slave
  rw [unknown] at same
  exact Option.not_isSome_iff_eq_none.mp (by rw [same]; decide)

theorem governed_iff_unbroken (unknown : ∀ slave, w.scheduler.slaveStates slave = none) (now : Int) :
    Governed cv (w, log) (now, e) ↔ Unbroken cv (w, log) (now, e) := by
  constructor
  · intro governed slave failed
    by_contra eighth
    have isolated := governed.isolates slave failed (Nat.not_lt.mp eighth)
    rw [PollScheduler.healthOf_unregistered (unregistered_step (unknown slave))] at isolated
    cases isolated
  · intro unbroken
    refine ⟨fun slave failed eighth => absurd eighth (Nat.not_le.mpr (unbroken slave failed)), ?_, ?_⟩
    · intro slave _ state known
      rw [unknown slave] at known
      cases known
    · intro slave _ awaits
      rw [PollScheduler.awaitsProbe, PollScheduler.healthOf_unregistered (unknown slave)] at awaits
      cases awaits

theorem failures_logged (slave : UInt8) : (logged cv w log e).failures slave =
    (log.ended (w.pollOutcome e (step cv w e))).failures slave := rfl

theorem failures_logged_lt (below : ∀ slave, log.failures slave < 8) {now : Int}
    (unbroken : Unbroken cv (w, log) (now, e)) (slave : UInt8) : (logged cv w log e).failures slave < 8 := by
  cases outcome : w.pollOutcome e (step cv w e) with
  | none =>
    rw [failures_logged, outcome]
    exact below slave
  | some ended =>
    obtain ⟨polled, ok⟩ := ended
    by_cases same : slave = polled
    · subst same
      cases ok with
      | false => exact unbroken slave outcome
      | true =>
        rw [failures_logged, outcome, BreakerLog.failures_ended_answered]
        decide
    · rw [failures_logged, outcome, BreakerLog.failures_ended_other _ _ _ same]
      exact below slave

/-- The breaker governs a run exactly when no slave fails eight polls in a row in it. -/
theorem governed_iff (points : List (PointRuntime K)) (es : List (Int × PollEvent)) :
    (∀ v ∈ Runs.visits (timed cv) (fresh points, {}) es, Governed cv v.1 v.2) ↔
      ∀ t ∈ Runs.reached (timed cv) (fresh points, {}) es, ∀ slave, t.2.failures slave < 8 := by
  have unknown := Runs.reached_always (timed cv) es (s := (fresh points, {}))
    (I := fun s => ∀ slave, s.1.scheduler.slaveStates slave = none)
    (fun slave => congrFun (slaveStates_linkedScheduler points) slave)
    (fun _ _ holds slave => unregistered_step (holds slave))
  have unbroken : (∀ t ∈ Runs.reached (timed cv) (fresh points, {}) es, ∀ slave, t.2.failures slave < 8) ↔
      ∀ v ∈ Runs.visits (timed cv) (fresh points, {}) es, Unbroken cv v.1 v.2 := by
    refine Runs.reached_iff (timed cv) es (B := fun _ => True) trivial (fun _ _ _ => trivial)
      (fun _ => Nat.zero_lt_succ 7) (fun _ below => below) ?_ ?_
    · exact fun s e _ below unbroken => failures_logged_lt below unbroken
    · intro s e _ _ fails below
      exact fails fun slave _ => below slave
  rw [unbroken]
  exact forall₂_congr fun v visited => governed_iff_unbroken (unknown _ (Runs.visit_mem_reached visited).1) v.2.1

/-- What the scheduler keeps of a slave, where it keeps anything, is the count of its failures. -/
def Counts (slave : UInt8) (s : PollWorld K × BreakerLog) : Prop :=
  ∀ state, s.1.scheduler.slaveStates slave = some state →
    state.consecutiveFailures = wrap32 (s.2.failures slave) ∧ (8 ≤ s.2.failures slave → state.health = .isolated)

theorem counts_step {s : PollWorld K × BreakerLog} (e : Int × PollEvent) (counts : Counts slave s) :
    Counts slave (timed cv s e).1 := by
  intro state known
  change (step cv s.1 e.2).1.scheduler.slaveStates slave = some state at known
  change state.consecutiveFailures = wrap32 ((logged cv s.1 s.2 e.2).failures slave) ∧
    (8 ≤ (logged cv s.1 s.2 e.2).failures slave → state.health = .isolated)
  obtain ⟨outcome, states⟩ | ⟨ok, now, outcome, states⟩ := states_step cv s.1 e.2
  · rw [failures_logged, outcome]
    exact counts state (states ▸ known)
  · rw [failures_logged, outcome]
    rw [states, PollScheduler.slaveStates_onResponseReceived] at known
    by_cases same : slave = s.1.driver.pending.slave
    · subst same
      rw [Function.update_self] at known
      obtain ⟨before, registered, rfl⟩ := Option.map_eq_some_iff.mp known
      obtain ⟨counted, isolated⟩ := counts before registered
      cases ok with
      | true =>
        rw [BreakerLog.failures_ended_answered]
        exact ⟨before.consecutiveFailures_succeeded now, fun many => absurd many (by decide)⟩
      | false =>
        rw [BreakerLog.failures_ended_failed]
        refine ⟨?_, fun many => before.isolated_failed now ?_⟩
        · rw [if_neg (by decide), before.consecutiveFailures_failed, counted, wrap32_succ]
          rfl
        · rcases Nat.lt_or_ge 7 (s.2.failures s.1.driver.pending.slave) with later | early
          · exact Or.inr (isolated later)
          · left
            have eighth : s.2.failures s.1.driver.pending.slave = 7 := by omega
            rw [counted, eighth]
            decide
    · rw [Function.update_of_ne same] at known
      rw [BreakerLog.failures_ended_other _ _ _ same]
      exact counts state known

/-- Registering a slave would have been enough for it to be isolated. -/
theorem isolated_of_registered {state : SlavePollState} (known : w.scheduler.slaveStates slave = some state)
    (fresh : state.consecutiveFailures = 0) (es : List (Int × PollEvent)) :
    ∀ t ∈ Runs.reached (timed cv) (w, {}) es, 8 ≤ t.2.failures slave →
      t.1.scheduler.healthOf slave = .isolated := by
  have start : Counts slave (w, {}) := by
    intro found same
    obtain rfl := Option.some.inj (known.symm.trans same)
    have zero : wrap32 0 = 0 := by decide
    exact ⟨fresh.trans zero.symm, fun many => absurd (show 8 ≤ 0 from many) (by decide)⟩
  have registered := Runs.reached_always (timed cv) es (s := (w, {}))
    (I := fun s => (s.1.scheduler.slaveStates slave).isSome = true) (by rw [known]; rfl)
    (fun s e holds => (isSome_states_step cv s.1 e.2 slave).trans holds)
  have counts := Runs.reached_always (timed cv) es start (fun _ e holds => counts_step e holds)
  intro t member many
  obtain ⟨found, here⟩ := Option.isSome_iff_exists.mp (registered t member)
  rw [PollScheduler.healthOf, here]
  exact (counts t member found here).2 many

end Governed

/-- A slave refuses the read with transaction id 1, the id of every poll that is alone in flight. -/
def refusal : List UInt8 := [0x00, 0x01, 0x00, 0x00, 0x00, 0x03, 0x01, 0x83, 0x02]

/-- Polls a hundred milliseconds apart, each refused at once; the eighth is still out. -/
def refusedPolls : List (Int × PollEvent) :=
  let poll : PollEvent := .tick fun bytes => bytes.length
  (0, .startPolling 100) :: ((List.range 7).flatMap fun n =>
    [(100 * n, poll), (100 * n, .bytes ⟨100 * n, 100 * n⟩ refusal)]) ++ [(700, poll)]

def refusedState : PollWorld Int × BreakerLog :=
  Runs.run (timed integers) (fresh apartPoints, {}) refusedPolls

def eighthRefusal : Int × PollEvent := (700, .bytes ⟨700, 700⟩ refusal)

/-- The eighth refusal in a row leaves the slave as healthy as it was. -/
theorem governed_fails :
    ¬∀ v ∈ Runs.visits (timed integers) (fresh apartPoints, {}) (refusedPolls ++ [eighthRefusal]),
      Governed integers v.1 v.2 := by
  intro holds
  rw [Runs.visits_concat] at holds
  have governed : Governed integers refusedState eighthRefusal :=
    holds (refusedState, eighthRefusal) (List.mem_append_right _ (List.mem_singleton.mpr rfl))
  have failed : refusedState.1.pollOutcome eighthRefusal.2 (step integers refusedState.1 eighthRefusal.2) =
      some (1, false) := by
    decide +kernel
  have eighth : 8 ≤ (logged integers refusedState.1 refusedState.2 eighthRefusal.2).failures 1 := by
    decide +kernel
  have healthy : (step integers refusedState.1 eighthRefusal.2).1.scheduler.healthOf 1 = .healthy := by
    decide +kernel
  have isolated := governed.isolates 1 failed eighth
  rw [healthy] at isolated
  cases isolated

end PollWorld
end EnerSentry.App
