import EnerSentry.App.EnerSentryApp
import EnerSentry.App.PollAttribution

/-!
The loop of an operate through the application: the command goes out as a write, and the
device's reply to the write should come back as the outcome. A monitor beside the
application keeps, for every transaction id, the command whose write went out under it. The
engine reports a reply to the poll driver alone, and that passes over the replies to
writes, so the execution timer has the last word on every command.
-/

namespace EnerSentry.App
open EnerSentry.Lib EnerSentry.Protocol EnerSentry.Business

/-- A result of an operate that is not the expiry of its execution timer. -/
def acknowledges : SboSignal → Bool
  | .executingSucceeded _ _ => true
  | .executingFailed _ _ reason => reason != "device_ack_timeout"
  | _ => false

section Machine
variable {c : SboContext} {e : SboEvent}

theorem acknowledges_guard (fromGuard : List GuardSignal) :
    (fromGuard.map SboSignal.guard).any acknowledges = false := by
  simp [acknowledges]

theorem forceAbort_unacknowledged (reason : String) : (c.forceAbort reason).2.any acknowledges = false := by
  unfold SboContext.forceAbort
  split
  · rfl
  · simp [SboContext.clearArmed, acknowledges]

theorem submitSelect_unacknowledged (req : SboSelectRequest) (operatorName : String) (nowMs : Int) :
    (c.submitSelect req operatorName nowMs).signals.any acknowledges = false := by
  unfold SboContext.submitSelect
  split
  · split
    · exact acknowledges_guard _
    · rfl
  · dsimp only
    split
    · split
      · rw [List.any_append, acknowledges_guard]
        simp [SboContext.enterArmedState, acknowledges]
      · exact acknowledges_guard _
    · rfl

/-- Only a device's acknowledgement makes a machine report anything but an expired timer. -/
theorem unacknowledged (silent : ∀ sequenceId success reason, e ≠ .deviceAck sequenceId success reason) :
    (c.stepMachine e).2.any acknowledges = false := by
  cases e with
  | submitSelect req operatorName nowMs => exact submitSelect_unacknowledged req operatorName nowMs
  | submitOperate sequenceId =>
    simp only [SboContext.stepMachine, SboContext.submitOperate]
    split
    · rfl
    · split
      · rfl
      · simp [acknowledges]
  | submitCancel sequenceId =>
    simp only [SboContext.stepMachine, SboContext.submitCancel]
    split
    · rfl
    · split
      · rfl
      · exact forceAbort_unacknowledged _
  | deviceAck sequenceId success reason => exact absurd rfl (silent sequenceId success reason)
  | linkStatusChanged connected => rfl
  | armedExpired =>
    simp only [SboContext.stepMachine, SboContext.onArmedTimeout]
    split
    · split
      · rfl
      · simp [SboContext.clearArmed, acknowledges]
    · rfl
  | flappingExpired =>
    simp only [SboContext.stepMachine, SboContext.onFlappingTimeout]
    split
    · split
      · rfl
      · exact forceAbort_unacknowledged _
    · rfl
  | execExpired =>
    simp only [SboContext.stepMachine, SboContext.onExecutingTimeout]
    split
    · split <;> rfl
    · rfl
  | forceArmedTimeoutForTest =>
    simp only [SboContext.stepMachine, SboContext.onArmedTimeout]
    split
    · rfl
    · simp [SboContext.clearArmed, acknowledges]
  | forceLinkDownForTest flappingMs => rfl

/-- A machine that executes a command with its execution timer running. -/
structure Executes (c : SboContext) (id : String) : Prop where
  state : c.machine.state = .executed
  running : c.machine.execTimer.active = true
  /-- An abort for a lost link makes the machine forget what it executes. -/
  named : c.machine.sequenceId = id ∨ c.machine.sequenceId = ""

theorem Executes.silent_handlers {id : String} (executes : Executes c id) :
    c.onArmedTimeout = (c, []) ∧ ∀ sequenceId, (c.submitOperate sequenceId).context = c ∧
      (c.submitCancel sequenceId).context = c := by
  have unarmed : c.machine.state ≠ .armed := by simp [executes.state]
  refine ⟨if_pos unarmed, fun sequenceId => ⟨?_, ?_⟩⟩
  · rw [SboContext.submitOperate, if_pos unarmed]
  · rw [SboContext.submitCancel]
    split
    · rfl
    · rw [if_pos ⟨unarmed, by simp [executes.state]⟩]

/-- Executing lasts until the execution timer rings or the device acknowledges. -/
theorem Executes.step {id : String} (executes : Executes c id) (rings : e ≠ .execExpired)
    (silent : ∀ sequenceId success reason, e ≠ .deviceAck sequenceId success reason) :
    Executes (c.stepMachine e).1 id := by
  obtain ⟨armedTimeout, calls⟩ := executes.silent_handlers
  have unarmed : c.machine.state ≠ .armed := by simp [executes.state]
  cases e with
  | submitSelect req operatorName nowMs =>
    have busy : c.machine.state ≠ .idle := by simp [executes.state]
    simp only [SboContext.stepMachine, SboContext.submitSelect, if_pos busy]
    split <;> exact ⟨executes.state, executes.running, executes.named⟩
  | submitOperate sequenceId =>
    simp only [SboContext.stepMachine, (calls sequenceId).1]
    exact executes
  | submitCancel sequenceId =>
    simp only [SboContext.stepMachine, (calls sequenceId).2]
    exact executes
  | deviceAck sequenceId success reason => exact absurd rfl (silent sequenceId success reason)
  | linkStatusChanged connected => exact ⟨executes.state, executes.running, executes.named⟩
  | armedExpired =>
    simp only [SboContext.stepMachine, SboContext.onArmedTimeout, if_pos unarmed]
    split <;> exact ⟨executes.state, executes.running, executes.named⟩
  | flappingExpired =>
    simp only [SboContext.stepMachine, SboContext.onFlappingTimeout, SboContext.forceAbort, if_pos unarmed]
    split
    · split
      · exact ⟨executes.state, executes.running, executes.named⟩
      · exact ⟨executes.state, executes.running, Or.inr rfl⟩
    · exact executes
  | execExpired => exact absurd rfl rings
  | forceArmedTimeoutForTest =>
    simp only [SboContext.stepMachine, armedTimeout]
    exact executes
  | forceLinkDownForTest flappingMs => exact ⟨executes.state, executes.running, executes.named⟩

theorem executes_submitOperate {id : String} (accepted : (c.submitOperate id).accepted = true) :
    Executes (c.submitOperate id).context id := by
  unfold SboContext.submitOperate at accepted ⊢
  split
  · rename_i unarmed
    simp [if_pos unarmed] at accepted
  · rename_i armed
    split
    · rename_i other
      simp [if_pos other] at accepted
    · rename_i same
      exact ⟨rfl, rfl, Or.inl (not_not.mp same).symm⟩

/-- The expiry of the execution timer is what the machine reports. -/
theorem Executes.expires {id : String} (executes : Executes c id) :
    .executingFailed c.machine.sequenceId c.machine.device "device_ack_timeout" ∈
      (c.stepMachine .execExpired).2 := by
  have executed : ¬c.machine.state ≠ .executed := not_not.mpr executes.state
  simp only [SboContext.stepMachine, if_pos executes.running, SboContext.onExecutingTimeout, if_neg executed]
  exact List.mem_cons_self ..

end Machine
/-- The commands on their way: the sequence ids of the posted ones in order, the one whose
write went out last under each transaction id, and the one whose execution timer runs. -/
structure Commands where
  posted : List String := []
  sent : UInt16 → Option (String × ModbusRequest) := fun _ => none
  executing : Option String := none

variable {K : Type*}

namespace Commands

/-- A write of `owner`, or of the poll driver when there is no owner. -/
def record (owner : Option String) (m : Commands) : AppOutput K → Commands
  | .worker (.written _ request result) =>
      let command := if 0 ≤ result then owner.map fun id => (id, request) else none
      { m with sent := Function.update m.sent request.transactionId command }
  | _ => m

def track (a : EnerSentryApp K) (m : Commands) (e : AppEvent) (out : List (AppOutput K)) : Commands :=
  match e with
  | .submitSboOperate sequenceId =>
      let id := a.sequenceIdOr sequenceId
      if (a.sbo.submitOperate id).accepted then
        { m with posted := m.posted ++ [id], executing := some id }
      else m
  | .executingTimeout => if a.sbo.machine.execTimer.active then { m with executing := none } else m
  | .runPosted _ =>
      match a.posted with
      | .sboCommand _ :: _ => out.foldl (record m.posted.head?) { m with posted := m.posted.tail }
      | _ => m
  | .tick _ => out.foldl (record none) m
  | _ => m

theorem executing_foldl_record (owner : Option String) (m : Commands) (out : List (AppOutput K)) :
    (out.foldl (record owner) m).executing = m.executing := by
  induction out generalizing m with
  | nil => rfl
  | cons o out ih =>
    rw [List.foldl_cons, ih]
    unfold record
    split <;> rfl

theorem executing_track {a : EnerSentryApp K} {e : AppEvent} (m : Commands) (out : List (AppOutput K))
    (operates : ∀ sequenceId, e ≠ .submitSboOperate sequenceId) (rings : e ≠ .executingTimeout) :
    (track a m e out).executing = m.executing := by
  cases e with
  | submitSboOperate sequenceId => exact absurd rfl (operates sequenceId)
  | executingTimeout => exact absurd rfl rings
  | runPosted channel =>
    simp only [track]
    split
    · exact executing_foldl_record _ _ _
    · rfl
  | tick channel => exact executing_foldl_record _ _ _
  | _ => rfl

end Commands

/-- The engine parses a frame as the reply to the write of the command `id`, whose execution
timer still runs: the echo of the request, or an exception. -/
structure Answers (m : Commands) (w : PollWorld K) (frame : List UInt8) (id : String)
    (req : ModbusRequest) (resp : ModbusResponse) : Prop where
  executing : m.executing = some id
  sent : m.sent resp.transactionId = some (id, req)
  parsed : .responseParsed 1 req.slaveAddress resp ∈ (w.engine.onFrame frame).2
  reply : if resp.isException then resp.functionCode = req.functionCode ||| 0x80
    else frame = buildRequest req

/-- The outcome of the command `id` is what the device replied. -/
def ReportedAs (out : List (AppOutput K)) (id : String) (resp : ModbusResponse) : Prop :=
  if resp.isException then
    ∃ device reason, .sbo (.executingFailed id device reason) ∈ out ∧ reason ≠ "device_ack_timeout"
  else
    (∃ device, .sbo (.executingSucceeded id device) ∈ out) ∧
      ∀ device, .sbo (.executingFailed id device "device_ack_timeout") ∉ out

namespace EnerSentryApp
variable [Zero K] [One K] [Add K] [Mul K] (cv : Conversions K)

def watched : Runs.Step (EnerSentryApp K × Commands) AppEvent (AppOutput K) :=
  Runs.watch (step cv) Commands.track

/-- The frames that an event brings to the engine. -/
def arrivals (a : EnerSentryApp K) : AppEvent → List (PollWorld K × List UInt8)
  | .bytes clock data => PollWorld.arrivals cv a.worker (.bytes clock data)
  | _ => []

/-- Every reply of a run that comes in time becomes the outcome of its command. -/
def LoopCloses (s : EnerSentryApp K × Commands) (es : List AppEvent) : Prop :=
  ∀ v ∈ Runs.visits (watched cv) s es, ∀ arrival ∈ arrivals cv v.1.1 v.2, ∀ id req resp,
    Answers v.1.2 arrival.1 arrival.2 id req resp → ReportedAs (Runs.outputs (watched cv) s es) id resp

section Steps
variable {cv} {a : EnerSentryApp K} {e : AppEvent} {s : EnerSentryApp K × Commands}

theorem unacknowledged_step {signal : SboSignal} (signals : .sbo signal ∈ (step cv a e).2) :
    acknowledges signal = false := by
  cases reaches : a.sboEvent e with
  | none => exact absurd signals ((step_worker reaches).2 signal)
  | some event =>
    have member := ((step_sbo reaches).2 signal).mp signals
    have none := unacknowledged (c := a.sbo) (e := event) fun sequenceId success reason same =>
      sboEvent_ne_deviceAck a sequenceId success reason (same ▸ reaches)
    exact Bool.eq_false_iff.mpr (List.any_eq_false.mp none signal member)

/-- No outcome of a run comes from a device. -/
theorem unacknowledged_run {es : List AppEvent} {signal : SboSignal}
    (signals : .sbo signal ∈ Runs.outputs (watched cv) s es) : acknowledges signal = false := by
  obtain ⟨v, -, signals⟩ := Runs.mem_outputs_iff.mp signals
  exact unacknowledged_step signals

theorem not_reportedAs {es : List AppEvent} (id : String) (resp : ModbusResponse) :
    ¬ReportedAs (Runs.outputs (watched cv) s es) id resp := by
  unfold ReportedAs
  split
  · rintro ⟨device, reason, failed, other⟩
    have none := unacknowledged_run failed
    simp [acknowledges, other] at none
  · rintro ⟨⟨device, succeeded⟩, -⟩
    exact Bool.noConfusion (unacknowledged_run succeeded)

/-- The monitor and the machine agree on what is executed. -/
def Executing (s : EnerSentryApp K × Commands) : Prop :=
  ∀ id, s.2.executing = some id → Executes s.1.sbo id

/-- The machine executes on through every step but an expiry of its timer. -/
theorem executes_step {id : String} (executes : Executes a.sbo id) (rings : e ≠ .executingTimeout) :
    Executes (step cv a e).1.sbo id := by
  cases reaches : a.sboEvent e with
  | none => rw [(step_worker reaches).1]; exact executes
  | some event =>
    rw [(step_sbo reaches).1]
    apply executes.step
    · rintro rfl
      cases e with
      | executingTimeout => exact rings rfl
      | handleReport => cases pending : a.reports <;> simp [sboEvent, pending] at reaches
      | _ => simp [sboEvent] at reaches
    · intro sequenceId success reason same
      exact sboEvent_ne_deviceAck a sequenceId success reason (same ▸ reaches)

theorem Executing.step (executing : Executing s) (e : AppEvent) : Executing (watched cv s e).1 := by
  intro id now
  simp only [watched, Runs.watch_fst, Runs.watch_snd] at now ⊢
  by_cases rings : e = .executingTimeout
  · subst rings
    simp only [Commands.track] at now
    split at now
    · cases now
    · rename_i stopped
      exact absurd (executing id now).running stopped
  · by_cases operates : ∃ sequenceId, e = .submitSboOperate sequenceId
    · obtain ⟨sequenceId, rfl⟩ := operates
      simp only [Commands.track] at now
      split at now
      · rename_i accepted
        obtain rfl := Option.some.inj now
        exact executes_submitOperate accepted
      · exact executes_step (executing id now) rings
    · have other : ∀ sequenceId, e ≠ .submitSboOperate sequenceId :=
        fun sequenceId same => operates ⟨sequenceId, same⟩
      rw [Commands.executing_track _ _ other rings] at now
      exact executes_step (executing id now) rings

end Steps

/-- A device's reply to a command never becomes its outcome, however the run goes on. What
the machine reports is the expiry of its execution timer, under the id of the command or,
once a lost link has made the machine forget it, under none. -/
theorem reply_lost (points : List (PointRuntime K)) (pollIntervalMs : Int) (pidSeq : UInt64)
    (es : List AppEvent) {v : (EnerSentryApp K × Commands) × AppEvent}
    (visited : v ∈ Runs.visits (watched cv) (started points pollIntervalMs pidSeq, {}) es)
    {arrival : PollWorld K × List UInt8} (arrives : arrival ∈ arrivals cv v.1.1 v.2) {id : String}
    {req : ModbusRequest} {resp : ModbusResponse} (answers : Answers v.1.2 arrival.1 arrival.2 id req resp) :
    (∀ later, ¬ReportedAs
      (Runs.outputs (watched cv) (started points pollIntervalMs pidSeq, {}) (es ++ later)) id resp) ∧
    ∃ named device, (named = id ∨ named = "") ∧
      .sbo (.executingFailed named device "device_ack_timeout") ∈
        (step cv (step cv v.1.1 v.2).1 .executingTimeout).2 := by
  refine ⟨fun later => not_reportedAs id resp, ?_⟩
  have executing := Runs.reached_always (watched cv) es (s := (started points pollIntervalMs pidSeq, {}))
    (I := Executing) (fun id none => by cases none) (fun _ e executing => executing.step e)
    v.1 (Runs.visit_mem_reached visited).1
  have rings : v.2 ≠ .executingTimeout := by
    intro rings
    rw [rings] at arrives
    cases arrives
  have executes : Executes (step cv v.1.1 v.2).1.sbo id :=
    executes_step (executing id answers.executing) rings
  exact ⟨_, _, executes.named, ((step_sbo rfl).2 _).mpr executes.expires⟩

theorem mem_arrivals {a : EnerSentryApp K} {clock : Clock} {data frame : List UInt8}
    (cut : (a.worker.receive data).2 = [frame]) :
    ((a.worker.receive data).1, frame) ∈ arrivals cv a (.bytes clock data) := by
  rw [arrivals, PollWorld.arrivals, cut]
  exact List.mem_singleton_self _

end EnerSentryApp

namespace EnerSentryApp
open PollWorld (integers apartPoints)

def plant : EnerSentryApp Int × Commands := (started apartPoints 100 0, {})

/-- The value 5 is selected for register 10 of slave 1, operated and written. -/
def operated : List AppEvent :=
  [.connectionChanged true, .handleReport, .runPosted fun bytes => bytes.length,
    .submitSboSelect 1 10 5 false 0, .submitSboOperate "sbo-0", .runPosted fun bytes => bytes.length]

def written : EnerSentryApp Int × Commands := Runs.run (watched integers) plant operated

def echo : List UInt8 := [0x00, 0x01, 0x00, 0x00, 0x00, 0x06, 0x01, 0x06, 0x00, 0x0A, 0x00, 0x05]

def refusal : List UInt8 := [0x00, 0x01, 0x00, 0x00, 0x00, 0x03, 0x01, 0x86, 0x02]

def writeOf (tid : UInt16) : ModbusRequest := { sboRequest ⟨0, 1, 10, 5⟩ with transactionId := tid }

def echoed : ModbusResponse :=
  { transport := .tcp, transactionId := 1, slaveAddress := 1, functionCode := 0x06, registerValues := [10] }

def refused : ModbusResponse :=
  { transport := .tcp, transactionId := 1, slaveAddress := 1, functionCode := 0x86, isException := true,
    exceptionCode := 2 }

theorem echo_arrives :
    ((written.1.worker.receive echo).1, echo) ∈ arrivals integers written.1 (.bytes ⟨50, 50⟩ echo) :=
  mem_arrivals integers (by decide +kernel)

theorem refusal_arrives :
    ((written.1.worker.receive refusal).1, refusal) ∈ arrivals integers written.1 (.bytes ⟨50, 50⟩ refusal) :=
  mem_arrivals integers (by decide +kernel)

theorem echo_answers :
    Answers written.2 (written.1.worker.receive echo).1 echo "sbo-0" (writeOf 1) echoed :=
  ⟨by decide +kernel, by decide +kernel, by decide +kernel, by decide +kernel⟩

theorem refusal_answers :
    Answers written.2 (written.1.worker.receive refusal).1 refusal "sbo-0" (writeOf 1) refused :=
  ⟨by decide +kernel, by decide +kernel, by decide +kernel, by decide +kernel⟩

theorem reply_visited (reply : List UInt8) (later : List AppEvent) : (written, .bytes ⟨50, 50⟩ reply) ∈
    Runs.visits (watched integers) plant (operated ++ .bytes ⟨50, 50⟩ reply :: later) := by
  rw [Runs.visits_append]
  exact List.mem_append_right _ (List.mem_cons_self ..)

/-- The write of a command is answered, by its echo or by an exception, and the timer rings. -/
theorem loop_fails :
    ¬LoopCloses integers plant (operated ++ .bytes ⟨50, 50⟩ echo :: [.executingTimeout]) ∧
      ¬LoopCloses integers plant (operated ++ .bytes ⟨50, 50⟩ refusal :: [.executingTimeout]) := by
  constructor
  · intro closes
    have reported := closes _ (reply_visited echo _) _ echo_arrives _ _ _ echo_answers
    obtain ⟨-, none⟩ := reported
    exact none "dev-1" (by decide +kernel)
  · intro closes
    have reported := closes _ (reply_visited refusal _) _ refusal_arrives _ _ _ refusal_answers
    exact not_reportedAs _ _ reported

/-- The echo of the write of register 10 is lost. -/
theorem reply_lost_echo :
    (∀ later, ¬ReportedAs (Runs.outputs (watched integers) plant
      ((operated ++ .bytes ⟨50, 50⟩ echo :: []) ++ later)) "sbo-0" echoed) ∧
    ∃ named device, (named = "sbo-0" ∨ named = "") ∧
      .sbo (.executingFailed named device "device_ack_timeout") ∈
        (step integers (step integers written.1 (.bytes ⟨50, 50⟩ echo)).1 .executingTimeout).2 :=
  reply_lost integers apartPoints 100 0 _
    (v := (written, .bytes ⟨50, 50⟩ echo)) (reply_visited echo []) echo_arrives echo_answers

end EnerSentryApp
end EnerSentry.App
