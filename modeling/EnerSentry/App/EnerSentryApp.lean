import EnerSentry.App.PollTransitions
import EnerSentry.Business.SboSafety

/-!
The application between `start` and `stop`, as its control flow sees it. The main thread
owns the select-before-operate machine, the worker the poll driver and the engine. What one
thread asks of the other is posted and done later, in order; the only calls that lead back
from the worker are those wired in `start`.
-/

namespace EnerSentry.App
open EnerSentry.Lib EnerSentry.Protocol EnerSentry.Business

/-- A call that the main thread posts to the worker. -/
inductive PostedCall where
  | startPolling (intervalMs : Int)
  | stopPolling
  | resetPending
  | sboCommand (cmd : SboCommand)
  deriving DecidableEq, Repr

structure EnerSentryApp (K : Type*) where
  pollIntervalMs : Int
  connected : Bool := false
  sbo : SboContext
  worker : PollWorld K
  posted : List PostedCall := []
  /-- The connection reports of the channel that the main thread has yet to handle. -/
  reports : List Bool := []

inductive AppEvent where
  | submitSboSelect (slaveId registerAddr : UInt32) (value : UInt16) (emergency : Bool) (nowMs : Int)
  | submitSboOperate (sequenceId : String)
  | submitSboCancel (sequenceId : String)
  | armedTimeout
  | flappingTimeout
  | executingTimeout
  /-- The main thread handles the oldest report of the channel. -/
  | handleReport
  /-- The worker runs the oldest posted call. -/
  | runPosted (channel : Channel)
  | connectionChanged (connected : Bool)
  | tick (channel : Channel)
  | bytes (clock : Clock) (data : List UInt8)

inductive AppOutput (K : Type*) where
  | connected
  | disconnected
  | sbo (signal : SboSignal)
  | worker (out : PollOutput K)
  deriving DecidableEq

/-- What a posted call is to the worker. -/
def PostedCall.event (channel : Channel) : PostedCall → PollEvent
  | .startPolling intervalMs => .startPolling intervalMs
  | .stopPolling => .stopPolling
  | .resetPending => .resetPending
  | .sboCommand cmd => .sboCommand cmd channel

namespace EnerSentryApp
variable {K : Type*} (a : EnerSentryApp K)

/-- A command is posted to the worker; it is the one signal of the machine that is wired. -/
def onSbo (e : SboEvent) : EnerSentryApp K × List (AppOutput K) :=
  let (sbo, signals) := a.sbo.stepMachine e
  ({ a with sbo := sbo, posted := a.posted ++ (SboContext.commandsOf signals).map .sboCommand },
    signals.map .sbo)

/-- The caller's sequence id, or the current one when the caller gives none. -/
def sequenceIdOr (sequenceId : String) : String :=
  if sequenceId.isEmpty then a.sbo.machine.sequenceId else sequenceId

def onChannelConnectionChanged (connected : Bool) : EnerSentryApp K × List (AppOutput K) :=
  let (a, out) := { a with connected := connected }.onSbo (.linkStatusChanged connected)
  if connected then ({ a with posted := a.posted ++ [.startPolling a.pollIntervalMs] }, out ++ [.connected])
  else ({ a with posted := a.posted ++ [.stopPolling, .resetPending] }, out ++ [.disconnected])

/-- The machine of a started application has its guard. -/
def started (points : List (PointRuntime K)) (pollIntervalMs : Int) (pidSeq : UInt64) : EnerSentryApp K where
  pollIntervalMs := pollIntervalMs
  sbo := ⟨{ guarded := true }, DeviceSboGuard.empty, pidSeq⟩
  worker := PollWorld.fresh points

section Worker
variable [Zero K] [One K] [Add K] [Mul K] (cv : Conversions K)

def onWorker (e : PollEvent) : EnerSentryApp K × List (AppOutput K) :=
  let (worker, out) := PollWorld.step cv a.worker e
  ({ a with worker := worker }, out.map .worker)

def step : Runs.Step (EnerSentryApp K) AppEvent (AppOutput K) := fun a e =>
  match e with
  | .submitSboSelect slaveId registerAddr value emergency nowMs =>
      let req : SboSelectRequest :=
        { slaveId := slaveId, registerAddr := registerAddr, value := value, emergency := emergency }
      a.onSbo (.submitSelect req "cli" nowMs)
  | .submitSboOperate sequenceId => a.onSbo (.submitOperate (a.sequenceIdOr sequenceId))
  | .submitSboCancel sequenceId => a.onSbo (.submitCancel (a.sequenceIdOr sequenceId))
  | .armedTimeout => a.onSbo .armedExpired
  | .flappingTimeout => a.onSbo .flappingExpired
  | .executingTimeout => a.onSbo .execExpired
  | .handleReport =>
      match a.reports with
      | [] => (a, [])
      | connected :: reports => { a with reports := reports }.onChannelConnectionChanged connected
  | .runPosted channel =>
      match a.posted with
      | [] => (a, [])
      | call :: posted => { a with posted := posted }.onWorker cv (call.event channel)
  | .connectionChanged connected =>
      { a with reports := a.reports ++ [connected] }.onWorker cv (.connectionChanged connected)
  | .tick channel => a.onWorker cv (.tick channel)
  | .bytes clock data => a.onWorker cv (.bytes clock data)

end Worker

/-- The event that an application event is to the machine, if it reaches it. -/
def sboEvent : AppEvent → Option SboEvent
  | .submitSboSelect slaveId registerAddr value emergency nowMs =>
      some (.submitSelect ⟨0, slaveId, registerAddr, value, emergency⟩ "cli" nowMs)
  | .submitSboOperate sequenceId => some (.submitOperate (a.sequenceIdOr sequenceId))
  | .submitSboCancel sequenceId => some (.submitCancel (a.sequenceIdOr sequenceId))
  | .armedTimeout => some .armedExpired
  | .flappingTimeout => some .flappingExpired
  | .executingTimeout => some .execExpired
  | .handleReport => a.reports.head?.map .linkStatusChanged
  | _ => none

/-- No reply of a device reaches the machine. -/
theorem sboEvent_ne_deviceAck {e : AppEvent} (sequenceId : String) (success : Bool) (reason : String) :
    a.sboEvent e ≠ some (.deviceAck sequenceId success reason) := by
  cases e with
  | handleReport =>
    cases pending : a.reports <;> simp [sboEvent, pending]
  | _ => simp [sboEvent]

section Steps
variable [Zero K] [One K] [Add K] [Mul K] {cv : Conversions K} {a} {e : AppEvent}

/-- The machine moves by the event that reaches it, and its signals go out. -/
theorem step_sbo {s : SboEvent} (reaches : a.sboEvent e = some s) :
    (step cv a e).1.sbo = (a.sbo.stepMachine s).1 ∧
      ∀ signal, .sbo signal ∈ (step cv a e).2 ↔ signal ∈ (a.sbo.stepMachine s).2 := by
  cases e with
  | handleReport =>
    cases pending : a.reports with
    | nil => simp [sboEvent, pending] at reaches
    | cons connected reports =>
      obtain rfl : SboEvent.linkStatusChanged connected = s := by
        simpa [sboEvent, pending] using reaches
      cases connected <;> simp [step, pending, onChannelConnectionChanged, onSbo, SboContext.stepMachine]
  | runPosted channel => simp [sboEvent] at reaches
  | connectionChanged connected => simp [sboEvent] at reaches
  | tick channel => simp [sboEvent] at reaches
  | bytes clock data => simp [sboEvent] at reaches
  | _ =>
    obtain rfl := Option.some.inj reaches
    simp [step, onSbo]

/-- Whatever the worker does, the machine neither moves nor signals. -/
theorem step_worker (misses : a.sboEvent e = none) :
    (step cv a e).1.sbo = a.sbo ∧ ∀ signal, .sbo signal ∉ (step cv a e).2 := by
  cases e with
  | handleReport =>
    cases pending : a.reports with
    | nil => simp [step, pending]
    | cons connected reports => simp [sboEvent, pending] at misses
  | runPosted channel =>
    cases pending : a.posted with
    | nil => simp [step, pending]
    | cons call posted => simp [step, pending, onWorker]
  | connectionChanged connected => simp [step, onWorker]
  | tick channel => simp [step, onWorker]
  | bytes clock data => simp [step, onWorker]
  | _ => simp [sboEvent] at misses

end Steps
end EnerSentryApp
end EnerSentry.App
