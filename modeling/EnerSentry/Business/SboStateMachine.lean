import EnerSentry.Lib.Runs
import EnerSentry.Lib.Timer
import EnerSentry.Business.DeviceSboGuard

/-!
The select-before-operate state machine, and a station of several of them around one
device guard. A machine owns three timers; the guard only stores occupants. The
process-wide counter behind the sequence ids belongs to the station.
-/

namespace EnerSentry.Business
open EnerSentry.Lib

inductive SBOState where
  | idle | selecting | armed | executed | timeout | aborted
  deriving DecidableEq, Repr

structure SboSelectRequest where
  linkId : UInt32 := 0
  slaveId : UInt32 := 0
  registerAddr : UInt32 := 0
  value : UInt16 := 0
  emergency : Bool := false
  deriving DecidableEq, Repr

structure SboCommand where
  linkId : UInt32 := 0
  slaveId : UInt32 := 0
  registerAddr : UInt32 := 0
  value : UInt16 := 0
  deriving DecidableEq, Repr

/-- Signals of one machine; those of the guard it called are passed through in order. -/
inductive SboSignal where
  | sboStateChanged (state : SBOState)
  | armedAcquired (sequenceId : String) (key : SboDeviceKey)
  | armedCleared (reason : String)
  | executingSucceeded (sequenceId device : String)
  | executingFailed (sequenceId device reason : String)
  | commandReady (cmd : SboCommand)
  | guard (signal : GuardSignal)
  deriving DecidableEq, Repr

structure SboStateMachine where
  state : SBOState := .idle
  sequenceId : String := ""
  operatorName : String := ""
  pendingCommand : SboCommand := {}
  heldKey : Option SboDeviceKey := none
  /-- Whether `setGuard` has injected the shared guard. -/
  guarded : Bool
  armedTimer : Timer := { singleShot := true }
  flappingTimer : Timer := { singleShot := true, intervalMs := 500 }
  execTimer : Timer := { singleShot := true, intervalMs := 2000 }
  linkConnected : Bool := true
  deriving DecidableEq, Repr

/-- What one call sees and changes: the machine, the shared guard and the process-wide
counter of `QCoreApplication_getPidSafe`. -/
structure SboContext where
  machine : SboStateMachine
  guard : DeviceSboGuard
  pidSeq : UInt64

structure SboResult where
  accepted : Bool
  context : SboContext
  signals : List SboSignal

namespace SboSelectRequest

def key (req : SboSelectRequest) : SboDeviceKey := ⟨req.linkId, req.slaveId, req.registerAddr⟩

def command (req : SboSelectRequest) : SboCommand :=
  ⟨req.linkId, req.slaveId, req.registerAddr, req.value⟩

end SboSelectRequest

namespace SboStateMachine

def device (m : SboStateMachine) : String := "dev-" ++ toString m.pendingCommand.slaveId

/-- The reset shared by every path that ends a sequence. -/
def clearSequence (m : SboStateMachine) : SboStateMachine :=
  { m with heldKey := none, sequenceId := "", operatorName := "" }

end SboStateMachine

namespace SboContext

/-- The guard's answer to releasing whatever the machine holds. -/
def releaseHeld (c : SboContext) : DeviceSboGuard.Released :=
  match c.machine.guarded, c.machine.heldKey with
  | true, some key => c.guard.release key c.machine.sequenceId
  | _, _ => ⟨c.guard, []⟩

def enterArmedState (c : SboContext) (req : SboSelectRequest) : SboResult :=
  let timeoutMs := if req.emergency then 3000 else 5000
  let machine := { c.machine with state := .armed, armedTimer := c.machine.armedTimer.startFor timeoutMs }
  ⟨true, { c with machine := machine },
    .sboStateChanged .armed ::
      (match machine.heldKey with
        | some key => [.armedAcquired machine.sequenceId key]
        | none => [])⟩

def submitSelect (c : SboContext) (req : SboSelectRequest) (operatorName : String)
    (nowMs : Int) : SboResult :=
  if c.machine.state ≠ .idle then
    if c.machine.guarded then
      -- the synthetic owner has no machine behind it: this is meant to be refused
      let taken := c.guard.tryAcquire req.key ("rejected-" ++ toString c.pidSeq.toInt64)
        operatorName nowMs
      ⟨false, { c with guard := taken.guard, pidSeq := c.pidSeq + 1 }, taken.signals.map .guard⟩
    else ⟨false, c, []⟩
  else
    let machine := { c.machine with
      sequenceId := "sbo-" ++ toString (c.pidSeq * 1000)
      operatorName := operatorName
      pendingCommand := req.command }
    let refused := { machine with sequenceId := "", operatorName := "" }
    if c.machine.guarded then
      let taken := c.guard.tryAcquire req.key machine.sequenceId operatorName nowMs
      if taken.granted then
        let armed := enterArmedState
          ⟨{ machine with heldKey := some req.key }, taken.guard, c.pidSeq + 1⟩ req
        { armed with signals := taken.signals.map .guard ++ armed.signals }
      else ⟨false, ⟨refused, taken.guard, c.pidSeq + 1⟩, taken.signals.map .guard⟩
    else ⟨false, ⟨refused, c.guard, c.pidSeq + 1⟩, []⟩

def submitOperate (c : SboContext) (sequenceId : String) : SboResult :=
  if c.machine.state ≠ .armed then ⟨false, c, []⟩
  else if sequenceId ≠ c.machine.sequenceId then ⟨false, c, []⟩
  else
    let freed := c.releaseHeld
    let machine := { c.machine with
      state := .executed
      armedTimer := c.machine.armedTimer.stop
      execTimer := c.machine.execTimer.start }
    ⟨true, { c with machine := machine, guard := freed.guard },
      .sboStateChanged .executed :: freed.signals.map .guard ++
        [.commandReady c.machine.pendingCommand]⟩

/-- The common tail of an abort and of an expired selection. -/
def clearArmed (c : SboContext) (via : SBOState) (reason : String) : SboContext × List SboSignal :=
  let freed := c.releaseHeld
  ({ c with machine := { c.machine.clearSequence with state := .idle }, guard := freed.guard },
    freed.signals.map .guard ++
      [.sboStateChanged via, .armedCleared reason, .sboStateChanged .idle])

/-- Only an armed machine is aborted; any other forgets its sequence and stays where it is. -/
def forceAbort (c : SboContext) (reason : String) : SboContext × List SboSignal :=
  if c.machine.state ≠ .armed then ({ c with machine := c.machine.clearSequence }, [])
  else
    let machine := { c.machine with
      armedTimer := c.machine.armedTimer.stop
      execTimer := c.machine.execTimer.stop }
    clearArmed { c with machine := machine } .aborted reason

def submitCancel (c : SboContext) (sequenceId : String) : SboResult :=
  if sequenceId ≠ c.machine.sequenceId then ⟨false, c, []⟩
  else if c.machine.state ≠ .armed ∧ c.machine.state ≠ .selecting then ⟨false, c, []⟩
  else
    let (c, signals) := c.forceAbort "user_cancel"
    ⟨true, c, signals⟩

def onDeviceAck (c : SboContext) (sequenceId : String) (success : Bool) (reason : String) :
    SboContext × List SboSignal :=
  if sequenceId ≠ c.machine.sequenceId then (c, [])
  else if c.machine.state ≠ .executed then (c, [])
  else
    let outcome : SboSignal :=
      if success then .executingSucceeded sequenceId c.machine.device
      else .executingFailed sequenceId c.machine.device (if reason.isEmpty then "unknown" else reason)
    ({ c with machine := { c.machine.clearSequence with
        state := .idle, execTimer := c.machine.execTimer.stop } },
      [outcome, .sboStateChanged .idle])

def onLinkStatusChanged (c : SboContext) (connected : Bool) : SboContext :=
  { c with machine := { c.machine with
      linkConnected := connected
      flappingTimer := if connected then c.machine.flappingTimer.stop
        else c.machine.flappingTimer.start } }

def onArmedTimeout (c : SboContext) : SboContext × List SboSignal :=
  if c.machine.state ≠ .armed then (c, []) else clearArmed c .timeout "timeout"

def onFlappingTimeout (c : SboContext) : SboContext × List SboSignal :=
  if c.machine.linkConnected then (c, []) else c.forceAbort "link_down"

def onExecutingTimeout (c : SboContext) : SboContext × List SboSignal :=
  if c.machine.state ≠ .executed then (c, [])
  else ({ c with machine := { c.machine.clearSequence with state := .idle } },
    [.executingFailed c.machine.sequenceId c.machine.device "device_ack_timeout",
      .sboStateChanged .idle])

def forceLinkDownForTest (c : SboContext) (flappingMs : Int) : SboContext :=
  { c with machine := { c.machine with
      linkConnected := false
      flappingTimer :=
        c.machine.flappingTimer.startFor (if 0 < flappingMs then flappingMs else 500) } }

end SboContext

/-- Everything that can happen to one machine. Expiries only happen to running timers. -/
inductive SboEvent where
  | submitSelect (req : SboSelectRequest) (operatorName : String) (nowMs : Int)
  | submitOperate (sequenceId : String)
  | submitCancel (sequenceId : String)
  | deviceAck (sequenceId : String) (success : Bool) (reason : String)
  | linkStatusChanged (connected : Bool)
  | armedExpired
  | flappingExpired
  | execExpired
  | forceArmedTimeoutForTest
  | forceLinkDownForTest (flappingMs : Int)
  deriving DecidableEq, Repr

namespace SboContext

def stepMachine (c : SboContext) : SboEvent → SboContext × List SboSignal
  | .submitSelect req operatorName nowMs =>
      let r := c.submitSelect req operatorName nowMs
      (r.context, r.signals)
  | .submitOperate sequenceId =>
      let r := c.submitOperate sequenceId
      (r.context, r.signals)
  | .submitCancel sequenceId =>
      let r := c.submitCancel sequenceId
      (r.context, r.signals)
  | .deviceAck sequenceId success reason => c.onDeviceAck sequenceId success reason
  | .linkStatusChanged connected => (c.onLinkStatusChanged connected, [])
  | .armedExpired =>
      if c.machine.armedTimer.active then
        onArmedTimeout { c with machine := { c.machine with armedTimer := c.machine.armedTimer.expire } }
      else (c, [])
  | .flappingExpired =>
      if c.machine.flappingTimer.active then
        onFlappingTimeout
          { c with machine := { c.machine with flappingTimer := c.machine.flappingTimer.expire } }
      else (c, [])
  | .execExpired =>
      if c.machine.execTimer.active then
        onExecutingTimeout { c with machine := { c.machine with execTimer := c.machine.execTimer.expire } }
      else (c, [])
  | .forceArmedTimeoutForTest => c.onArmedTimeout
  | .forceLinkDownForTest flappingMs => (c.forceLinkDownForTest flappingMs, [])

end SboContext

/-- Any number of machines around one guard. -/
structure SboStation (ι : Type*) where
  machines : ι → SboStateMachine
  guard : DeviceSboGuard
  pidSeq : UInt64

namespace SboStation
variable {ι : Type*}

def context (s : SboStation ι) (i : ι) : SboContext := ⟨s.machines i, s.guard, s.pidSeq⟩

variable [DecidableEq ι]

def put (s : SboStation ι) (i : ι) (c : SboContext) : SboStation ι :=
  ⟨Function.update s.machines i c.machine, c.guard, c.pidSeq⟩

/-- One event at one machine; the signals are tagged with the machine that caused them. -/
def step : Runs.Step (SboStation ι) (ι × SboEvent) (ι × SboSignal) := fun s e =>
  let after := (s.context e.1).stepMachine e.2
  (s.put e.1 after.1, after.2.map (fun signal => (e.1, signal)))

/-- Freshly built machines (with or without an injected guard) over an empty guard. -/
def fresh (guarded : ι → Bool) (pidSeq : UInt64) : SboStation ι :=
  ⟨fun i => { guarded := guarded i }, DeviceSboGuard.empty, pidSeq⟩

end SboStation

end EnerSentry.Business
