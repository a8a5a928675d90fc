import EnerSentry.Business.SboStateMachine
import EnerSentry.Protocol.ModbusEngine
import EnerSentry.Protocol.PollScheduler
import EnerSentry.App.PollSegments

/-!
The worker thread of the application: the poll driver, the protocol engine it writes to
and the scheduler that admits its polls. The driver keeps one poll in flight at a time and
turns the response it accepts into samples. Signals between the three are direct calls.
-/

namespace EnerSentry.App
open EnerSentry.Lib EnerSentry.Lib.Packing EnerSentry.Protocol EnerSentry.Business

def fcForRead : RegisterType → UInt8
  | .coil => 0x01
  | .discreteInput => 0x02
  | .inputRegister => 0x04
  | .holdingRegister => 0x03

/-- The steady clock of the scheduler and the wall clock of the samples. -/
structure Clock where
  steadyMs : Int
  epochMs : Int
  deriving DecidableEq, Repr

structure PendingPoll where
  linkId : UInt32 := 0
  slave : UInt8 := 0
  functionCode : UInt8 := 0
  startAddr : UInt16 := 0
  qty : UInt16 := 0
  segmentIndex : Nat := 0
  active : Bool := false
  deriving DecidableEq, Repr

structure PollDriver (K : Type*) where
  segments : List (Segment K)
  nextSegIdx : Nat := 0
  intervalMs : Int := 100
  running : Bool := false
  pending : PendingPoll := {}
  /-- The single-shot timers that have not expired. -/
  armed : Nat := 0

/-- One response taken apart: what each point of the segment got from it, `none` for a
point that was dropped. -/
structure Decoded (K : Type*) where
  segment : Segment K
  response : ModbusResponse
  timestamp : Int
  values : List (PointRuntime K × Option K)
  deriving DecidableEq

inductive PollOutput (K : Type*) where
  /-- A request was handed to the channel, which returned `result`. -/
  | written (linkId : UInt32) (request : ModbusRequest) (result : Int)
  | decoded (d : Decoded K)
  | frameErrorSeen (slave : UInt8) (kind : FrameErrorKind)
  | health (signal : SchedulerSignal)
  deriving DecidableEq

structure PollWorld (K : Type*) where
  engine : ModbusEngine
  scheduler : PollScheduler
  driver : PollDriver K

inductive PollEvent where
  | startPolling (intervalMs : Int)
  | stopPolling
  | resetPending
  | tick (channel : Channel)
  | sboCommand (cmd : SboCommand) (channel : Channel)
  | bytes (clock : Clock) (data : List UInt8)
  | connectionChanged (connected : Bool)

/-- The samples that reach the bridge, in order: point, time and value. -/
def Decoded.samples {K : Type*} (d : Decoded K) : List (UInt32 × Int × K) :=
  d.values.filterMap fun v => v.2.map fun value => (v.1.pointId, d.timestamp, value)

section Decode
variable {K : Type*} [Zero K] [One K] [Add K] [Mul K] (cv : Conversions K)

/-- The distance of a point from the start of a segment, as an unsigned machine word. -/
def offsetIn (seg : Segment K) (pr : PointRuntime K) : Nat :=
  (((pr.registerAddr.toNat : Int) - seg.startAddr.toNat) % 2 ^ 64).toNat

def bitValue (resp : ModbusResponse) (pr : PointRuntime K) (offset : Nat) : Option K :=
  if resp.coilBytes.length ≤ offset / 8 then none
  else some ((if bitAt resp.coilBytes offset then 1 else 0) * pr.scaleFactor + pr.offset)

/-- A float point is read as the one scaled register the simulator puts in its place. -/
def registerValue (resp : ModbusResponse) (pr : PointRuntime K) (offset : Nat) : Option K :=
  let simF32 := pr.dataType = .float32
  let cnt := if simF32 then 1 else PointTable.registerCountFor pr.dataType
  if resp.registerValues.length < offset + cnt then none
  else if simF32 then
    some (cv.ofInt (resp.registerValues.getD offset 0).toNat * pr.scaleFactor + pr.offset)
  else
    let (blen, bytes) := PointTable.reassembleBytes ((resp.registerValues.drop offset).take cnt)
      pr.byteOrder (List.replicate 8 0)
    if blen = 0 then none
    else some (PointTable.decodeToEngineering cv bytes blen pr.dataType pr.scaleFactor pr.offset)

def decodePoint (seg : Segment K) (resp : ModbusResponse) (pr : PointRuntime K) : Option K :=
  let offset := offsetIn seg pr
  if isBitType seg.rt then
    if seg.qty.toNat ≤ offset then none else bitValue resp pr offset
  else registerValue cv resp pr offset

def decodeSegment (seg : Segment K) (resp : ModbusResponse) (timestamp : Int) : Decoded K :=
  ⟨seg, resp, timestamp, seg.points.map fun pr => (pr, decodePoint cv seg resp pr)⟩

end Decode

namespace PollDriver
variable {K : Type*} (d : PollDriver K)

def scheduleNext : PollDriver K := if d.running then { d with armed := d.armed + 1 } else d

def startPolling (intervalMs : Int) : PollDriver K :=
  { d with intervalMs := intervalMs, running := true }.scheduleNext

def stopPolling : PollDriver K := { d with running := false }

def resetPending : PollDriver K := { d with pending := { d.pending with active := false } }

/-- The response to the pending poll, as far as the driver can tell. -/
def expects (linkId : UInt32) (slave : UInt8) (resp : ModbusResponse) : Bool :=
  d.pending.active && linkId == d.pending.linkId && slave == d.pending.slave &&
    resp.functionCode &&& 0x7F == d.pending.functionCode

/-- An error that gives the pending poll up. -/
def failsPending (linkId : UInt32) (slave : UInt8) (kind : FrameErrorKind) : Bool :=
  d.pending.active && kind != .exception && kind != .spurious &&
    (slave == 0 || (linkId == d.pending.linkId && slave == d.pending.slave))

end PollDriver

/-- The read of a whole segment, before the engine gives it a transaction id. -/
def readRequest {K : Type*} (seg : Segment K) : ModbusRequest :=
  { transport := .tcp, slaveAddress := seg.slave, functionCode := fcForRead seg.rt,
    startingAddress := seg.startAddr, quantity := seg.qty }

def sboRequest (cmd : SboCommand) : ModbusRequest :=
  { transport := .tcp, slaveAddress := cmd.slaveId.toUInt8, functionCode := 0x06,
    startingAddress := cmd.registerAddr.toUInt16, quantity := 1, registerValues := [cmd.value] }

namespace PollWorld
variable {K : Type*}

/-- A request handed to the engine, and what became of it. -/
def write (w : PollWorld K) (channel : Channel) (req : ModbusRequest) (linkId : UInt32) :
    PollWorld K × Int × List (PollOutput K) :=
  let sent := w.engine.writeRequest (some channel) req linkId
  ({ w with engine := sent.engine }, sent.result,
    match sent.handed with
    | some request => [.written linkId request sent.result]
    | none => [])

def scheduleNext (w : PollWorld K) : PollWorld K := { w with driver := w.driver.scheduleNext }

/-- The poll of the segment whose turn it is. -/
def pollSegment (w : PollWorld K) (channel : Channel) (segmentIndex : Nat) (seg : Segment K) :
    PollWorld K × List (PollOutput K) :=
  let queued := w.scheduler.enqueue (.normal seg.slave seg.slave 1000)
  let (scheduler, task) := queued.dequeueNext seg.slave
  let w := { w with
    scheduler := scheduler
    driver := { w.driver with nextSegIdx := w.driver.nextSegIdx + 1 } }
  if !task.isValid then (w.scheduleNext, [])
  else
    let req := readRequest seg
    let (w, n, out) := w.write channel req seg.slave.toUInt32
    if n < 0 then (w.scheduleNext, out)
    else
      let pending : PendingPoll :=
        ⟨seg.slave.toUInt32, seg.slave, req.functionCode, seg.startAddr, seg.qty, segmentIndex, true⟩
      ({ w with driver := { w.driver with pending := pending } }.scheduleNext, out)

def onPollTick (w : PollWorld K) (channel : Channel) : PollWorld K × List (PollOutput K) :=
  if !w.driver.running then (w, [])
  else if w.driver.pending.active then (w.scheduleNext, [])
  else
    let segmentIndex := w.driver.nextSegIdx % w.driver.segments.length
    match w.driver.segments[segmentIndex]? with
    | none => (w.scheduleNext, [])
    | some seg => w.pollSegment channel segmentIndex seg

/-- A pending poll is over, for better or worse. -/
def settle (w : PollWorld K) (clock : Clock) (slave : UInt8) (ok : Bool) :
    PollWorld K × List (PollOutput K) :=
  let (scheduler, signals) := w.scheduler.onResponseReceived slave ok clock.steadyMs
  ({ w with scheduler := scheduler, driver := w.driver.resetPending }, signals.map .health)

def onFrameError (w : PollWorld K) (clock : Clock) (linkId : UInt32) (slave : UInt8)
    (kind : FrameErrorKind) : PollWorld K × List (PollOutput K) :=
  let (w, out) :=
    if w.driver.failsPending linkId slave kind then w.settle clock w.driver.pending.slave false
    else (w, [])
  (w, out ++ [.frameErrorSeen slave kind])

/-- The timer of a tick must be running; it is used up. -/
def onTimeout (w : PollWorld K) (channel : Channel) : PollWorld K × List (PollOutput K) :=
  if w.driver.armed = 0 then (w, [])
  else { w with driver := { w.driver with armed := w.driver.armed - 1 } }.onPollTick channel

def dispatchSboCommand (w : PollWorld K) (channel : Channel) (cmd : SboCommand) :
    PollWorld K × List (PollOutput K) :=
  let (w, _, out) := w.write channel (sboRequest cmd) 1
  (w, out)

section Slots
variable [Zero K] [One K] [Add K] [Mul K] (cv : Conversions K)

def onResponseParsed (w : PollWorld K) (clock : Clock) (linkId : UInt32) (slave : UInt8)
    (resp : ModbusResponse) : PollWorld K × List (PollOutput K) :=
  let responseFc := resp.functionCode &&& 0x7F
  if responseFc < 0x01 || 0x04 < responseFc then (w, [])
  else if !w.driver.expects linkId slave resp then (w, [])
  else
    let (settled, out) := w.settle clock slave (!resp.isException)
    if resp.isException then (settled, out)
    else
      -- the index was taken from the same segments when the poll was sent
      let seg := w.driver.segments.getD w.driver.pending.segmentIndex {}
      (settled, out ++ [.decoded (decodeSegment cv seg resp clock.epochMs)])

def onSignal (clock : Clock) (w : PollWorld K) : EngineSignal → PollWorld K × List (PollOutput K)
  | .responseParsed linkId slave resp => w.onResponseParsed cv clock linkId slave resp
  | .frameError linkId slave kind => w.onFrameError clock linkId slave kind

/-- One frame through the engine, with the driver called for every signal. -/
def onFrame (clock : Clock) (w : PollWorld K) (frame : List UInt8) : PollWorld K × List (PollOutput K) :=
  let (engine, signals) := w.engine.onFrame frame
  let w := { w with engine := engine }
  (Runs.run (onSignal cv clock) w signals, Runs.outputs (onSignal cv clock) w signals)

/-- The world once a chunk is in the ring, and the frames that are handled next. -/
def receive (w : PollWorld K) (data : List UInt8) : PollWorld K × List (List UInt8) :=
  let (engine, frames) := w.engine.receive data
  ({ w with engine := engine }, frames)

def onBytesReceived (clock : Clock) (w : PollWorld K) (data : List UInt8) :
    PollWorld K × List (PollOutput K) :=
  let (w, frames) := w.receive data
  (Runs.run (onFrame cv clock) w frames, Runs.outputs (onFrame cv clock) w frames)

def step : Runs.Step (PollWorld K) PollEvent (PollOutput K) := fun w e =>
  match e with
  | .startPolling intervalMs => ({ w with driver := w.driver.startPolling intervalMs }, [])
  | .stopPolling => ({ w with driver := w.driver.stopPolling }, [])
  | .resetPending => ({ w with driver := w.driver.resetPending }, [])
  | .tick channel => w.onTimeout channel
  | .sboCommand cmd channel => w.dispatchSboCommand channel cmd
  | .bytes clock data => w.onBytesReceived cv clock data
  | .connectionChanged connected => ({ w with engine := w.engine.onConnectionChanged connected }, [])

end Slots

/-- The scheduler after the driver has declared the links of its slaves full duplex. -/
def linkedScheduler (points : List (PointRuntime K)) : PollScheduler :=
  (((points.filter (·.enabled)).map (·.slaveAddress)).dedup).foldl
    (fun s sid => s.setLinkParams sid { isHalfDuplex := false }) {}

def fresh (points : List (PointRuntime K)) : PollWorld K :=
  ⟨{ transport := .tcp }, linkedScheduler points, { segments := buildSegments points }⟩

end PollWorld
end EnerSentry.App
