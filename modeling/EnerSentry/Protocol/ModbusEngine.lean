import EnerSentry.Lib.Runs
import EnerSentry.Protocol.StreamAccumulator

/-!
The protocol engine between a byte channel and the application: every request over TCP
takes a free transaction id and an entry in the in-flight table, and a response finds the
link and slave it belongs to under the id it carries.
-/

namespace EnerSentry.Protocol
open EnerSentry.Lib

inductive FrameErrorKind where
  | crc | length | malformed | timeout | exception | unsupported | spurious
  deriving DecidableEq, Repr

/-- One mark for each id; 0 is never handed out. -/
structure TransactionIdAllocator where
  used : UInt16 → Bool := fun _ => false

namespace TransactionIdAllocator

def invalidId : UInt16 := 0

/-- The lowest free id, or `invalidId` when none is left. -/
def allocate (t : TransactionIdAllocator) : UInt16 × TransactionIdAllocator :=
  match ((List.range' 1 65535).map UInt16.ofNat).find? (fun id => !t.used id) with
  | some id => (id, { t with used := Function.update t.used id true })
  | none => (invalidId, t)

def release (t : TransactionIdAllocator) (id : UInt16) : TransactionIdAllocator :=
  if id = invalidId then t else { t with used := Function.update t.used id false }

def clearInFlight (t : TransactionIdAllocator) : TransactionIdAllocator :=
  { t with used := fun _ => false }

def isAllocated (t : TransactionIdAllocator) (id : UInt16) : Bool := id != invalidId && t.used id

end TransactionIdAllocator

structure InFlightEntry where
  linkId : UInt32
  slaveAddress : UInt8
  deriving DecidableEq, Repr

inductive EngineSignal where
  | responseParsed (linkId : UInt32) (slave : UInt8) (resp : ModbusResponse)
  | frameError (linkId : UInt32) (slave : UInt8) (kind : FrameErrorKind)
  deriving DecidableEq, Repr

structure ModbusEngine where
  transport : Transport
  accumulator : ModbusStreamAccumulator := {}
  txIdAllocator : TransactionIdAllocator := {}
  inFlight : UInt16 → Option InFlightEntry := fun _ => none

/-- What the channel answers to the bytes it is handed: the number it took, or less than 0. -/
abbrev Channel := List UInt8 → Int

/-- What a write leaves behind: the engine, the number returned to the caller, and the
request with its transaction id when the channel was asked to send it. -/
structure Written where
  engine : ModbusEngine
  result : Int
  handed : Option ModbusRequest

namespace ModbusEngine

/-- An entry that is there already stays as it is. -/
def emplace (e : ModbusEngine) (tid : UInt16) (entry : InFlightEntry) : ModbusEngine :=
  match e.inFlight tid with
  | some _ => e
  | none => { e with inFlight := Function.update e.inFlight tid (some entry) }

def forget (e : ModbusEngine) (tid : UInt16) : ModbusEngine :=
  { e with
    inFlight := Function.update e.inFlight tid none
    txIdAllocator := e.txIdAllocator.release tid }

/-- Hands a request to the channel under the id it has; a frame that cannot be built takes
its registration back. -/
def handOver (e : ModbusEngine) (channel : Channel) (r : ModbusRequest) : Written :=
  let frame := buildRequest r
  if frame.isEmpty then ⟨if r.transactionId ≠ 0 then e.forget r.transactionId else e, -1, none⟩
  else ⟨e, channel frame, some r⟩

/-- `none` stands for an engine that was given no channel. -/
def writeRequest (e : ModbusEngine) (channel : Option Channel) (req : ModbusRequest)
    (linkId : UInt32) : Written :=
  match channel with
  | none => ⟨e, -1, none⟩
  | some channel =>
      if e.transport = .tcp ∧ req.transport = .tcp then
        let (tid, txIdAllocator) := e.txIdAllocator.allocate
        if tid = TransactionIdAllocator.invalidId then
          ⟨{ e with txIdAllocator := txIdAllocator }, -1, none⟩
        else
          let e := { e with txIdAllocator := txIdAllocator }.emplace tid ⟨linkId, req.slaveAddress⟩
          e.handOver channel { req with transactionId := tid }
      else e.handOver channel req

/-- A parsed response, followed by the error report of an exception. -/
def reportResponse (linkId : UInt32) (slave : UInt8) (resp : ModbusResponse) : List EngineSignal :=
  if resp.isException then [.responseParsed linkId slave resp, .frameError linkId slave .exception]
  else [.responseParsed linkId slave resp]

/-- One round of the receiving loop, for a frame that has been cut off. -/
def onFrame (e : ModbusEngine) (frame : List UInt8) : ModbusEngine × List EngineSignal :=
  let parsed := if e.transport = .tcp then parseTcpResponse frame else parseRtuResponse frame
  match parsed with
  | none => (e, [.frameError 0 0 .malformed])
  | some resp =>
      if e.transport = .tcp then
        match e.inFlight resp.transactionId with
        | none => (e, [.frameError 0 resp.slaveAddress .spurious])
        | some entry =>
            (e.forget resp.transactionId, reportResponse entry.linkId entry.slaveAddress resp)
      else (e, reportResponse 0 resp.slaveAddress resp)

/-- The ring after a chunk of bytes, and the frames it gives up. The rounds of the loop
never touch the ring otherwise, so cutting and handling the frames can be told apart. -/
def receive (e : ModbusEngine) (data : List UInt8) : ModbusEngine × List (List UInt8) :=
  if data.isEmpty then (e, [])
  else
    let (accumulator, frames) := (e.accumulator.append data).extractFrames (e.transport = .tcp)
    ({ e with accumulator := accumulator }, frames)

def onBytesReceived (e : ModbusEngine) (data : List UInt8) : ModbusEngine × List EngineSignal :=
  let (e, frames) := e.receive data
  (Runs.run onFrame e frames, Runs.outputs onFrame e frames)

def onConnectionChanged (e : ModbusEngine) (connected : Bool) : ModbusEngine :=
  if connected then e
  else { e with inFlight := fun _ => none, txIdAllocator := e.txIdAllocator.clearInFlight }

section Effects
variable {e : ModbusEngine} {tid : UInt16} {entry : InFlightEntry} {channel : Channel} {req : ModbusRequest}
  {linkId : UInt32} {frame data : List UInt8}

@[simp] theorem transport_emplace : (e.emplace tid entry).transport = e.transport := by
  rw [emplace]
  split <;> rfl

@[simp] theorem transport_handOver : (e.handOver channel req).engine.transport = e.transport := by
  simp only [handOver]
  split
  · split <;> rfl
  · rfl

@[simp] theorem transport_writeRequest (channel : Option Channel) :
    (e.writeRequest channel req linkId).engine.transport = e.transport := by
  cases channel with
  | none => rfl
  | some channel =>
    simp only [writeRequest]
    split
    · split <;> simp
    · simp

@[simp] theorem transport_onFrame : (e.onFrame frame).1.transport = e.transport := by
  simp only [onFrame]
  split
  · rfl
  · split
    · split <;> rfl
    · rfl

@[simp] theorem transport_receive : (e.receive data).1.transport = e.transport := by
  rw [receive]
  split <;> rfl

@[simp] theorem transport_onConnectionChanged (connected : Bool) :
    (e.onConnectionChanged connected).transport = e.transport := by
  cases connected <;> rfl

theorem handed_handOver (accepted : 0 ≤ (e.handOver channel req).result) :
    (e.handOver channel req).handed = some req := by
  simp only [handOver] at accepted ⊢
  split at accepted
  · exact absurd accepted (by simp)
  · rename_i built
    rw [if_neg built]

/-- A request the channel accepts went out under the transaction id it was given. -/
theorem handed_writeRequest (accepted : 0 ≤ (e.writeRequest (some channel) req linkId).result) :
    ∃ tid, (e.writeRequest (some channel) req linkId).handed = some { req with transactionId := tid } := by
  simp only [writeRequest] at accepted ⊢
  split at accepted
  · rename_i tcp
    rw [if_pos tcp]
    split at accepted
    · exact absurd accepted (by simp)
    · rename_i free
      rw [if_neg free]
      exact ⟨_, handed_handOver accepted⟩
  · rename_i serial
    rw [if_neg serial]
    exact ⟨req.transactionId, handed_handOver accepted⟩

/-- A response over TCP is reported under the entry it hits, which it uses up. -/
theorem onFrame_hit (tcp : e.transport = .tcp) {resp : ModbusResponse}
    (parsed : parseTcpResponse frame = some resp) (hit : e.inFlight resp.transactionId = some entry) :
    e.onFrame frame =
      (e.forget resp.transactionId, reportResponse entry.linkId entry.slaveAddress resp) := by
  simp only [onFrame, tcp, ↓reduceIte, parsed, hit]

/-- A frame over TCP that is no response to a request in flight is an error and no more. -/
theorem onFrame_miss (tcp : e.transport = .tcp)
    (miss : ∀ resp, parseTcpResponse frame = some resp → e.inFlight resp.transactionId = none) :
    ∃ slave kind, e.onFrame frame = (e, [.frameError 0 slave kind]) := by
  simp only [onFrame, tcp, ↓reduceIte]
  cases parsed : parseTcpResponse frame with
  | none => exact ⟨0, .malformed, rfl⟩
  | some resp =>
    simp only [miss resp parsed]
    exact ⟨resp.slaveAddress, .spurious, rfl⟩

end Effects
end ModbusEngine
end EnerSentry.Protocol
