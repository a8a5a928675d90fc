import Mathlib.Algebra.Order.Group.Multiset
import Mathlib.Algebra.BigOperators.Group.Multiset.Basic
import EnerSentry.App.SboAddressing
import EnerSentry.Sim.RequestStream

/-!
The control path from the operator to the devices. The application opens one connection after the other; what
it sent over a connection that was lost may be served late, beside the next one, or in part or not at all. What
comes back is of no account here, and any bytes may. A device executes no write but those of commands that an
operator selected and operated, and none of them twice.
-/

namespace EnerSentry.App
open EnerSentry.Lib EnerSentry.Lib.Packing EnerSentry.Protocol EnerSentry.Business EnerSentry.Sim

/-- A connection at its far end: the bytes that the server has yet to read, and whether its loop runs. -/
structure Wire where
  upstream : List UInt8 := []
  serving : Bool := true

/-- What a device is asked: the unit and the request. -/
abbrev DeviceRequest := UInt8 × List UInt8

def requestOf (read : MbapHeader × List UInt8) : DeviceRequest := (read.1.unitId, read.2)

namespace Wire

/-- A turn of the server on the connection, with the request that it hands to the device. -/
def turn (slaves : List UInt8) (effect : RegisterBank → UInt8 → FaultEffect Nat) (w : Wire) (bank : RegisterBank) :
    Wire × RegisterBank × List DeviceRequest :=
  if !w.serving || w.upstream.isEmpty then (w, bank, [])
  else
    let asked := (mbapRequest w.upstream).toList.map requestOf
    match clientTurn (dispatchHandler slaves) effect bank [w.upstream] with
    | (bank, none) => (⟨[], false⟩, bank, asked)
    | (bank, some (_, left)) => ({ w with upstream := delivered left }, bank, asked)

end Wire

/-- The application, the simulator, and the connections between them. -/
structure Plant (K : Type) where
  app : EnerSentryApp K
  bank : RegisterBank
  wire : Option Wire := none
  lost : List Wire := []

inductive PlantEvent where
  | app (e : AppEvent)
  | serve
  | serveLost (i : Nat)
  /-- Of the bytes of a lost connection only the first will arrive. -/
  | cut (i n : Nat)
  | publish (slave : UInt8) (regs : SlaveRegset)

inductive PlantOutput (K : Type) where
  | app (out : AppOutput K)
  | request (asked : DeviceRequest)

/-- The event at the channel as it is. -/
def AppEvent.over (channel : Channel) : AppEvent → AppEvent
  | .runPosted _ => .runPosted channel
  | .tick _ => .tick channel
  | e => e

/-- The requests that the channel took. -/
def handedOver {K : Type} (out : List (AppOutput K)) : List ModbusRequest :=
  out.filterMap fun
    | .worker (.written _ req n) => if 0 ≤ n then some req else none
    | _ => none

namespace Plant
variable {K : Type}

/-- A channel that is closed takes nothing. -/
def channel (p : Plant K) : Channel := if p.wire.isSome then takesAll else fun _ => -1

/-- The connection of the application is open from now on, or it is lost. -/
def relink (p : Plant K) : AppEvent → Plant K
  | .connectionChanged true => { p with wire := some {}, lost := p.wire.toList ++ p.lost }
  | .connectionChanged false => { p with wire := none, lost := p.wire.toList ++ p.lost }
  | _ => p

def send (p : Plant K) (requests : List ModbusRequest) : Plant K :=
  { p with wire := p.wire.map fun w => { w with upstream := w.upstream ++ requests.flatMap buildRequest } }

variable [Zero K] [One K] [Add K] [Mul K] (cv : Conversions K) (slaves : List UInt8)
  (effect : RegisterBank → UInt8 → FaultEffect Nat)

def step : Runs.Step (Plant K) PlantEvent (PlantOutput K) := fun p event =>
  match event with
  | .app e =>
      let done := EnerSentryApp.step cv p.app (e.over p.channel)
      (({ p with app := done.1 }.send (handedOver done.2)).relink e, done.2.map .app)
  | .serve =>
      match p.wire with
      | none => (p, [])
      | some w =>
          let done := w.turn slaves effect p.bank
          ({ p with wire := some done.1, bank := done.2.1 }, done.2.2.map .request)
  | .serveLost i =>
      match p.lost[i]? with
      | none => (p, [])
      | some w =>
          let done := w.turn slaves effect p.bank
          ({ p with lost := p.lost.set i done.1, bank := done.2.1 }, done.2.2.map .request)
  | .cut i n => ({ p with lost := p.lost.modify i fun w => { w with upstream := w.upstream.take n } }, [])
  | .publish slave regs => ({ p with bank := p.bank.publish slave regs }, [])

/-- The plant when the application has been started. -/
def started (points : List (PointRuntime K)) (pollIntervalMs : Int) (pidSeq : UInt64) (bank : RegisterBank) : Plant K :=
  { app := EnerSentryApp.started points pollIntervalMs pidSeq, bank := bank }

end Plant

section Accounts
variable {K : Type}

def asWrite (asked : DeviceRequest) : Option DeviceRequest := if isWriteCode (asked.2.headD 0) then some asked else none

/-- The writes that the devices were given, in order. -/
def writesInOrder (out : List (PlantOutput K)) : List DeviceRequest :=
  out.filterMap fun
    | .request asked => asWrite asked
    | _ => none

def writesServed (out : List (PlantOutput K)) : Multiset DeviceRequest := writesInOrder out

def issuedBy : AppOutput K → Option SboCommand
  | .sbo (.commandReady cmd) => some cmd
  | _ => none

/-- The commands that the machine has put out, in order. -/
def commandsInOrder (out : List (PlantOutput K)) : List SboCommand :=
  out.filterMap fun
    | .app o => issuedBy o
    | _ => none

def commandsIssued (out : List (PlantOutput K)) : Multiset SboCommand := commandsInOrder out

/-- The write of a command: what its addresses leave in eight and sixteen bits, and its value. -/
def commandWrite (cmd : SboCommand) : DeviceRequest :=
  (cmd.slaveId.toUInt8, 0x06 :: (writeU16BE cmd.registerAddr.toUInt16 ++ writeU16BE cmd.value))

/-- The command that a select asks for. -/
def selected : PlantEvent → Option SboCommand
  | .app (.submitSboSelect slaveId registerAddr value _ _) => some ⟨0, slaveId, registerAddr, value⟩
  | _ => none

def isOperate : PlantEvent → Bool
  | .app (.submitSboOperate _) => true
  | _ => false

end Accounts

namespace Wire

/-- The writes among the requests that wait on a connection. -/
def waits (w : Wire) : List DeviceRequest :=
  if w.serving then ((requestsIn w.upstream).map requestOf).filterMap asWrite else []

def waiting (w : Wire) : Multiset DeviceRequest := w.waits

/-- Frames lie whole behind one another. -/
def Framed (w : Wire) : Prop :=
  ∃ frames : List (List UInt8), w.upstream = frames.flatten ∧ ∀ f ∈ frames, ∃ hdr pdu, WholeRequest f hdr pdu

section Turns
variable {w : Wire} {slaves : List UInt8} {effect : RegisterBank → UInt8 → FaultEffect Nat} {bank : RegisterBank}

/-- What a turn does to a connection: nothing, its end, or the first request handed on. -/
inductive Turned (w : Wire) : Wire → List DeviceRequest → Prop
  | idle : Turned w w []
  | ends : Turned w ⟨[], false⟩ []
  | ends_serving {hdr : MbapHeader} {pdu : List UInt8} (serving : w.serving = true)
      (front : mbapRequest w.upstream = some (hdr, pdu)) : Turned w ⟨[], false⟩ [(hdr.unitId, pdu)]
  | serves {hdr : MbapHeader} {pdu : List UInt8} (serving : w.serving = true)
      (front : mbapRequest w.upstream = some (hdr, pdu)) :
      Turned w { w with upstream := w.upstream.drop (7 + pdu.length) } [(hdr.unitId, pdu)]

theorem turned (w : Wire) (slaves : List UInt8) (effect : RegisterBank → UInt8 → FaultEffect Nat)
    (bank : RegisterBank) : w.Turned (w.turn slaves effect bank).1 (w.turn slaves effect bank).2.2 := by
  unfold turn
  by_cases quiet : (!w.serving || w.upstream.isEmpty) = true
  · rw [if_pos quiet]
    exact .idle
  · rw [if_neg quiet]
    simp only [Bool.or_eq_true, Bool.not_eq_true', not_or, Bool.not_eq_false, Bool.not_eq_true] at quiet
    obtain ⟨serving, filled⟩ := quiet
    have bytes : delivered [w.upstream] = w.upstream := delivered_single w.upstream
    obtain ⟨nothing, ended⟩ | ⟨hdr, pdu, left, front, remains, served⟩ :=
      clientTurn_stream (dispatchHandler slaves) effect bank [w.upstream]
    · rw [bytes] at nothing
      simp only [ended, nothing, Option.toList_none, List.map_nil]
      exact .ends
    · rw [bytes] at front remains
      simp only [served, front, Option.toList_some, List.map_cons, List.map_nil]
      cases replyUnder (effect (dispatchHandler slaves bank hdr.unitId pdu).2 hdr.unitId) hdr
          (dispatchHandler slaves bank hdr.unitId pdu).1 with
      | none => exact .ends_serving serving front
      | some reply =>
        simp only [Option.map_some, remains]
        exact .serves serving front

variable {w' : Wire} {asked : List DeviceRequest}

/-- A request that is handed on waits no longer. -/
theorem Turned.waits (turned : w.Turned w' asked) : (asked.filterMap asWrite ++ w'.waits).Sublist w.waits := by
  cases turned with
  | idle => exact List.Sublist.refl _
  | ends => exact List.nil_sublist _
  | ends_serving serving front =>
    rw [Wire.waits, if_neg Bool.false_ne_true, List.append_nil, Wire.waits, if_pos serving, requestsIn_some front]
    apply List.Sublist.filterMap
    exact List.singleton_sublist.mpr List.mem_cons_self
  | serves serving front =>
    rw [Wire.waits, Wire.waits]
    simp only [serving, if_true]
    rw [requestsIn_some front, List.map_cons, ← List.filterMap_append]
    exact List.Sublist.refl _

theorem Turned.waiting (turned : w.Turned w' asked) :
    (asked.filterMap asWrite : Multiset DeviceRequest) + w'.waiting ≤ w.waiting := turned.waits.subperm

/-- Bytes that are lost take requests with them. -/
theorem waiting_cut (w : Wire) (n : Nat) : { w with upstream := w.upstream.take n }.waiting ≤ w.waiting := by
  apply List.Sublist.subperm
  rw [waits, waits]
  split
  · exact (List.Sublist.map _ (requestsIn_take n w.upstream).sublist).filterMap _
  · exact List.Sublist.refl _

theorem Turned.framed (turned : w.Turned w' asked) (framed : w.Framed) : w'.Framed := by
  cases turned with
  | idle => exact framed
  | ends => exact ⟨[], rfl, List.forall_mem_nil _⟩
  | ends_serving serving front => exact ⟨[], rfl, List.forall_mem_nil _⟩
  | serves serving front =>
    obtain ⟨frames, stream, whole⟩ := framed
    cases frames with
    | nil =>
      rw [stream] at front
      cases front
    | cons frame frames =>
      obtain ⟨first, later⟩ := List.forall_mem_cons.mp whole
      obtain ⟨hdr, pdu, own⟩ := first
      rw [stream, List.flatten_cons, mbapRequest_append own.read] at front
      obtain ⟨rfl, rfl⟩ := Prod.mk.inj (Option.some.inj front)
      refine ⟨frames, ?_, later⟩
      rw [stream, List.flatten_cons, ← own.size, List.drop_left]

/-- What a frame asks for, if it is a write. -/
def writeIn (frame : List UInt8) : Option DeviceRequest := (mbapRequest frame).bind fun read => asWrite (requestOf read)

/-- What is sent waits behind the others. -/
theorem waits_send (framed : w.Framed) {frames : List (List UInt8)}
    (known : ∀ f ∈ frames, f = [] ∨ ∃ hdr pdu, WholeRequest f hdr pdu) :
    { w with upstream := w.upstream ++ frames.flatten }.Framed ∧
      { w with upstream := w.upstream ++ frames.flatten }.waits.Sublist (w.waits ++ frames.filterMap writeIn) := by
  obtain ⟨earlier, stream, before⟩ := framed
  -- a request that was not built has no bytes
  have built : ∀ f ∈ frames.filter (!·.isEmpty), ∃ hdr pdu, WholeRequest f hdr pdu := by
    intro f member
    obtain ⟨sent, filled⟩ := List.mem_filter.mp member
    rcases known f sent with rfl | whole
    · cases filled
    · exact whole
  have all := List.forall_mem_append.mpr ⟨before, built⟩
  have bytes : w.upstream ++ frames.flatten = (earlier ++ frames.filter (!·.isEmpty)).flatten := by
    rw [stream, List.flatten_append, List.flatten_filter_not_isEmpty]
  have read (fs : List (List UInt8)) : ((fs.filterMap mbapRequest).map requestOf).filterMap asWrite =
      fs.filterMap writeIn := by
    rw [List.filterMap_map, List.filterMap_filterMap]
    rfl
  refine ⟨⟨_, bytes, all⟩, ?_⟩
  rw [waits, waits]
  split
  · rw [bytes, stream, requestsIn_flatten all, requestsIn_flatten before, read, read, List.filterMap_append]
    exact (List.Sublist.refl _).append (List.filter_sublist.filterMap _)
  · exact List.nil_sublist _

end Turns
end Wire
end EnerSentry.App
