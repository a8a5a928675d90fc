import EnerSentry.Protocol.Checksum
import EnerSentry.Sim.FaultInjector
import EnerSentry.Sim.RequestDecoding

/-!
The serial port of the simulator with its injected link faults. Bytes are collected until the line
has been silent, then taken as one frame. A response is written at once, or kept until its delay is
over. Every frame that is written without a fault of its checksum is accepted by the application.
-/

namespace EnerSentry.Sim
open EnerSentry.Lib EnerSentry.Lib.Packing EnerSentry.Protocol

variable {K : Type*} [Zero K]

structure RtuSlavePort where
  rxBuf : List UInt8 := []
  pendingResp : List UInt8 := []
  deriving DecidableEq, Repr

/-- `injector` is the port's fault injector as it stands when the frame is handled, if it has one. -/
inductive RtuPortEvent (K : Type*) [Zero K] where
  | readyRead (data : List UInt8)
  | frameTimeout (injector : Option (FaultInjector K))
  | sendDelayTimeout

/-- One byte inverted. -/
def invertAt (bytes : List UInt8) (i : Nat) : List UInt8 := bytes.set i (bytes.getD i 0 ^^^ 0xFF)

namespace RtuSlavePort

def effectOn (injector : Option (FaultInjector K)) (unitId : UInt8) : FaultEffect K :=
  match injector with
  | some fi => fi.linkEffect unitId
  | none => {}

/-- A response frame as it goes on the line. -/
def respond (eff : FaultEffect K) (unitId : UInt8) (respPdu : List UInt8) : List UInt8 :=
  let respPdu := if eff.active && eff.corruptByte && decide (3 < respPdu.length) then invertAt respPdu 3 else respPdu
  let resp := unitId :: respPdu
  let resp := resp ++ [low (Sim.crc16Modbus resp), high (Sim.crc16Modbus resp)]
  if eff.active && eff.corruptCrc then invertAt resp (resp.length - 2) else resp

variable (handler : RequestHandler)

def processFrame (port : RtuSlavePort) (injector : Option (FaultInjector K)) (frame : List UInt8) :
    RtuSlavePort × List (List UInt8) :=
  let n := frame.length
  if n < 4 then (port, [])
  else if Sim.crc16Modbus (frame.take (n - 2)) != join (frame.getD (n - 1) 0) (frame.getD (n - 2) 0) then (port, [])
  else
    let unitId := frame.getD 0 0
    let respPdu := handler unitId ((frame.drop 1).take (n - 3))
    if respPdu.isEmpty then (port, [])
    else
      let eff := effectOn injector unitId
      if eff.active && eff.dropLink then (port, [])
      else
        let resp := respond eff unitId respPdu
        if eff.active && decide (0 < eff.delayMs) then ({ port with pendingResp := resp }, []) else (port, [resp])

def step (port : RtuSlavePort) : RtuPortEvent K → RtuSlavePort × List (List UInt8)
  | .readyRead data => ({ port with rxBuf := port.rxBuf ++ data }, [])
  | .frameTimeout injector =>
      if port.rxBuf.isEmpty then (port, []) else processFrame handler { port with rxBuf := [] } injector port.rxBuf
  | .sendDelayTimeout =>
      if port.pendingResp.isEmpty then (port, []) else ({ port with pendingResp := [] }, [port.pendingResp])

/-- No fault of the checksum is on the link of the unit whose frame is handled. -/
def CrcFaultFree (port : RtuSlavePort) : RtuPortEvent K → Prop
  | .frameTimeout injector => (effectOn injector (port.rxBuf.getD 0 0)).corruptCrc = false
  | _ => True

section Frames
variable {handler} {port : RtuSlavePort} {eff : FaultEffect K} {unitId : UInt8} {respPdu frame : List UInt8}
  {injector : Option (FaultInjector K)}

@[simp] theorem length_invertAt (bytes : List UInt8) (i : Nat) : (invertAt bytes i).length = bytes.length :=
  List.length_set

/-- Where no injector is set, the port answers as one without faults. -/
theorem processFrame_none : processFrame handler port (none : Option (FaultInjector K)) frame =
    (port, (Sim.processFrame handler frame).toList) := by
  simp only [processFrame, Sim.processFrame, effectOn, respond, Bool.false_and, Bool.false_eq_true, if_false]
  split
  · rfl
  · split
    · rfl
    · split <;> rfl

theorem respond_sound (unitId : UInt8) (sound : eff.corruptCrc = false) (filled : respPdu ≠ []) :
    ∃ pdu, pdu ≠ [] ∧ respond eff unitId respPdu = withCrc (unitId :: pdu) := by
  refine ⟨if eff.active && eff.corruptByte && decide (3 < respPdu.length) then invertAt respPdu 3 else respPdu,
    ?_, ?_⟩
  · split
    · rw [← List.length_pos_iff, length_invertAt]
      exact List.length_pos_iff.mpr filled
    · exact filled
  · rw [respond, sound, Bool.and_false, if_neg Bool.false_ne_true]
    rfl

theorem verify_respond (sound : eff.corruptCrc = false) (filled : respPdu ≠ []) :
    crc16ModbusVerify (respond eff unitId respPdu) = true := by
  obtain ⟨pdu, some, same⟩ := respond_sound unitId sound filled
  rw [same]
  apply verify_withCrc
  rw [List.length_cons]
  exact Nat.succ_le_succ (List.length_pos_iff.mpr some)

theorem inverted_ne (byte : UInt8) : byte ^^^ 0xFF ≠ byte := by
  intro same
  have zero : (0xFF : UInt8) = 0 := UInt8.xor_right_inj byte |>.mp (by rw [same, UInt8.xor_zero])
  exact absurd zero (by decide)

/-- An inverted checksum is never accepted. -/
theorem refuse_respond (active : eff.active = true) (corrupt : eff.corruptCrc = true) :
    crc16ModbusVerify (respond eff unitId respPdu) = false := by
  obtain ⟨body, same⟩ : ∃ body, respond eff unitId respPdu = invertAt (withCrc body) body.length := by
    refine ⟨unitId :: if eff.active && eff.corruptByte && decide (3 < respPdu.length) then invertAt respPdu 3
      else respPdu, ?_⟩
    rw [respond, active, corrupt]
    simp [withCrc, crc16Modbus_eq]
  have inverted : invertAt (withCrc body) body.length =
      body ++ [low (Protocol.crc16Modbus body) ^^^ 0xFF, high (Protocol.crc16Modbus body)] := by
    simp [invertAt, withCrc]
  rw [same, inverted]
  by_cases short : body.length + 2 < 4
  · rw [crc16ModbusVerify, if_pos (by simpa using short)]
  · rw [crc16ModbusVerify, if_neg (by simpa using short)]
    apply beq_eq_false_iff_ne.mpr
    intro accepted
    have recovered := congrArg low accepted
    simp at recovered
    exact inverted_ne _ recovered.symm

/-- What handling a frame can do: nothing, or one response that is written or kept. -/
theorem processFrame_cases (handler : RequestHandler) (port : RtuSlavePort) (injector : Option (FaultInjector K))
    (frame : List UInt8) : processFrame handler port injector frame = (port, []) ∨
    ∃ respPdu ≠ [], ∃ resp, resp = respond (effectOn injector (frame.getD 0 0)) (frame.getD 0 0) respPdu ∧
      (processFrame handler port injector frame = ({ port with pendingResp := resp }, []) ∨
        processFrame handler port injector frame = (port, [resp])) := by
  simp only [processFrame]
  split
  · exact Or.inl rfl
  · split
    · exact Or.inl rfl
    · split
      · exact Or.inl rfl
      · rename_i answered
        split
        · exact Or.inl rfl
        · have filled := List.isEmpty_eq_false_iff.mp (Bool.not_eq_true _ ▸ answered)
          refine Or.inr ⟨_, filled, _, rfl, ?_⟩
          split
          · exact Or.inl rfl
          · exact Or.inr rfl

/-- The response that waits, if one does, has the right checksum. -/
def Sound (port : RtuSlavePort) : Prop :=
  port.pendingResp ≠ [] → crc16ModbusVerify port.pendingResp = true

theorem sound_step {e : RtuPortEvent K} (sound : port.Sound) (clean : port.CrcFaultFree e) :
    (step handler port e).1.Sound ∧ ∀ resp ∈ (step handler port e).2, crc16ModbusVerify resp = true := by
  cases e with
  | readyRead data => exact ⟨sound, fun _ none => by cases none⟩
  | frameTimeout injector =>
    simp only [step]
    split
    · exact ⟨sound, fun _ none => by cases none⟩
    · have kept : Sound { port with rxBuf := [] } := sound
      obtain silent | ⟨respPdu, filled, resp, same, delayed | written⟩ :=
        processFrame_cases handler { port with rxBuf := [] } injector port.rxBuf
      · rw [silent]
        exact ⟨kept, fun _ none => by cases none⟩
      · rw [delayed]
        refine ⟨fun _ => ?_, fun _ none => by cases none⟩
        rw [same]
        exact verify_respond clean filled
      · rw [written]
        refine ⟨kept, fun frame here => ?_⟩
        rw [List.mem_singleton.mp here, same]
        exact verify_respond clean filled
  | sendDelayTimeout =>
    simp only [step]
    split
    · exact ⟨sound, fun _ none => by cases none⟩
    · rename_i waiting
      refine ⟨fun filled => absurd rfl filled, fun frame here => ?_⟩
      rw [List.mem_singleton.mp here]
      exact sound (by simpa using waiting)

/-- In a run without faults of the checksum every frame that is written is accepted. -/
theorem verify_outputs (handler : RequestHandler) (es : List (RtuPortEvent K))
    (clean : ∀ v ∈ Runs.visits (step handler) {} es, v.1.CrcFaultFree v.2) :
    ∀ frame ∈ Runs.outputs (step handler) {} es, crc16ModbusVerify frame = true := by
  intro frame written
  obtain ⟨v, visited, here⟩ := Runs.mem_outputs_iff.mp written
  have sound := Runs.reached_invariant (step handler) es (s := {}) (I := Sound) (A := CrcFaultFree)
    (fun filled => absurd rfl filled) (fun _ _ sound clean => (sound_step sound clean).1) clean
  exact (sound_step (sound _ (Runs.visit_mem_reached visited).1) (clean v visited)).2 frame here

end Frames

end RtuSlavePort

theorem requestPdu_filled {req : ModbusRequest} {pdu : List UInt8} (built : requestPdu req = some pdu) : pdu ≠ [] := by
  rintro rfl
  simp only [requestPdu] at built
  repeat' split at built
  all_goals simp at built

/-- A serial request that is built is taken by the port. -/
theorem isSome_rtuRequest_built {req : ModbusRequest} (rtu : req.transport = .rtu) (built : buildRequest req ≠ []) :
    (rtuRequest (buildRequest req)).isSome = true := by
  obtain ⟨pdu, encoded, frame⟩ := built_frame built
  have filled := requestPdu_filled encoded
  rw [frame, rtu, rtuRequest_framed req.slaveAddress filled]
  rfl

/-- The checksums of both ends and of the ring agree on every string, and each end accepts the
serial frames of the other. -/
theorem crc_dialects_agree (K : Type*) [Zero K] :
    (∀ data, Sim.crc16Modbus data = Protocol.crc16Modbus data ∧ crcBitwise data = Protocol.crc16Modbus data) ∧
    (∀ (a : ModbusStreamAccumulator) (n : Nat), 4 ≤ n →
      a.crcValid n = crc16ModbusVerify ((List.range n).map a.peek)) ∧
    (∀ req : ModbusRequest, req.transport = .rtu → buildRequest req ≠ [] →
      (rtuRequest (buildRequest req)).isSome = true) ∧
    (∀ (handler : RequestHandler) (es : List (RtuPortEvent K)),
      (∀ v ∈ Runs.visits (RtuSlavePort.step handler) {} es, v.1.CrcFaultFree v.2) →
        ∀ frame ∈ Runs.outputs (RtuSlavePort.step handler) {} es, crc16ModbusVerify frame = true) := by
  refine ⟨fun data => ⟨crc16Modbus_eq data, crcBitwise_eq data⟩, ?_, ?_, ?_⟩
  · exact fun a n long => ModbusStreamAccumulator.crcValid_iff_verify long
  · exact fun req rtu built => isSome_rtuRequest_built rtu built
  · exact fun handler es clean => RtuSlavePort.verify_outputs handler es clean

/-- One register of slave 1 is asked for and answered. -/
theorem crc_dialects_agree_read :
    (ModbusStreamAccumulator.append {} [1, 3, 2, 0, 42, 57, 155]).crcValid 7 = true ∧
    (rtuRequest (buildRequest ⟨.rtu, 0, 1, 0x03, 0, 1, [], []⟩)).isSome = true ∧
    ∀ frame ∈ Runs.outputs (RtuSlavePort.step (K := Int) fun _ _ => [3, 2, 0, 42]) {}
      [.readyRead (buildRequest ⟨.rtu, 0, 1, 0x03, 0, 1, [], []⟩), .frameTimeout none],
      crc16ModbusVerify frame = true := by
  obtain ⟨-, ring, requests, responses⟩ := crc_dialects_agree Int
  refine ⟨(ring _ 7 (by decide)).trans (by decide +kernel), requests _ rfl (by decide +kernel), responses _ _ ?_⟩
  intro v visited
  rcases List.mem_cons.mp visited with rfl | later
  · trivial
  · rw [List.mem_singleton.mp later]
    rfl

end EnerSentry.Sim
