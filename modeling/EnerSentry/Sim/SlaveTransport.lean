import EnerSentry.Sim.ModbusDispatch

/-!
What the two slave transports put round a request handler: the MBAP header of the TCP
server and the address and CRC of the serial port. Each answers one complete request, with
no injected link fault.
-/

namespace EnerSentry.Sim
open EnerSentry.Lib.Packing

section Crc

def crc16Step (crc : UInt16) : UInt16 :=
  if crc &&& 0x0001 != 0 then (crc >>> 1) ^^^ 0xA001 else crc >>> 1

def tableEntry (index : UInt8) : UInt16 := Nat.repeat crc16Step 8 index.toUInt16

def crcTable : List UInt16 := (List.range 256).map (fun i => tableEntry (UInt8.ofNat i))

def crc16Modbus (data : List UInt8) : UInt16 :=
  data.foldl (fun crc byte =>
    (crc >>> 8) ^^^ crcTable.getD ((crc ^^^ byte.toUInt16) &&& 0xFF).toNat 0) 0xFFFF

end Crc

structure MbapHeader where
  transactionId : UInt16
  protocolId : UInt16 := 0
  length : UInt16
  unitId : UInt8
  deriving DecidableEq, Repr

def parseMbap (p : List UInt8) : Option MbapHeader :=
  if p.length < 7 then none
  else if be16 p 2 != 0 then none
  else some { transactionId := be16 p 0, protocolId := be16 p 2, length := be16 p 4, unitId := p.getD 6 0 }

def emitMbap (h : MbapHeader) : List UInt8 :=
  [high h.transactionId, low h.transactionId, high h.protocolId, low h.protocolId, high h.length, low h.length,
    h.unitId]

/-- A unit id and a request to a response, both without framing; empty for none. -/
abbrev RequestHandler := UInt8 → List UInt8 → List UInt8

/-- One turn of the client loop: `received` is what the connection delivers. -/
def clientLoop (handler : RequestHandler) (received : List UInt8) : Option (List UInt8) :=
  match parseMbap (received.take 7) with
  | none => none
  | some hdr =>
      if hdr.length < 2 || 255 < hdr.length.toNat - 1 then none
      else
        let pdu := (received.drop 7).take (hdr.length.toNat - 1)
        if pdu.length != hdr.length.toNat - 1 then none
        else
          let respPdu := handler hdr.unitId pdu
          let resp : MbapHeader :=
            { transactionId := hdr.transactionId, length := UInt16.ofNat (respPdu.length + 1), unitId := hdr.unitId }
          if respPdu.isEmpty then none else some (emitMbap resp ++ respPdu)

def processFrame (handler : RequestHandler) (frame : List UInt8) : Option (List UInt8) :=
  let n := frame.length
  if n < 4 then none
  else if crc16Modbus (frame.take (n - 2)) != join (frame.getD (n - 1) 0) (frame.getD (n - 2) 0) then none
  else
    let respPdu := handler (frame.getD 0 0) ((frame.drop 1).take (n - 3))
    if respPdu.isEmpty then none
    else
      let resp := frame.getD 0 0 :: respPdu
      some (resp ++ [low (crc16Modbus resp), high (crc16Modbus resp)])

section Requests

/-- The header and the request that a TCP connection delivers. -/
def mbapRequest (received : List UInt8) : Option (MbapHeader × List UInt8) :=
  match parseMbap (received.take 7) with
  | none => none
  | some hdr =>
      if hdr.length < 2 || 255 < hdr.length.toNat - 1 then none
      else
        let pdu := (received.drop 7).take (hdr.length.toNat - 1)
        if pdu.length != hdr.length.toNat - 1 then none else some (hdr, pdu)

/-- The unit id and the request of a serial frame. -/
def rtuRequest (frame : List UInt8) : Option (UInt8 × List UInt8) :=
  let n := frame.length
  if n < 4 then none
  else if crc16Modbus (frame.take (n - 2)) != join (frame.getD (n - 1) 0) (frame.getD (n - 2) 0) then none
  else some (frame.getD 0 0, (frame.drop 1).take (n - 3))

variable (handler : RequestHandler)

theorem clientLoop_eq (received : List UInt8) : clientLoop handler received = (mbapRequest received).bind (fun r =>
    if (handler r.1.unitId r.2).isEmpty then none
    else some (emitMbap ⟨r.1.transactionId, 0, UInt16.ofNat ((handler r.1.unitId r.2).length + 1), r.1.unitId⟩ ++
      handler r.1.unitId r.2)) := by
  unfold clientLoop mbapRequest
  cases parseMbap (received.take 7) with
  | none => rfl
  | some hdr =>
    simp only
    split
    · rfl
    · split <;> rfl

theorem processFrame_eq (frame : List UInt8) : processFrame handler frame = (rtuRequest frame).bind (fun r =>
    if (handler r.1 r.2).isEmpty then none
    else
      let resp := r.1 :: handler r.1 r.2
      some (resp ++ [low (crc16Modbus resp), high (crc16Modbus resp)])) := by
  unfold processFrame rtuRequest
  simp only
  split
  · rfl
  · split <;> rfl

end Requests

end EnerSentry.Sim
