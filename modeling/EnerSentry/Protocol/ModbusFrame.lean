import EnerSentry.Lib.Packing

/-!
Modbus frames of the application: requests are built, and complete response frames are
parsed, over serial lines (CRC at the end) and over TCP (MBAP header in front).
-/

namespace EnerSentry.Protocol
open EnerSentry.Lib.Packing

section Crc

def crc16Shift (crc : UInt16) : UInt16 :=
  if crc &&& 0x0001 != 0 then (crc >>> 1) ^^^ 0xA001 else crc >>> 1

def crc16ModbusEntry (index : UInt8) : UInt16 := Nat.repeat crc16Shift 8 index.toUInt16

def crc16ModbusTable : List UInt16 := (List.range 256).map (fun i => crc16ModbusEntry (UInt8.ofNat i))

def crc16Modbus (data : List UInt8) : UInt16 :=
  data.foldl (fun crc byte =>
    (crc >>> 8) ^^^ crc16ModbusTable.getD ((crc ^^^ byte.toUInt16) &&& 0xFF).toNat 0) 0xFFFF

/-- The CRC stands at the end of a frame, low byte first. -/
def crc16ModbusVerify (frame : List UInt8) : Bool :=
  if frame.length < 4 then false
  else crc16Modbus (frame.take (frame.length - 2)) ==
    join (frame.getD (frame.length - 1) 0) (frame.getD (frame.length - 2) 0)

end Crc

inductive Transport where
  | rtu
  | tcp
  deriving DecidableEq, Repr

structure ModbusRequest where
  transport : Transport := .rtu
  transactionId : UInt16 := 0
  slaveAddress : UInt8 := 0
  functionCode : UInt8 := 0
  startingAddress : UInt16 := 0
  quantity : UInt16 := 0
  registerValues : List UInt16 := []
  coilBytes : List UInt8 := []
  deriving DecidableEq, Repr

structure ModbusResponse where
  transport : Transport := .rtu
  transactionId : UInt16 := 0
  slaveAddress : UInt8 := 0
  functionCode : UInt8 := 0
  isException : Bool := false
  exceptionCode : UInt8 := 0
  registerValues : List UInt16 := []
  coilBytes : List UInt8 := []
  deriving DecidableEq, Repr

def writeU16BE (x : UInt16) : List UInt8 := [high x, low x]

def readU16BE (buf : List UInt8) (i : Nat) : UInt16 := join (buf.getD i 0) (buf.getD (i + 1) 0)

def isReadCode (fc : UInt8) : Bool := fc == 0x01 || fc == 0x02 || fc == 0x03 || fc == 0x04

def appendMbap (tid : UInt16) (unitId : UInt8) (pduLenPlusUnit : UInt16) : List UInt8 :=
  writeU16BE tid ++ writeU16BE 0x0000 ++ writeU16BE pduLenPlusUnit ++ [unitId]

/-- The function code and data of a request; `none` for a request that is refused. -/
def requestPdu (req : ModbusRequest) : Option (List UInt8) :=
  let head := req.functionCode :: writeU16BE req.startingAddress
  if isReadCode req.functionCode then
    if req.quantity == 0 then none else some (head ++ writeU16BE req.quantity)
  else if req.functionCode == 0x05 then
    match req.registerValues with
    | [v] => if v != 0x0000 && v != 0xFF00 then none else some (head ++ writeU16BE v)
    | _ => none
  else if req.functionCode == 0x06 then
    match req.registerValues with
    | [v] => some (head ++ writeU16BE v)
    | _ => none
  else if req.functionCode == 0x0F then
    let expectedBytes := (req.quantity.toNat + 7) / 8
    if req.quantity == 0 || req.coilBytes.isEmpty then none
    else if req.coilBytes.length != expectedBytes then none
    else some (head ++ writeU16BE req.quantity ++ [UInt8.ofNat expectedBytes] ++ req.coilBytes)
  else if req.functionCode == 0x10 then
    if req.quantity == 0 || req.registerValues.isEmpty then none
    else if req.registerValues.length != req.quantity.toNat then none
    else some (head ++ writeU16BE req.quantity ++ [UInt8.ofNat (req.quantity.toNat * 2)] ++
      bytesOf req.registerValues)
  else none

/-- The CRC follows the bytes it covers, low byte first. -/
def withCrc (body : List UInt8) : List UInt8 :=
  body ++ [low (crc16Modbus body), high (crc16Modbus body)]

theorem length_withCrc (body : List UInt8) : (withCrc body).length = body.length + 2 := by
  simp [withCrc]

theorem verify_withCrc {body : List UInt8} (long : 2 ≤ body.length) : crc16ModbusVerify (withCrc body) = true := by
  have last : (withCrc body).getD (body.length + 1) 0 = high (crc16Modbus body) := by
    simp [withCrc]
  have beforeLast : (withCrc body).getD body.length 0 = low (crc16Modbus body) := by
    simp [withCrc]
  have covered : (withCrc body).take body.length = body := by
    simp [withCrc]
  unfold crc16ModbusVerify
  rw [if_neg (by rw [length_withCrc]; omega), length_withCrc, Nat.add_sub_cancel, covered,
    show body.length + 2 - 1 = body.length + 1 from rfl, last, beforeLast, join_high_low]
  exact beq_self_eq_true _

/-- The bytes of a request, or nothing for one that is refused. -/
def buildRequest (req : ModbusRequest) : List UInt8 :=
  if req.slaveAddress < 1 || 247 < req.slaveAddress then []
  else
    match requestPdu req with
    | none => []
    | some pdu =>
        match req.transport with
        | .tcp => appendMbap req.transactionId req.slaveAddress (UInt16.ofNat (1 + pdu.length)) ++ pdu
        | .rtu => withCrc (req.slaveAddress :: pdu)

/-- The data of a read response: packed bits as they are, registers as words. -/
def readData (resp : ModbusResponse) (byteCount : Nat) (data : List UInt8) : Option ModbusResponse :=
  if resp.functionCode == 0x01 || resp.functionCode == 0x02 then some { resp with coilBytes := data }
  else if byteCount % 2 != 0 then none
  else some { resp with registerValues := wordsOf data }

def parseTcpResponse (buf : List UInt8) : Option ModbusResponse :=
  if buf.length < 8 then none
  else
    let mbapLen := (readU16BE buf 4).toNat
    if readU16BE buf 2 != 0x0000 then none
    else if mbapLen < 2 || buf.length < 6 + mbapLen then none
    else
      let resp : ModbusResponse :=
        { transport := .tcp, transactionId := readU16BE buf 0, slaveAddress := buf.getD 6 0,
          functionCode := buf.getD 7 0 }
      if resp.functionCode &&& 0x80 != 0 then
        if mbapLen != 3 then none
        else some { resp with isException := true, exceptionCode := buf.getD 8 0 }
      else if isReadCode resp.functionCode then
        let byteCount := (buf.getD 8 0).toNat
        if mbapLen < 3 || 3 + byteCount != mbapLen then none
        else readData resp byteCount ((buf.drop 9).take byteCount)
      else if resp.functionCode == 0x05 || resp.functionCode == 0x06 then
        if mbapLen != 6 then none else some { resp with registerValues := [readU16BE buf 8] }
      else if resp.functionCode == 0x0F || resp.functionCode == 0x10 then
        if mbapLen != 6 then none else some resp
      else none

def parseRtuResponse (buf : List UInt8) : Option ModbusResponse :=
  if buf.length < 4 || !crc16ModbusVerify buf then none
  else
    let resp : ModbusResponse :=
      { transport := .rtu, slaveAddress := buf.getD 0 0, functionCode := buf.getD 1 0 }
    if resp.functionCode &&& 0x80 != 0 then
      if buf.length != 5 then none
      else some { resp with isException := true, exceptionCode := buf.getD 2 0 }
    else if isReadCode resp.functionCode then
      let byteCount := (buf.getD 2 0).toNat
      if buf.length < 5 || 5 + byteCount != buf.length then none
      else readData resp byteCount ((buf.drop 3).take byteCount)
    else if resp.functionCode == 0x05 || resp.functionCode == 0x06 then
      if buf.length != 8 then none else some { resp with registerValues := [readU16BE buf 4] }
    else if resp.functionCode == 0x0F || resp.functionCode == 0x10 then
      if buf.length != 8 then none else some resp
    else none

/-- A frame of unknown transport is tried over TCP first. -/
def parseResponse (buf : List UInt8) : Option ModbusResponse :=
  if buf.length < 4 then none
  else
    match parseTcpResponse buf with
    | some r => some r
    | none => parseRtuResponse buf

end EnerSentry.Protocol
