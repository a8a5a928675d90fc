import EnerSentry.Lib.Packing

/-!
The slave side: a register set per slave, and the dispatcher that answers the eight
function codes from it. Register and bit addresses are sixteen bits wide throughout, so
address arithmetic wraps.
-/

namespace EnerSentry.Sim
open EnerSentry.Lib.Packing

structure SlaveRegset where
  slaveId : UInt8 := 0
  holding : List UInt16 := []
  input : List UInt16 := []
  coils : List UInt8 := []
  discretes : List UInt8 := []
  alarmWord : UInt16 := 0
  deriving DecidableEq, Repr

namespace SlaveRegset

def getHolding (r : SlaveRegset) (reg : UInt16) : UInt16 := r.holding.getD reg.toNat 0

def setHolding (r : SlaveRegset) (reg v : UInt16) : SlaveRegset :=
  { r with holding := r.holding.set reg.toNat v }

def getInput (r : SlaveRegset) (reg : UInt16) : UInt16 := r.input.getD reg.toNat 0

end SlaveRegset

/-- A response without unit id, header and checksum; `exception` repeats the code of an
exception response. -/
structure DispatchResult where
  bytes : List UInt8 := []
  exception : Option UInt8 := none
  deriving DecidableEq, Repr

def be16 (pdu : List UInt8) (i : Nat) : UInt16 := join (pdu.getD i 0) (pdu.getD (i + 1) 0)

def appendU16BE (x : UInt16) : List UInt8 := [high x, low x]

def readCoil (bytes : List UInt8) (reg : UInt16) : Bool := bitAt bytes reg.toNat

def writeCoil (bytes : List UInt8) (reg : UInt16) (v : Bool) : List UInt8 :=
  bytes.modify (reg.toNat / 8) (fun b =>
    if v then b ||| UInt8.ofNat (1 <<< (reg.toNat % 8)) else b &&& ~~~UInt8.ofNat (1 <<< (reg.toNat % 8)))

def exceptionPdu (fc code : UInt8) : DispatchResult :=
  { bytes := [fc ||| 0x80, code], exception := some code }

/-- The first checks of a read: the length of the request, its quantity, its range. -/
def readChecked (fc : UInt8) (pdu : List UInt8) (limit size : Nat)
    (answer : UInt16 → UInt16 → List UInt8) : DispatchResult :=
  if pdu.length != 5 then exceptionPdu fc 0x03
  else
    let addr := be16 pdu 1
    let qty := be16 pdu 3
    if qty == 0 || limit < qty.toNat then exceptionPdu fc 0x03
    else if size < addr.toNat + qty.toNat then exceptionPdu fc 0x02
    else { bytes := fc :: answer addr qty }

def readBits (fc : UInt8) (pdu cells : List UInt8) : DispatchResult :=
  readChecked fc pdu 2000 (cells.length * 8) (fun addr qty =>
    UInt8.ofNat ((qty.toNat + 7) / 8) ::
      packBits (fun i => readCoil cells (addr + UInt16.ofNat i)) qty.toNat)

def readWords (fc : UInt8) (pdu : List UInt8) (size : Nat) (cell : UInt16 → UInt16) : DispatchResult :=
  readChecked fc pdu 125 size (fun addr qty =>
    UInt8.ofNat (qty.toNat * 2) ::
      (List.range qty.toNat).flatMap (fun i => appendU16BE (cell (addr + UInt16.ofNat i))))

def readCoils (regs : SlaveRegset) (pdu : List UInt8) : DispatchResult := readBits 0x01 pdu regs.coils

def readDiscretes (regs : SlaveRegset) (pdu : List UInt8) : DispatchResult := readBits 0x02 pdu regs.discretes

def readHolding (regs : SlaveRegset) (pdu : List UInt8) : DispatchResult :=
  readWords 0x03 pdu regs.holding.length regs.getHolding

def readInput (regs : SlaveRegset) (pdu : List UInt8) : DispatchResult :=
  readWords 0x04 pdu regs.input.length regs.getInput

def writeSingleCoil (regs : SlaveRegset) (pdu : List UInt8) : DispatchResult × SlaveRegset :=
  let addr := be16 pdu 1
  let val := be16 pdu 3
  if pdu.length != 5 || (val != 0xFF00 && val != 0x0000) then (exceptionPdu 0x05 0x03, regs)
  else if regs.coils.length * 8 ≤ addr.toNat then (exceptionPdu 0x05 0x02, regs)
  else ({ bytes := pdu.take 5 }, { regs with coils := writeCoil regs.coils addr (val == 0xFF00) })

def writeSingleRegister (regs : SlaveRegset) (pdu : List UInt8) : DispatchResult × SlaveRegset :=
  let addr := be16 pdu 1
  if pdu.length != 5 then (exceptionPdu 0x06 0x03, regs)
  else if regs.holding.length ≤ addr.toNat then (exceptionPdu 0x06 0x02, regs)
  else ({ bytes := pdu.take 5 }, regs.setHolding addr (be16 pdu 3))

/-- The checks and the answer of the two multiple writes; `change` stores the data. -/
def writeMultiple (fc : UInt8) (regs : SlaveRegset) (pdu : List UInt8) (limit size : Nat)
    (byteCountOf : Nat → Nat) (change : UInt16 → Nat → SlaveRegset) : DispatchResult × SlaveRegset :=
  let addr := be16 pdu 1
  let qty := be16 pdu 3
  let byteCount := (pdu.getD 5 0).toNat
  if pdu.length < 7 || qty == 0 || limit < qty.toNat || byteCount != byteCountOf qty.toNat ||
      6 + byteCount != pdu.length then (exceptionPdu fc 0x03, regs)
  else if size < addr.toNat + qty.toNat then (exceptionPdu fc 0x02, regs)
  else ({ bytes := fc :: (appendU16BE addr ++ appendU16BE qty) }, change addr qty.toNat)

def writeCoils (regs : SlaveRegset) (pdu : List UInt8) : DispatchResult × SlaveRegset :=
  writeMultiple 0x0F regs pdu 1968 (regs.coils.length * 8) (fun qty => (qty + 7) / 8) (fun addr qty =>
    { regs with coils := (List.range qty).foldl (fun coils i =>
        writeCoil coils (addr + UInt16.ofNat i) ((pdu.getD (6 + i / 8) 0).toNat.testBit (i % 8))) regs.coils })

def writeRegisters (regs : SlaveRegset) (pdu : List UInt8) : DispatchResult × SlaveRegset :=
  writeMultiple 0x10 regs pdu 123 regs.holding.length (fun qty => qty * 2) (fun addr qty =>
    (List.range qty).foldl (fun regs i =>
      regs.setHolding (addr + UInt16.ofNat i) (be16 pdu (6 + 2 * i))) regs)

/-- A request without unit id, header and checksum. Writes change the register set and
are refused where it is not writable. -/
def dispatchFull (regs : SlaveRegset) (pdu : List UInt8) (writable : Bool) : DispatchResult × SlaveRegset :=
  match pdu with
  | [] => (exceptionPdu 0xFF 0x01, regs)
  | fc :: _ =>
      if fc == 0x01 then (readCoils regs pdu, regs)
      else if fc == 0x02 then (readDiscretes regs pdu, regs)
      else if fc == 0x03 then (readHolding regs pdu, regs)
      else if fc == 0x04 then (readInput regs pdu, regs)
      else if fc == 0x05 && writable then writeSingleCoil regs pdu
      else if fc == 0x06 && writable then writeSingleRegister regs pdu
      else if fc == 0x0F && writable then writeCoils regs pdu
      else if fc == 0x10 && writable then writeRegisters regs pdu
      else (exceptionPdu fc 0x01, regs)

end EnerSentry.Sim
