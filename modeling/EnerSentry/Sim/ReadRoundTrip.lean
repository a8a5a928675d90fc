import EnerSentry.Protocol.ModbusFrame
import EnerSentry.Sim.SlaveTransport

/-!
A read request of the application, served by the simulator and parsed by the application.
The dispatcher compares the range with the vector in full width and then reads cell after
cell through a sixteen-bit address, so the round trip is exact unless a range runs past
address 65535.
-/

namespace EnerSentry.Sim
open EnerSentry.Lib.Packing EnerSentry.Protocol

/-- The cells a read addresses: packed bits or registers. -/
inductive Area where
  | bits (cells : List UInt8)
  | words (cells : List UInt16)

namespace Area

def size : Area → Nat
  | bits cells => cells.length * 8
  | words cells => cells.length

def limit : Area → Nat
  | bits _ => 2000
  | words _ => 125

/-- The response has the cells of `qty` addresses from `addr` on, in order, and no others. -/
def Carries (area : Area) (addr qty : Nat) (resp : ModbusResponse) : Prop :=
  match area with
  | bits cells => resp.registerValues = [] ∧ resp.coilBytes.length = (qty + 7) / 8 ∧
      ∀ i, bitAt resp.coilBytes i = (decide (i < qty) && bitAt cells (addr + i))
  | words cells => resp.coilBytes = [] ∧ resp.registerValues = (cells.drop addr).take qty

/-- Every addressed cell is also found at its address cut to sixteen bits. -/
def Unwrapped (area : Area) (addr qty : Nat) : Prop :=
  match area with
  | bits cells => ∀ i < qty, bitAt cells ((addr + i) % 65536) = bitAt cells (addr + i)
  | words cells => ∀ i < qty, cells.getD ((addr + i) % 65536) 0 = cells.getD (addr + i) 0

end Area

/-- The vector a function code reads. -/
def area (regs : SlaveRegset) (fc : UInt8) : Area :=
  if fc == 0x01 then .bits regs.coils
  else if fc == 0x02 then .bits regs.discretes
  else if fc == 0x03 then .words regs.holding
  else .words regs.input

/-- One exchange of the application with a slave that has these registers. -/
def exchange (regs : SlaveRegset) (req : ModbusRequest) : Option ModbusResponse :=
  let handler : RequestHandler := fun _ pdu => (dispatchFull regs pdu false).1.bytes
  match req.transport with
  | .tcp => (clientLoop handler (buildRequest req)).bind parseTcpResponse
  | .rtu => (processFrame handler (buildRequest req)).bind parseRtuResponse

/-- A response names the request it answers; the serial line has no transaction ids. -/
structure Echoes (req : ModbusRequest) (resp : ModbusResponse) : Prop where
  transport : resp.transport = req.transport
  slaveAddress : resp.slaveAddress = req.slaveAddress
  transactionId : resp.transactionId = if req.transport = .tcp then req.transactionId else 0

/-- The whole range of a request lies in the vector it addresses. -/
def Inside (regs : SlaveRegset) (req : ModbusRequest) : Prop :=
  req.startingAddress.toNat + req.quantity.toNat ≤ (area regs req.functionCode).size

/-- A read inside the vector brings its cells, one that leaves it brings an exception. -/
structure RoundTrips (regs : SlaveRegset) (req : ModbusRequest) : Prop where
  data : Inside regs req → req.quantity.toNat ≤ (area regs req.functionCode).limit →
    ∃ resp, exchange regs req = some resp ∧ Echoes req resp ∧ resp.functionCode = req.functionCode ∧
      resp.isException = false ∧
      (area regs req.functionCode).Carries req.startingAddress.toNat req.quantity.toNat resp
  exception : ¬Inside regs req →
    ∃ resp, exchange regs req = some resp ∧ Echoes req resp ∧
      resp.functionCode = req.functionCode ||| 0x80 ∧ resp.isException = true ∧
      resp.registerValues = [] ∧ resp.coilBytes = []

section Framing

theorem readCode_cases {fc : UInt8} (read : isReadCode fc = true) :
    fc = 0x01 ∨ fc = 0x02 ∨ fc = 0x03 ∨ fc = 0x04 := by
  simpa [isReadCode, or_assoc] using read

/-- What the application makes of a response that a slave sends back. -/
def parseReply (transport : Transport) (tid : UInt16) (unitId : UInt8) (pdu : List UInt8) :
    Option ModbusResponse :=
  match transport with
  | .tcp => parseTcpResponse
      (emitMbap { transactionId := tid, length := UInt16.ofNat (pdu.length + 1), unitId := unitId } ++ pdu)
  | .rtu => parseRtuResponse (withCrc (unitId :: pdu))

/-- The response before its data are read. -/
def replyHead (transport : Transport) (tid : UInt16) (unitId fc : UInt8) : ModbusResponse :=
  { transport := transport, transactionId := if transport = .tcp then tid else 0, slaveAddress := unitId,
    functionCode := fc }

theorem crc16Modbus_eq (data : List UInt8) : Sim.crc16Modbus data = Protocol.crc16Modbus data := rfl

/-- An exception response is parsed as what it is. -/
theorem parseReply_exception (transport : Transport) (tid : UInt16) (unitId fc code : UInt8)
    (flagged : fc &&& 0x80 ≠ 0) : parseReply transport tid unitId [fc, code] =
      some { replyHead transport tid unitId fc with isException := true, exceptionCode := code } := by
  cases transport with
  | tcp => simp [parseReply, parseTcpResponse, emitMbap, readU16BE, replyHead, flagged]
  | rtu =>
    have checked : crc16ModbusVerify (withCrc [unitId, fc, code]) = true := verify_withCrc (by simp)
    simp only [parseReply, parseRtuResponse, checked, length_withCrc]
    simp [withCrc, flagged, replyHead]

/-- The data of a read response come through both framings unchanged. -/
theorem parseReply_data (transport : Transport) (tid : UInt16) (unitId fc : UInt8) (data : List UInt8)
    (read : isReadCode fc = true) (short : data.length < 256) :
    parseReply transport tid unitId (fc :: UInt8.ofNat data.length :: data) =
      readData (replyHead transport tid unitId fc) data.length data := by
  have plain : fc &&& 0x80 = 0 := by
    rcases readCode_cases read with rfl | rfl | rfl | rfl <;> decide
  have counted : (UInt8.ofNat data.length).toNat = data.length := by
    rw [UInt8.toNat_ofNat']
    exact Nat.mod_eq_of_lt short
  cases transport with
  | tcp =>
    have length : (UInt16.ofNat (data.length + 1 + 1 + 1)).toNat = data.length + 3 := by
      rw [UInt16.toNat_ofNat']
      exact Nat.mod_eq_of_lt (by omega)
    simp only [parseReply, parseTcpResponse, emitMbap, readU16BE, List.cons_append, List.nil_append,
      List.length_cons, List.getD_cons_succ, List.getD_cons_zero, join_high_low, length, counted, plain, read]
    rw [if_neg (by omega), if_neg (by decide), if_neg (by simp; omega), if_neg (by decide), if_pos trivial,
      if_neg (by simp; omega)]
    simp [replyHead]
  | rtu =>
    have checked : crc16ModbusVerify (withCrc (unitId :: fc :: UInt8.ofNat data.length :: data)) = true :=
      verify_withCrc (by simp)
    have body : withCrc (unitId :: fc :: UInt8.ofNat data.length :: data) =
        unitId :: fc :: UInt8.ofNat data.length ::
          (data ++ [low (Protocol.crc16Modbus (unitId :: fc :: UInt8.ofNat data.length :: data)),
            high (Protocol.crc16Modbus (unitId :: fc :: UInt8.ofNat data.length :: data))]) := rfl
    simp only [parseReply, parseRtuResponse, checked]
    rw [body]
    simp only [List.length_cons, List.length_append, List.length_nil, List.getD_cons_succ, List.getD_cons_zero,
      counted, plain, read]
    rw [if_neg (by simp), if_neg (by decide), if_pos trivial, if_neg (by simp; omega)]
    simp [replyHead]

/-- A TCP request of at most 255 bytes arrives as it was sent. -/
theorem mbapRequest_framed (tid : UInt16) (unitId : UInt8) {pdu : List UInt8} (filled : pdu ≠ [])
    (short : pdu.length ≤ 255) : mbapRequest (appendMbap tid unitId (UInt16.ofNat (1 + pdu.length)) ++ pdu) =
      some (⟨tid, 0, UInt16.ofNat (1 + pdu.length), unitId⟩, pdu) := by
  have length : (UInt16.ofNat (1 + pdu.length)).toNat = 1 + pdu.length := by
    rw [UInt16.toNat_ofNat']
    exact Nat.mod_eq_of_lt (by omega)
  have one := List.length_pos_iff.mpr filled
  have header : parseMbap ((appendMbap tid unitId (UInt16.ofNat (1 + pdu.length)) ++ pdu).take 7) =
      some { transactionId := tid, length := UInt16.ofNat (1 + pdu.length), unitId := unitId } := by
    simp [appendMbap, writeU16BE, parseMbap, be16]
  have long : ¬(UInt16.ofNat (1 + pdu.length) < 2) := by
    rw [UInt16.lt_iff_toNat_lt, length]
    simp
    omega
  have payload : ((appendMbap tid unitId (UInt16.ofNat (1 + pdu.length)) ++ pdu).drop 7).take
      ((UInt16.ofNat (1 + pdu.length)).toNat - 1) = pdu := by
    rw [length, Nat.add_sub_cancel_left]
    simp [appendMbap, writeU16BE]
  have admitted : ¬((decide (UInt16.ofNat (1 + pdu.length) < 2) ||
      decide (255 < (UInt16.ofNat (1 + pdu.length)).toNat - 1)) = true) := by
    rw [Bool.or_eq_true, decide_eq_true_iff, decide_eq_true_iff, length]
    exact not_or.mpr ⟨long, by omega⟩
  have complete : ¬((pdu.length != (UInt16.ofNat (1 + pdu.length)).toNat - 1) = true) := by
    rw [length, Nat.add_sub_cancel_left]
    simp
  simp only [mbapRequest, header, payload]
  rw [if_neg admitted, if_neg complete]

/-- So does a serial request, whose checksum holds. -/
theorem rtuRequest_framed (unitId : UInt8) {pdu : List UInt8} (filled : pdu ≠ []) :
    rtuRequest (withCrc (unitId :: pdu)) = some (unitId, pdu) := by
  have one := List.length_pos_iff.mpr filled
  have long : 2 ≤ (unitId :: pdu).length := by
    rw [List.length_cons]
    omega
  have verified := verify_withCrc long
  have size : (withCrc (unitId :: pdu)).length = pdu.length + 3 := by
    rw [length_withCrc, List.length_cons]
  have first : (withCrc (unitId :: pdu)).getD 0 0 = unitId := rfl
  have payload : ((withCrc (unitId :: pdu)).drop 1).take (pdu.length + 3 - 3) = pdu := by
    simp [withCrc]
  simp only [crc16ModbusVerify, size, if_neg (show ¬(pdu.length + 3 < 4) by omega)] at verified
  simp only [rtuRequest, size, first, payload, crc16Modbus_eq]
  rw [if_neg (by omega), if_neg (by simpa using verified)]

/-- The TCP server hands its handler the unit id and request it was sent. -/
theorem clientLoop_answers {handler : RequestHandler} {tid : UInt16} {unitId : UInt8} {pdu : List UInt8}
    (filled : pdu ≠ []) (short : pdu.length ≤ 255) (answers : handler unitId pdu ≠ []) :
    clientLoop handler (appendMbap tid unitId (UInt16.ofNat (1 + pdu.length)) ++ pdu) =
      some (emitMbap ⟨tid, 0, UInt16.ofNat ((handler unitId pdu).length + 1), unitId⟩ ++ handler unitId pdu) := by
  rw [clientLoop_eq, mbapRequest_framed tid unitId filled short, Option.bind_some,
    if_neg (by simpa using answers)]

/-- The serial port does the same for a frame whose checksum holds. -/
theorem processFrame_answers {handler : RequestHandler} {unitId : UInt8} {pdu : List UInt8}
    (filled : pdu ≠ []) (answers : handler unitId pdu ≠ []) :
    processFrame handler (withCrc (unitId :: pdu)) = some (withCrc (unitId :: handler unitId pdu)) := by
  rw [processFrame_eq, rtuRequest_framed unitId filled, Option.bind_some, if_neg (by simpa using answers)]
  rfl

theorem exchange_eq {regs : SlaveRegset} {req : ModbusRequest} {pdu : List UInt8}
    (addressed : 1 ≤ req.slaveAddress ∧ req.slaveAddress ≤ 247) (built : requestPdu req = some pdu)
    (filled : pdu ≠ []) (short : pdu.length ≤ 255) (answers : (dispatchFull regs pdu false).1.bytes ≠ []) :
    exchange regs req = parseReply req.transport req.transactionId req.slaveAddress
      (dispatchFull regs pdu false).1.bytes := by
  have accepted : ¬((decide (req.slaveAddress < 1) || decide (247 < req.slaveAddress)) = true) := by
    rw [Bool.or_eq_true, decide_eq_true_iff, decide_eq_true_iff, not_or]
    exact ⟨UInt8.not_lt.mpr addressed.1, UInt8.not_lt.mpr addressed.2⟩
  unfold exchange parseReply buildRequest
  rw [if_neg accepted, built]
  let handler : RequestHandler := fun _ pdu => (dispatchFull regs pdu false).1.bytes
  have replies : handler req.slaveAddress pdu ≠ [] := answers
  cases req.transport with
  | tcp => exact congrArg (·.bind parseTcpResponse) (clientLoop_answers filled short replies)
  | rtu => exact congrArg (·.bind parseRtuResponse) (processFrame_answers filled replies)

end Framing

section Dispatch

namespace Area

/-- The data of the response to a read that passes the checks. -/
def data (area : Area) (addr qty : Nat) : List UInt8 :=
  match area with
  | bits cells => packBits (fun i => bitAt cells ((addr + i) % 65536)) qty
  | words cells => bytesOf ((List.range qty).map (fun i => cells.getD ((addr + i) % 65536) 0))

/-- What the parser makes of these data. -/
def parsed (area : Area) (addr qty : Nat) (head : ModbusResponse) : ModbusResponse :=
  match area with
  | bits _ => { head with coilBytes := area.data addr qty }
  | words cells => { head with registerValues := (List.range qty).map (fun i => cells.getD ((addr + i) % 65536) 0) }

variable {area : Area} {addr qty : Nat} {head : ModbusResponse}

theorem data_short (within : qty ≤ area.limit) : (area.data addr qty).length < 256 := by
  cases area with
  | bits cells =>
    simp only [data, length_packBits, limit] at within ⊢
    omega
  | words cells =>
    simp only [data, length_bytesOf, List.length_map, List.length_range, limit] at within ⊢
    omega

/-- Read through cut addresses, a range inside the vector is the addressed one if and
only if the cut makes no difference. -/
theorem carries_iff (inside : addr + qty ≤ area.size) (bare : head.registerValues = [] ∧ head.coilBytes = []) :
    area.Carries addr qty (area.parsed addr qty head) ↔ area.Unwrapped addr qty := by
  cases area with
  | bits cells =>
    simp only [Carries, parsed, data, length_packBits, bitAt_packBits, bare.1, true_and, Unwrapped]
    constructor
    · intro same i below
      simpa [below] using same i
    · intro same i
      by_cases below : i < qty
      · rw [same i below]
      · simp [below]
  | words cells =>
    simp only [Carries, parsed, bare.2, true_and, Unwrapped]
    simp only [size] at inside
    constructor
    · intro same i below
      have cell := congrArg (·[i]?) same
      simp only [List.getElem?_map, List.getElem?_range below, Option.map_some, List.getElem?_take_of_lt below,
        List.getElem?_drop, List.getElem?_eq_getElem (show addr + i < cells.length by omega)] at cell
      rw [Option.some.inj cell, List.getD_eq_getElem _ _ (by omega)]
    · intro same
      apply List.ext_getElem
      · simp
        omega
      · intro i below inVector
        rw [List.getElem_map, List.getElem_range, List.getElem_take, List.getElem_drop,
          same i (by simpa using below), List.getD_eq_getElem]

end Area

variable {regs : SlaveRegset} {fc : UInt8} {addr qty : UInt16}

theorem readChecked_request {limit size : Nat} {answer : UInt16 → UInt16 → List UInt8} :
    readChecked fc (fc :: (writeU16BE addr ++ writeU16BE qty)) limit size answer =
      if qty == 0 || limit < qty.toNat then exceptionPdu fc 0x03
      else if size < addr.toNat + qty.toNat then exceptionPdu fc 0x02
      else { bytes := fc :: answer addr qty } := by
  simp [readChecked, writeU16BE, be16]

theorem dispatch_read (read : isReadCode fc = true) :
    (dispatchFull regs (fc :: (writeU16BE addr ++ writeU16BE qty)) false).1 =
      if qty == 0 || (area regs fc).limit < qty.toNat then exceptionPdu fc 0x03
      else if (area regs fc).size < addr.toNat + qty.toNat then exceptionPdu fc 0x02
      else { bytes := fc :: UInt8.ofNat ((area regs fc).data addr.toNat qty.toNat).length ::
        (area regs fc).data addr.toNat qty.toNat } := by
  have registers (cell : Nat → UInt16) (n : Nat) :
      (List.range n).flatMap (fun i => appendU16BE (cell i)) = bytesOf ((List.range n).map cell) := by
    rw [bytesOf, List.flatMap_map]
    rfl
  rcases readCode_cases read with rfl | rfl | rfl | rfl
  · simp [dispatchFull, readCoils, readBits, readChecked_request, area, Area.limit, Area.size, Area.data, readCoil]
  · simp [dispatchFull, readDiscretes, readBits, readChecked_request, area, Area.limit, Area.size, Area.data, readCoil]
  · simp [dispatchFull, readHolding, readWords, readChecked_request, area, Area.limit, Area.size, Area.data,
      SlaveRegset.getHolding, registers, Nat.mul_comm]
  · simp [dispatchFull, readInput, readWords, readChecked_request, area, Area.limit, Area.size, Area.data,
      SlaveRegset.getInput, registers, Nat.mul_comm]

/-- The parser takes the data for the kind of cells the code addresses. -/
theorem readData_parsed (read : isReadCode fc = true) {head : ModbusResponse} (named : head.functionCode = fc) :
    readData head ((area regs fc).data addr.toNat qty.toNat).length ((area regs fc).data addr.toNat qty.toNat) =
      some ((area regs fc).parsed addr.toNat qty.toNat head) := by
  rcases readCode_cases read with rfl | rfl | rfl | rfl
  · simp [readData, named, area, Area.parsed]
  · simp [readData, named, area, Area.parsed]
  · simp [readData, named, area, Area.data, Area.parsed]
  · simp [readData, named, area, Area.data, Area.parsed]

end Dispatch

section RoundTrip
variable {regs : SlaveRegset} {req : ModbusRequest}

theorem requestPdu_read (read : isReadCode req.functionCode = true) (asked : req.quantity ≠ 0) :
    requestPdu req = some (req.functionCode :: (writeU16BE req.startingAddress ++ writeU16BE req.quantity)) := by
  simp [requestPdu, read, asked]

theorem built_of_nonempty (read : isReadCode req.functionCode = true) (built : buildRequest req ≠ []) :
    (1 ≤ req.slaveAddress ∧ req.slaveAddress ≤ 247) ∧ req.quantity ≠ 0 := by
  unfold buildRequest at built
  split at built
  · exact absurd rfl built
  · rename_i reserved
    rw [Bool.or_eq_true, decide_eq_true_iff, decide_eq_true_iff, not_or, UInt8.not_lt, UInt8.not_lt] at reserved
    refine ⟨reserved, fun none => built ?_⟩
    simp [requestPdu, read, none]

theorem exchange_read (read : isReadCode req.functionCode = true) (built : buildRequest req ≠ []) :
    exchange regs req = parseReply req.transport req.transactionId req.slaveAddress
      (dispatchFull regs (req.functionCode ::
        (writeU16BE req.startingAddress ++ writeU16BE req.quantity)) false).1.bytes := by
  obtain ⟨addressed, asked⟩ := built_of_nonempty read built
  apply exchange_eq addressed (requestPdu_read read asked) (List.cons_ne_nil _ _)
  · simp [writeU16BE]
  · rw [dispatch_read read]
    split
    · exact List.cons_ne_nil _ _
    · split <;> exact List.cons_ne_nil _ _

theorem exchange_refused (read : isReadCode req.functionCode = true) (built : buildRequest req ≠ [])
    (outside : ¬Inside regs req) : ∃ code, exchange regs req =
      some { replyHead req.transport req.transactionId req.slaveAddress (req.functionCode ||| 0x80) with
        isException := true, exceptionCode := code } := by
  have flagged : (req.functionCode ||| 0x80) &&& 0x80 ≠ 0 := by
    rcases readCode_cases read with code | code | code | code <;> rw [code] <;> decide
  rw [exchange_read read built, dispatch_read read]
  split
  · exact ⟨0x03, parseReply_exception _ _ _ _ _ flagged⟩
  · rw [if_pos (Nat.lt_of_not_le outside)]
    exact ⟨0x02, parseReply_exception _ _ _ _ _ flagged⟩

theorem exchange_inside (read : isReadCode req.functionCode = true) (built : buildRequest req ≠ [])
    (inside : Inside regs req) (within : req.quantity.toNat ≤ (area regs req.functionCode).limit) :
    exchange regs req = some ((area regs req.functionCode).parsed req.startingAddress.toNat req.quantity.toNat
      (replyHead req.transport req.transactionId req.slaveAddress req.functionCode)) := by
  obtain ⟨-, asked⟩ := built_of_nonempty read built
  rw [exchange_read read built, dispatch_read read, if_neg (by simp [asked, within]),
    if_neg (Nat.not_lt.mpr inside), parseReply_data _ _ _ _ _ read (Area.data_short within)]
  exact readData_parsed read rfl

theorem parsed_echoes (addr qty : Nat) (a : Area) : Echoes req (a.parsed addr qty
    (replyHead req.transport req.transactionId req.slaveAddress req.functionCode)) := by
  cases a <;> exact ⟨rfl, rfl, rfl⟩

theorem bare_replyHead (transport : Transport) (tid : UInt16) (unitId fc : UInt8) :
    (replyHead transport tid unitId fc).registerValues = [] ∧ (replyHead transport tid unitId fc).coilBytes = [] :=
  ⟨rfl, rfl⟩

theorem RoundTrips.unwrapped (trip : RoundTrips regs req) (read : isReadCode req.functionCode = true)
    (built : buildRequest req ≠ []) (inside : Inside regs req)
    (within : req.quantity.toNat ≤ (area regs req.functionCode).limit) :
    (area regs req.functionCode).Unwrapped req.startingAddress.toNat req.quantity.toNat := by
  obtain ⟨resp, got, -, -, -, carries⟩ := trip.data inside within
  rw [exchange_inside read built inside within] at got
  rw [← Option.some.inj got] at carries
  exact (Area.carries_iff inside (bare_replyHead ..)).mp carries

/-- The round trip of a read is exact if and only if no cell of a range inside the vector
differs from the one at its cut address. -/
theorem read_roundtrip_iff (regs : SlaveRegset) (req : ModbusRequest)
    (read : isReadCode req.functionCode = true) (built : buildRequest req ≠ []) :
    RoundTrips regs req ↔
      (Inside regs req → req.quantity.toNat ≤ (area regs req.functionCode).limit →
        (area regs req.functionCode).Unwrapped req.startingAddress.toNat req.quantity.toNat) := by
  constructor
  · exact fun trip inside within => trip.unwrapped read built inside within
  · intro unwrapped
    constructor
    · intro inside within
      refine ⟨_, exchange_inside read built inside within, parsed_echoes .., ?_, ?_,
        (Area.carries_iff inside (bare_replyHead ..)).mpr (unwrapped inside within)⟩
      · cases area regs req.functionCode <;> rfl
      · cases area regs req.functionCode <;> rfl
    · intro outside
      obtain ⟨code, got⟩ := exchange_refused read built outside
      exact ⟨_, got, ⟨rfl, rfl, rfl⟩, rfl, rfl, rfl, rfl⟩

/-- Eleven coils from an address that is no multiple of eight. -/
theorem read_roundtrip_iff_coils : RoundTrips { coils := [0xAA, 0x55, 0x0F] }
    { transport := .tcp, transactionId := 7, slaveAddress := 1, functionCode := 0x01, startingAddress := 3,
      quantity := 11 } :=
  (read_roundtrip_iff _ _ (by decide) (by decide)).mpr (fun _ _ i below => by
    congr 1
    exact Nat.mod_eq_of_lt (by change i < 11 at below; change 3 + i < 65536; omega))

/-- A register past address 65535, and the request for it and the one before. -/
def pastTop : SlaveRegset := { holding := List.replicate 65536 0 ++ [1] }

def topRequest : ModbusRequest :=
  { transport := .tcp, slaveAddress := 1, functionCode := 0x03, startingAddress := 65535, quantity := 2 }

/-- The cell past the top is answered with the first of the vector. -/
theorem read_roundtrip_fails : ¬RoundTrips pastTop topRequest := by
  intro trip
  have size : (area pastTop topRequest.functionCode).size = 65537 := by
    change (List.replicate 65536 (0 : UInt16) ++ [1]).length = 65537
    rw [List.length_append, List.length_replicate, List.length_singleton]
  have inside : Inside pastTop topRequest := by
    rw [Inside, size]
    decide
  have same := trip.unwrapped (by decide) (by decide) inside (by decide) 1 (by decide)
  change (List.replicate 65536 (0 : UInt16) ++ [1]).getD 0 0 = (List.replicate 65536 (0 : UInt16) ++ [1]).getD 65536 0
    at same
  rw [List.getD_append _ _ _ _ (by rw [List.length_replicate]; decide), List.getD_replicate _ (by decide),
    List.getD_append_right _ _ _ _ (by rw [List.length_replicate]), List.length_replicate] at same
  exact absurd same (by decide)

end RoundTrip

end EnerSentry.Sim
