import EnerSentry.Lib.Refinement
import EnerSentry.Protocol.ParseAgreement
import EnerSentry.Sim.SlaveEmulator

/-!
Masters that read and write the registers of the simulator over both transports, while the data
generator publishes new ones. Request by request, what the masters parse from the replies is what the
device answers, and the bank stands for the device throughout.
-/

namespace EnerSentry.Sim
open EnerSentry.Lib EnerSentry.Lib.CellMemory EnerSentry.Lib.Packing EnerSentry.Protocol

/-- The response in which the application finds an answer. The value of an echo over TCP is read from
where the address stands. -/
def Answer.response (req : ModbusRequest) : Answer → ModbusResponse
  | .refused code =>
      { replyHead req.transport req.transactionId req.slaveAddress (req.functionCode ||| 0x80) with
        isException := true
        exceptionCode := code }
  | .cells values =>
      { replyHead req.transport req.transactionId req.slaveAddress req.functionCode with
        registerValues := if isBitCode req.functionCode then [] else values
        coilBytes := if isBitCode req.functionCode then cellData req.functionCode values else [] }
  | .stored =>
      { replyHead req.transport req.transactionId req.slaveAddress req.functionCode with
        registerValues :=
          if req.functionCode == 0x05 || req.functionCode == 0x06 then
            [if req.transport = .tcp then req.startingAddress else req.registerValues.headD 0]
          else [] }

/-- One frame at a transport: its reply, and the state its handler leaves. -/
def serveFrame {S : Type*} (handler : ServingHandler S) (transport : Transport) (s : S) (frame : List UInt8) :
    Option (List UInt8) × S :=
  let answer : RequestHandler := fun unitId pdu => (handler s unitId pdu).1
  let reply := match transport with
    | .tcp => clientLoop answer frame
    | .rtu => processFrame answer frame
  (reply, match received transport frame with
    | some (unitId, pdu) => (handler s unitId pdu).2
    | none => s)

def parseFrame : Transport → List UInt8 → Option ModbusResponse
  | .tcp => parseTcpResponse
  | .rtu => parseRtuResponse

/-- What happens to the bank: a master's request with its reply, or a new register set. -/
inductive RemoteEvent where
  | request (req : ModbusRequest)
  | publish (slave : UInt8) (regs : SlaveRegset)

def remoteStep (slaves : List UInt8) : Runs.Step RegisterBank RemoteEvent (Option ModbusResponse) := fun bank event =>
  match event with
  | .request req =>
      let served := serveFrame (dispatchHandler slaves) req.transport bank (buildRequest req)
      (served.2, [served.1.bind (parseFrame req.transport)])
  | .publish slave regs => (bank.publish slave regs, [])

/-- The same on the device. -/
def deviceStep (slaves : List UInt8) : Runs.Step RemoteDevice RemoteEvent (Option ModbusResponse) := fun d event =>
  match event with
  | .request req =>
      let done := d.obey req.slaveAddress (commandOf req)
      (done.1, [some (done.2.response req)])
  | .publish slave regs => (if slave ∈ slaves then Function.update d slave (some regs.image) else d, [])

/-- A request that is built and within the limit of its code; registers that all have an address. -/
def RemoteEvent.Admissible : RemoteEvent → Prop
  | .request req => buildRequest req ≠ [] ∧ req.quantity.toNat ≤ quantityLimit req.functionCode
  | .publish _ regs => regs.Addressable

section Answers
variable {req : ModbusRequest} {pdu : List UInt8} {c : SlaveCommand} {d : RemoteDevice} {unitId : UInt8}

theorem parseReply_eq (transport : Transport) (tid : UInt16) (unitId : UInt8) (short : pdu.length < 65535) :
    parseReply transport tid unitId pdu = parsePdu
      { transport := transport, transactionId := if transport = .tcp then tid else 0, slaveAddress := unitId }
      (if transport = .tcp then 1 else 3) pdu := by
  cases transport with
  | tcp =>
    have correct : (UInt16.ofNat (pdu.length + 1)).toNat = 1 + pdu.length := by
      rw [UInt16.toNat_ofNat', Nat.add_comm]
      exact Nat.mod_eq_of_lt (by omega)
    exact parseTcp_framed unitId tid _ pdu correct
  | rtu => exact parseRtu_framed unitId pdu

/-- The codes of the eight commands. -/
theorem code_cases (formed : c.WellFormed) : isReadCode c.code = true ∨ isWriteCode c.code = true := by
  cases c with
  | read fc addr qty => exact Or.inl formed.1
  | _ => exact Or.inr rfl

/-- An answer of a kind that its command can get, with few enough data. -/
def Answer.Fits (c : SlaveCommand) : Answer → Prop
  | .refused _ => True
  | .cells values => isReadCode c.code = true ∧ (cellData c.code values).length < 256
  | .stored => isWriteCode c.code = true

theorem fits_saved (m : RemoteMemory) (next : Option RemoteMemory) (write : isWriteCode c.code = true) :
    (RemoteMemory.saved m next).2.Fits c := by
  cases next with
  | none => trivial
  | some next => exact write

theorem length_cellData (fc : UInt8) (values : List UInt16) :
    (cellData fc values).length = if isBitCode fc then (values.length + 7) / 8 else 2 * values.length := by
  unfold cellData
  split <;> simp

theorem fits_memory (m : RemoteMemory)
    (within : ∀ fc addr qty, c = .read fc addr qty → isReadCode fc = true ∧ qty.toNat ≤ quantityLimit fc) :
    (m.obey c).2.Fits c := by
  cases c with
  | read fc addr qty =>
    obtain ⟨read, few⟩ := within fc addr qty rfl
    rw [RemoteMemory.obey]
    cases loaded : m.load (SlaveCommand.areaOf fc) addr.toNat qty.toNat with
    | none => trivial
    | some values =>
      obtain ⟨covered, same⟩ := Option.ite_none_right_eq_some.mp loaded
      have size : values.length ≤ qty.toNat := by
        rw [← Option.some.inj same]
        exact (List.length_filterMap_le _ _).trans_eq List.length_range
      refine ⟨read, ?_⟩
      rw [SlaveCommand.code, length_cellData]
      rcases readCode_cases read with rfl | rfl | rfl | rfl
      · have limit : qty.toNat ≤ 2000 := few
        rw [if_pos (by decide)]
        omega
      · have limit : qty.toNat ≤ 2000 := few
        rw [if_pos (by decide)]
        omega
      · have limit : qty.toNat ≤ 125 := few
        rw [if_neg (by decide)]
        omega
      · have limit : qty.toNat ≤ 125 := few
        rw [if_neg (by decide)]
        omega
  | _ => exact fits_saved m _ rfl

/-- What a built request asks for has its own function code. -/
theorem code_commandOf (encoded : requestPdu req = some pdu) : (commandOf req).code = req.functionCode := by
  unfold commandOf
  by_cases read : isReadCode req.functionCode = true
  · rw [if_pos read]
    rfl
  by_cases coil : req.functionCode = 0x05
  · rw [if_neg read, if_pos (beq_iff_eq.mpr coil), coil]
    rfl
  by_cases register : req.functionCode = 0x06
  · rw [if_neg read, if_neg (by simpa using coil), if_pos (beq_iff_eq.mpr register), register]
    rfl
  by_cases coils : req.functionCode = 0x0F
  · rw [if_neg read, if_neg (by simpa using coil), if_neg (by simpa using register), if_pos (beq_iff_eq.mpr coils),
      coils]
    rfl
  by_cases registers : req.functionCode = 0x10
  · rw [if_neg read, if_neg (by simpa using coil), if_neg (by simpa using register), if_neg (by simpa using coils),
      registers]
    rfl
  · simp [requestPdu, read, coil, register, coils, registers] at encoded

/-- Where a write echoes its value, it is the one that was sent. -/
theorem parsePdu_echo (head : ModbusResponse) (write : isWriteCode req.functionCode = true) :
    parsePdu head (if req.transport = .tcp then 1 else 3) (commandOf req).echo =
      some { head with
        functionCode := req.functionCode
        registerValues :=
          if req.functionCode == 0x05 || req.functionCode == 0x06 then
            [if req.transport = .tcp then req.startingAddress else req.registerValues.headD 0]
          else head.registerValues } := by
  obtain coil | register | coils | registers := writeCode_cases write
  · cases req.transport <;>
      simp [commandOf, coil, isReadCode, SlaveCommand.echo, appendU16BE, parsePdu, readU16BE] <;> decide
  · cases req.transport <;>
      simp [commandOf, register, isReadCode, SlaveCommand.echo, appendU16BE, parsePdu, readU16BE] <;> decide
  · cases req.transport <;>
      simp [commandOf, coils, isReadCode, SlaveCommand.echo, appendU16BE, parsePdu] <;> decide
  · cases req.transport <;>
      simp [commandOf, registers, isReadCode, SlaveCommand.echo, appendU16BE, parsePdu] <;> decide

theorem flagged_code (formed : c.WellFormed) : (c.code ||| 0x80) &&& 0x80 ≠ 0 := by
  obtain read | write := code_cases formed
  · rcases readCode_cases read with code | code | code | code <;> rw [code] <;> decide
  · rcases writeCode_cases write with code | code | code | code <;> rw [code] <;> decide

/-- The application parses a reply as the answer it stands for. -/
theorem parseReply_answer (encoded : requestPdu req = some pdu) (formed : (commandOf req).WellFormed) {a : Answer}
    (fits : a.Fits (commandOf req)) :
    parseReply req.transport req.transactionId req.slaveAddress (a.pdu (commandOf req)) = some (a.response req) := by
  have code := code_commandOf encoded
  cases a with
  | refused exceptionCode =>
    have flagged := flagged_code formed
    rw [Answer.pdu, code] at *
    exact parseReply_exception _ _ _ _ _ flagged
  | cells values =>
    obtain ⟨read, short⟩ := fits
    rw [Answer.pdu, code] at *
    rw [parseReply_data _ _ _ _ _ read short]
    rcases readCode_cases read with fc | fc | fc | fc
    · simp [readData, replyHead, fc, Answer.response, isBitCode]
    · simp [readData, replyHead, fc, Answer.response, isBitCode]
    · simp [readData, replyHead, fc, Answer.response, isBitCode, cellData]
    · simp [readData, replyHead, fc, Answer.response, isBitCode, cellData]
  | stored =>
    have write : isWriteCode req.functionCode = true := code ▸ fits
    have short : (commandOf req).echo.length < 65535 := by
      cases commandOf req <;> simp [SlaveCommand.echo, appendU16BE]
    rw [Answer.pdu, parseReply_eq _ _ _ short, parsePdu_echo _ write]
    rfl

/-- Every answer that fits its command has bytes. -/
theorem pdu_filled {a : Answer} (formed : c.WellFormed) (fits : a.Fits c) : a.pdu c ≠ [] := by
  cases a with
  | refused code => exact List.cons_ne_nil _ _
  | cells values => exact List.cons_ne_nil _ _
  | stored =>
    cases c with
    | read fc addr qty =>
      have write : isWriteCode fc = true := fits
      rcases readCode_cases formed.1 with rfl | rfl | rfl | rfl <;> cases write
    | _ => exact List.cons_ne_nil _ _

end Answers

section Requests
variable {S : Type*} {req : ModbusRequest} {pdu : List UInt8}

/-- A transport hands a built request to its handler and frames what it answers. -/
theorem serveFrame_built (handler : ServingHandler S) (s : S) (frame : buildRequest req = match req.transport with
      | .tcp => appendMbap req.transactionId req.slaveAddress (UInt16.ofNat (1 + pdu.length)) ++ pdu
      | .rtu => withCrc (req.slaveAddress :: pdu))
    (filled : pdu ≠ []) (short : pdu.length ≤ 255) (answers : (handler s req.slaveAddress pdu).1 ≠ []) :
    (serveFrame handler req.transport s (buildRequest req)).1.bind (parseFrame req.transport) =
        parseReply req.transport req.transactionId req.slaveAddress (handler s req.slaveAddress pdu).1 ∧
      (serveFrame handler req.transport s (buildRequest req)).2 = (handler s req.slaveAddress pdu).2 := by
  let answer : RequestHandler := fun unitId pdu => (handler s unitId pdu).1
  have replies : answer req.slaveAddress pdu ≠ [] := answers
  rw [frame]
  unfold serveFrame parseReply
  cases req.transport with
  | tcp =>
    constructor
    · exact congrArg (·.bind parseTcpResponse) (clientLoop_answers filled short replies)
    · simp only [received, mbapRequest_framed _ _ filled short, Option.map_some]
  | rtu =>
    constructor
    · exact congrArg (·.bind parseRtuResponse) (processFrame_answers filled replies)
    · simp only [received, rtuRequest_framed req.slaveAddress filled]

variable {slaves : List UInt8} {bank : RegisterBank}

/-- What becomes of a built request: it is decoded to its command, which the handler obeys with an answer
of the kind the command gets. -/
structure Handled (slaves : List UInt8) (bank : RegisterBank) (req : ModbusRequest) (pdu : List UInt8) : Prop where
  encoded : requestPdu req = some pdu
  arrives : Arrives req pdu
  formed : (commandOf req).WellFormed
  fits : ((bank.image slaves).obey req.slaveAddress (commandOf req)).2.Fits (commandOf req)
  handles : Handles slaves bank req.slaveAddress (commandOf req) (dispatchHandler slaves bank req.slaveAddress pdu)

theorem fits_device (d : RemoteDevice) (encoded : requestPdu req = some pdu) (formed : (commandOf req).WellFormed)
    (within : req.quantity.toNat ≤ quantityLimit req.functionCode) :
    (d.obey req.slaveAddress (commandOf req)).2.Fits (commandOf req) := by
  rw [RemoteDevice.obey]
  cases d req.slaveAddress with
  | none => trivial
  | some m =>
    apply fits_memory m
    intro fc addr qty asked
    rw [asked] at formed
    have code := code_commandOf encoded
    rw [asked] at code
    have counted : qty = req.quantity := by
      unfold commandOf at asked
      split at asked
      · exact (SlaveCommand.read.inj asked).2.2.symm
      all_goals
        repeat' split at asked
        all_goals cases asked
    rw [counted, show fc = req.functionCode from code]
    exact ⟨code ▸ formed.1, within⟩

theorem handled_built (addressable : bank.Addressable) (encoded : requestPdu req = some pdu)
    (within : req.quantity.toNat ≤ quantityLimit req.functionCode) : Handled slaves bank req pdu := by
  have arrives := decode_requestPdu encoded within
  have formed := (RegisterBank.decodeCommand_formed arrives.decoded).1
  exact ⟨encoded, arrives, formed, fits_device _ encoded formed within,
    handles_decoded slaves req.slaveAddress addressable arrives.decoded⟩

theorem Handled.answers (handled : Handled slaves bank req pdu) :
    (dispatchHandler slaves bank req.slaveAddress pdu).1 ≠ [] := by
  rw [handled.handles.answer]
  exact pdu_filled handled.formed handled.fits

/-- A request is served on the bank as its command is obeyed by the device. -/
theorem request_refined (addressable : bank.Addressable) (built : buildRequest req ≠ [])
    (within : req.quantity.toNat ≤ quantityLimit req.functionCode) :
    (remoteStep slaves bank (.request req)).1.Addressable ∧
      (remoteStep slaves bank (.request req)).1.image slaves =
        (deviceStep slaves (bank.image slaves) (.request req)).1 ∧
      (remoteStep slaves bank (.request req)).2 = (deviceStep slaves (bank.image slaves) (.request req)).2 := by
  obtain ⟨pdu, encoded, frame⟩ := built_frame built
  have handled : Handled slaves bank req pdu := handled_built addressable encoded within
  obtain ⟨reply, state⟩ := serveFrame_built (dispatchHandler slaves) bank frame handled.arrives.filled
    handled.arrives.short handled.answers
  refine ⟨?_, ?_, ?_⟩
  · rw [remoteStep, state]
    exact handled.handles.addressable
  · rw [remoteStep, state]
    exact handled.handles.device
  · rw [remoteStep, reply, handled.handles.answer, parseReply_answer encoded handled.formed handled.fits]
    rfl

theorem remote_refines (slaves : List UInt8) : Runs.Refines (remoteStep slaves) (deviceStep slaves)
    (RegisterBank.image · slaves) RegisterBank.Addressable RemoteEvent.Admissible := by
  constructor
  · intro bank event addressable admissible
    cases event with
    | request req => exact (request_refined addressable admissible.1 admissible.2).1
    | publish slave regs => exact addressable.publish admissible
  · intro bank event addressable admissible
    cases event with
    | request req => exact (request_refined addressable admissible.1 admissible.2).2.1
    | publish slave regs => exact RegisterBank.image_publish_eq bank slaves slave regs
  · intro bank event addressable admissible
    cases event with
    | request req => exact (request_refined addressable admissible.1 admissible.2).2.2
    | publish slave regs => rfl

/-- Over any number of requests of any masters and of published register sets, every master parses
what the device answers, and the bank stands for the device. -/
theorem masters_share_device (slaves : List UInt8) (bank : RegisterBank) (es : List RemoteEvent)
    (addressable : bank.Addressable) (admissible : ∀ e ∈ es, e.Admissible) :
    (Runs.run (remoteStep slaves) bank es).image slaves = Runs.run (deviceStep slaves) (bank.image slaves) es ∧
      Runs.outputs (remoteStep slaves) bank es = Runs.outputs (deviceStep slaves) (bank.image slaves) es :=
  ((remote_refines slaves).run_refined addressable admissible).2

/-- A bank with four holding registers for every slave. -/
def fourRegisters : RegisterBank := fun _ => some { holding := [0, 0, 0, 0] }

theorem addressable_fourRegisters : fourRegisters.Addressable := by
  intro slave regs held
  obtain rfl := Option.some.inj held
  intro t
  cases t <;> decide

/-- Two registers written over TCP and read on the serial line, with a publication in between. -/
def sharedRun : List RemoteEvent :=
  [.request ⟨.tcp, 7, 1, 0x10, 1, 2, [0x1234, 0xABCD], []⟩, .publish 2 {}, .request ⟨.rtu, 0, 1, 0x03, 0, 3, [], []⟩]

theorem admissible_sharedRun : ∀ e ∈ sharedRun, e.Admissible := by
  intro e member
  rcases List.mem_cons.mp member with rfl | later
  · exact ⟨by decide, by decide⟩
  rcases List.mem_cons.mp later with rfl | last
  · intro t
    cases t <;> decide
  · rw [List.mem_singleton.mp last]
    exact ⟨by decide +kernel, by decide⟩

theorem masters_share_device_two :
    (Runs.run (remoteStep [1]) fourRegisters sharedRun).image [1] =
        Runs.run (deviceStep [1]) (fourRegisters.image [1]) sharedRun ∧
      Runs.outputs (remoteStep [1]) fourRegisters sharedRun =
        Runs.outputs (deviceStep [1]) (fourRegisters.image [1]) sharedRun :=
  masters_share_device [1] fourRegisters sharedRun addressable_fourRegisters admissible_sharedRun

end Requests

end EnerSentry.Sim
