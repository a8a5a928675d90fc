import EnerSentry.Sim.ReadRoundTrip

/-!
The dispatcher in two halves: a request is decoded into a command, and the command is
executed on the registers. A request that the application builds is decoded into itself
exactly when its quantity is within the limit of its function code; beyond it the byte
count is cut to eight bits or the slave refuses.
-/

namespace EnerSentry.Sim
open EnerSentry.Lib.Packing EnerSentry.Protocol

inductive SlaveCommand where
  | read (fc : UInt8) (addr qty : UInt16)
  | writeCoil (addr val : UInt16)
  | writeRegister (addr val : UInt16)
  | writeCoils (addr qty : UInt16) (bits : List Bool)
  | writeRegisters (addr qty : UInt16) (words : List UInt16)
  deriving DecidableEq, Repr

/-- The largest quantity of a function code; single writes have none. -/
def quantityLimit (fc : UInt8) : Nat :=
  if fc == 0x01 || fc == 0x02 then 2000
  else if fc == 0x03 || fc == 0x04 then 125
  else if fc == 0x0F then 1968
  else if fc == 0x10 then 123
  else 65535

/-- The checks of a multiple write that do not depend on the registers. -/
def wellCounted (pdu : List UInt8) (limit byteCount : Nat) : Bool :=
  !(pdu.length < 7 || be16 pdu 3 == 0 || limit < (be16 pdu 3).toNat || (pdu.getD 5 0).toNat != byteCount ||
    6 + (pdu.getD 5 0).toNat != pdu.length)

/-- The command in a request; `none` for a request refused before any register is looked at. -/
def decodeCommand (pdu : List UInt8) : Option SlaveCommand :=
  let fc := pdu.headD 0
  let addr := be16 pdu 1
  let qty := be16 pdu 3
  if isReadCode fc then
    if pdu.length != 5 || qty == 0 || quantityLimit fc < qty.toNat then none else some (.read fc addr qty)
  else if fc == 0x05 then
    if pdu.length != 5 || (qty != 0xFF00 && qty != 0x0000) then none else some (.writeCoil addr qty)
  else if fc == 0x06 then if pdu.length != 5 then none else some (.writeRegister addr qty)
  else if fc == 0x0F then
    if wellCounted pdu (quantityLimit fc) ((qty.toNat + 7) / 8) then
      some (.writeCoils addr qty
        ((List.range qty.toNat).map (fun i => (pdu.getD (6 + i / 8) 0).toNat.testBit (i % 8))))
    else none
  else if fc == 0x10 then
    if wellCounted pdu (quantityLimit fc) (qty.toNat * 2) then
      some (.writeRegisters addr qty ((List.range qty.toNat).map (fun i => be16 pdu (6 + 2 * i))))
    else none
  else none

def execute (regs : SlaveRegset) : SlaveCommand → DispatchResult × SlaveRegset
  | .read fc addr qty =>
      let cells := (area regs fc).data addr.toNat qty.toNat
      if (area regs fc).size < addr.toNat + qty.toNat then (exceptionPdu fc 0x02, regs)
      else ({ bytes := fc :: UInt8.ofNat cells.length :: cells }, regs)
  | .writeCoil addr val =>
      if regs.coils.length * 8 ≤ addr.toNat then (exceptionPdu 0x05 0x02, regs)
      else ({ bytes := 0x05 :: (appendU16BE addr ++ appendU16BE val) },
        { regs with coils := writeCoil regs.coils addr (val == 0xFF00) })
  | .writeRegister addr val =>
      if regs.holding.length ≤ addr.toNat then (exceptionPdu 0x06 0x02, regs)
      else ({ bytes := 0x06 :: (appendU16BE addr ++ appendU16BE val) }, regs.setHolding addr val)
  | .writeCoils addr qty bits =>
      if regs.coils.length * 8 < addr.toNat + qty.toNat then (exceptionPdu 0x0F 0x02, regs)
      else ({ bytes := 0x0F :: (appendU16BE addr ++ appendU16BE qty) },
        { regs with coils := (List.range qty.toNat).foldl (fun coils i =>
            writeCoil coils (addr + UInt16.ofNat i) (bits.getD i false)) regs.coils })
  | .writeRegisters addr qty words =>
      if regs.holding.length < addr.toNat + qty.toNat then (exceptionPdu 0x10 0x02, regs)
      else ({ bytes := 0x10 :: (appendU16BE addr ++ appendU16BE qty) },
        (List.range qty.toNat).foldl (fun regs i =>
          regs.setHolding (addr + UInt16.ofNat i) (words.getD i 0)) regs)

section Halves
variable {regs : SlaveRegset} {pdu : List UInt8}

theorem five_bytes (five : pdu.length = 5) :
    pdu = pdu.headD 0 :: (appendU16BE (be16 pdu 1) ++ appendU16BE (be16 pdu 3)) := by
  match pdu, five with
  | [a, b, c, d, e], _ => simp [appendU16BE, be16]

theorem foldl_getD_map {α β : Type*} (n : Nat) (f : Nat → α) (default : α) (store : β → Nat → α → β) (start : β) :
    (List.range n).foldl (fun acc i => store acc i (((List.range n).map f).getD i default)) start =
      (List.range n).foldl (fun acc i => store acc i (f i)) start := by
  apply List.foldl_ext
  intro acc i member
  rw [List.getD_eq_getElem?_getD, List.getElem?_map, List.getElem?_range (List.mem_range.mp member)]
  rfl

theorem area_limit {fc : UInt8} (read : isReadCode fc = true) : (area regs fc).limit = quantityLimit fc := by
  rcases readCode_cases read with rfl | rfl | rfl | rfl <;> rfl

theorem dispatch_read_only {fc : UInt8} (read : isReadCode fc = true) (rest : List UInt8) :
    dispatchFull regs (fc :: rest) true = ((dispatchFull regs (fc :: rest) false).1, regs) := by
  rcases readCode_cases read with rfl | rfl | rfl | rfl <;> simp [dispatchFull]

theorem read_decoded {fc : UInt8} (addr qty : UInt16) (read : isReadCode fc = true)
    (counted : ¬(qty == 0 || quantityLimit fc < qty.toNat) = true) :
    dispatchFull regs (fc :: (appendU16BE addr ++ appendU16BE qty)) true = execute regs (.read fc addr qty) := by
  have answer : (dispatchFull regs (fc :: (appendU16BE addr ++ appendU16BE qty)) false).1 = _ := dispatch_read read
  rw [area_limit read, if_neg counted] at answer
  rw [dispatch_read_only read]
  refine Prod.ext ?_ ?_
  · refine answer.trans ?_
    simp only [execute]
    split <;> rfl
  · simp only [execute]
    split <;> rfl

theorem writeSingleCoil_decoded (five : pdu.length = 5) (code : pdu.headD 0 = 0x05)
    (value : ¬(be16 pdu 3 != 0xFF00 && be16 pdu 3 != 0x0000) = true) :
    writeSingleCoil regs pdu = execute regs (.writeCoil (be16 pdu 1) (be16 pdu 3)) := by
  have whole := five_bytes five
  rw [code] at whole
  simp only [writeSingleCoil, execute, ← whole, List.take_of_length_le five.le]
  rw [if_neg (by simpa [five] using value)]

theorem writeSingleRegister_decoded (five : pdu.length = 5) (code : pdu.headD 0 = 0x06) :
    writeSingleRegister regs pdu = execute regs (.writeRegister (be16 pdu 1) (be16 pdu 3)) := by
  have whole := five_bytes five
  rw [code] at whole
  simp only [writeSingleRegister, execute, ← whole, List.take_of_length_le five.le]
  rw [if_neg (by simp [five])]

theorem writeMultiple_counted {fc : UInt8} {limit size : Nat} (byteCountOf : Nat → Nat)
    {change : UInt16 → Nat → SlaveRegset} (counted : wellCounted pdu limit (byteCountOf (be16 pdu 3).toNat) = true) :
    writeMultiple fc regs pdu limit size byteCountOf change =
      if size < (be16 pdu 1).toNat + (be16 pdu 3).toNat then (exceptionPdu fc 0x02, regs)
      else ({ bytes := fc :: (appendU16BE (be16 pdu 1) ++ appendU16BE (be16 pdu 3)) },
        change (be16 pdu 1) (be16 pdu 3).toNat) := by
  unfold writeMultiple
  simp only
  rw [if_neg (by simpa [wellCounted] using counted)]

theorem writeCoils_decoded (counted : wellCounted pdu 1968 (((be16 pdu 3).toNat + 7) / 8) = true) :
    writeCoils regs pdu = execute regs (.writeCoils (be16 pdu 1) (be16 pdu 3)
      ((List.range (be16 pdu 3).toNat).map (fun i => (pdu.getD (6 + i / 8) 0).toNat.testBit (i % 8)))) := by
  rw [writeCoils, writeMultiple_counted (fun qty => (qty + 7) / 8) counted]
  simp only [execute, foldl_getD_map _ _ false (fun coils i bit => writeCoil coils (be16 pdu 1 + UInt16.ofNat i) bit)]

theorem writeRegisters_decoded (counted : wellCounted pdu 123 ((be16 pdu 3).toNat * 2) = true) :
    writeRegisters regs pdu = execute regs (.writeRegisters (be16 pdu 1) (be16 pdu 3)
      ((List.range (be16 pdu 3).toNat).map (fun i => be16 pdu (6 + 2 * i)))) := by
  rw [writeRegisters, writeMultiple_counted (fun qty => qty * 2) counted]
  simp only [execute,
    foldl_getD_map _ _ 0 (fun (regs : SlaveRegset) i word => regs.setHolding (be16 pdu 1 + UInt16.ofNat i) word)]

/-- What is decoded is what the dispatcher executes. -/
theorem dispatchFull_decoded {c : SlaveCommand} (decoded : decodeCommand pdu = some c) :
    dispatchFull regs pdu true = execute regs c := by
  cases pdu with
  | nil => simp [decodeCommand, isReadCode] at decoded
  | cons fc rest =>
    by_cases read : isReadCode fc = true
    · simp only [decodeCommand, List.headD_cons, read, if_true, Option.ite_none_left_eq_some, Option.some.injEq,
        Bool.or_eq_true, not_or, bne_iff_ne, ne_eq, not_not] at decoded
      obtain ⟨⟨⟨five, asked⟩, within⟩, rfl⟩ := decoded
      have counted : ¬(be16 (fc :: rest) 3 == 0 || quantityLimit fc < (be16 (fc :: rest) 3).toNat) = true := by
        rw [Bool.or_eq_true, not_or]
        exact ⟨asked, within⟩
      calc dispatchFull regs (fc :: rest) true
        _ = dispatchFull regs (fc :: (appendU16BE (be16 (fc :: rest) 1) ++ appendU16BE (be16 (fc :: rest) 3))) true :=
          congrArg (dispatchFull regs · true) (five_bytes five)
        _ = execute regs (.read fc (be16 (fc :: rest) 1) (be16 (fc :: rest) 3)) := read_decoded _ _ read counted
    · simp only [decodeCommand, List.headD_cons, read, Bool.false_eq_true, if_false] at decoded
      by_cases coil : fc = 0x05
      · subst coil
        simp only [BEq.rfl, if_true, Option.ite_none_left_eq_some, Option.some.injEq] at decoded
        obtain ⟨formed, rfl⟩ := decoded
        rw [Bool.or_eq_true, not_or, bne_iff_ne, not_not] at formed
        exact writeSingleCoil_decoded formed.1 rfl formed.2
      by_cases register : fc = 0x06
      · subst register
        change (if ((0x06 :: rest).length != 5) = true then none else some _) = some c at decoded
        simp only [Option.ite_none_left_eq_some, Option.some.injEq, bne_iff_ne, ne_eq, not_not] at decoded
        obtain ⟨five, rfl⟩ := decoded
        exact writeSingleRegister_decoded five rfl
      by_cases coils : fc = 0x0F
      · subst coils
        change (if wellCounted _ 1968 _ = true then some _ else none) = some c at decoded
        simp only [Option.ite_none_right_eq_some, Option.some.injEq] at decoded
        obtain ⟨counted, rfl⟩ := decoded
        exact writeCoils_decoded counted
      by_cases registers : fc = 0x10
      · subst registers
        change (if wellCounted _ 123 _ = true then some _ else none) = some c at decoded
        simp only [Option.ite_none_right_eq_some, Option.some.injEq] at decoded
        obtain ⟨counted, rfl⟩ := decoded
        exact writeRegisters_decoded counted
      · simp [coil, register, coils, registers] at decoded

end Halves

section Request

/-- The unit id and request that a transport hands to its handler. -/
def received (transport : Transport) (frame : List UInt8) : Option (UInt8 × List UInt8) :=
  match transport with
  | .tcp => (mbapRequest frame).map (fun r => (r.1.unitId, r.2))
  | .rtu => rtuRequest frame

/-- The command that a request of the application stands for. -/
def commandOf (req : ModbusRequest) : SlaveCommand :=
  if isReadCode req.functionCode then .read req.functionCode req.startingAddress req.quantity
  else if req.functionCode == 0x05 then .writeCoil req.startingAddress (req.registerValues.headD 0)
  else if req.functionCode == 0x06 then .writeRegister req.startingAddress (req.registerValues.headD 0)
  else if req.functionCode == 0x0F then
    .writeCoils req.startingAddress req.quantity ((List.range req.quantity.toNat).map (bitAt req.coilBytes))
  else .writeRegisters req.startingAddress req.quantity req.registerValues

def isMultipleWrite (fc : UInt8) : Bool := fc == 0x0F || fc == 0x10

/-- The frame of a request is well formed and says what the request says. -/
structure SelfConsistent (req : ModbusRequest) : Prop where
  decoded : ∃ pdu, received req.transport (buildRequest req) = some (req.slaveAddress, pdu) ∧
    decodeCommand pdu = some (commandOf req) ∧
    (isMultipleWrite req.functionCode = true → (pdu.getD 5 0).toNat = (pdu.drop 6).length)
  mbapLength : req.transport = .tcp →
    (readU16BE (buildRequest req) 4).toNat = ((buildRequest req).drop 6).length
  within : req.quantity.toNat ≤ quantityLimit req.functionCode

variable {req : ModbusRequest} {pdu : List UInt8}

theorem be16_bytesOf (words : List UInt16) (i : Nat) (inside : i < words.length) :
    be16 (bytesOf words) (2 * i) = words[i] := by
  induction words generalizing i with
  | nil => exact absurd inside (Nat.not_lt_zero i)
  | cons w words ih =>
    cases i with
    | zero => exact join_high_low w
    | succ i => exact ih i (Nat.lt_of_succ_lt_succ inside)

theorem mapped_bytesOf {words : List UInt16} {n : Nat} (counted : words.length = n) :
    (List.range n).map (fun i => be16 (bytesOf words) (2 * i)) = words := by
  apply List.ext_getElem
  · simp [counted]
  · intro i before inside
    rw [List.getElem_map, List.getElem_range, be16_bytesOf words i inside]

/-- What follows the six bytes at the front of a multiple write. -/
theorem getD_six (a b c d e f : UInt8) (data : List UInt8) (i : Nat) :
    (a :: b :: c :: d :: e :: f :: data).getD (6 + i) 0 = data.getD i 0 := by
  rw [Nat.add_comm]
  rfl

/-- A counted body passes the checks of its multiple write. -/
theorem wellCounted_body (fc : UInt8) (addr : UInt16) {qty : UInt16} (data : List UInt8) {limit : Nat} (asked : qty ≠ 0)
    (within : qty.toNat ≤ limit) (filled : 0 < data.length) (short : data.length < 256) :
    wellCounted (fc :: high addr :: low addr :: high qty :: low qty :: UInt8.ofNat data.length :: data) limit
      data.length = true := by
  have size : (UInt8.ofNat data.length).toNat = data.length := by
    rw [UInt8.toNat_ofNat']
    exact Nat.mod_eq_of_lt short
  simp [wellCounted, be16, size, asked, within]
  omega

theorem decode_writeCoils (addr : UInt16) {qty : UInt16} {bytes : List UInt8} (asked : qty ≠ 0)
    (within : qty.toNat ≤ 1968) (counted : bytes.length = (qty.toNat + 7) / 8) :
    decodeCommand (0x0F :: high addr :: low addr :: high qty :: low qty :: UInt8.ofNat bytes.length :: bytes) =
      some (.writeCoils addr qty ((List.range qty.toNat).map (bitAt bytes))) := by
  have positive : 0 < qty.toNat := Nat.pos_of_ne_zero (fun zero => asked (UInt16.toNat_inj.mp zero))
  have formed := wellCounted_body 0x0F addr bytes asked within (by omega) (by omega)
  change (if wellCounted _ 1968 (((join (high qty) (low qty)).toNat + 7) / 8) = true then
    some (SlaveCommand.writeCoils (join (high addr) (low addr)) (join (high qty) (low qty))
      ((List.range (join (high qty) (low qty)).toNat).map _)) else none) = _
  rw [join_high_low, join_high_low, ← counted, if_pos formed]
  simp only [getD_six]
  rfl

theorem decode_writeRegisters (addr : UInt16) {qty : UInt16} {words : List UInt16} (asked : qty ≠ 0)
    (within : qty.toNat ≤ 123) (counted : words.length = qty.toNat) :
    decodeCommand (0x10 :: high addr :: low addr :: high qty :: low qty :: UInt8.ofNat (bytesOf words).length ::
      bytesOf words) = some (.writeRegisters addr qty words) := by
  have positive : 0 < qty.toNat := Nat.pos_of_ne_zero (fun zero => asked (UInt16.toNat_inj.mp zero))
  have size : (bytesOf words).length = qty.toNat * 2 := by
    rw [length_bytesOf, counted, Nat.mul_comm]
  have formed := wellCounted_body 0x10 addr (bytesOf words) asked within (by omega) (by omega)
  change (if wellCounted _ 123 ((join (high qty) (low qty)).toNat * 2) = true then
    some (SlaveCommand.writeRegisters (join (high addr) (low addr)) (join (high qty) (low qty))
      ((List.range (join (high qty) (low qty)).toNat).map _)) else none) = _
  rw [join_high_low, join_high_low, ← size, if_pos formed]
  have values := mapped_bytesOf counted
  simp only [be16, Nat.add_assoc, getD_six] at values ⊢
  rw [values]

/-- A PDU arrives as the request it was built from, and its count is that of its data. -/
structure Arrives (req : ModbusRequest) (pdu : List UInt8) : Prop where
  decoded : decodeCommand pdu = some (commandOf req)
  filled : pdu ≠ []
  short : pdu.length ≤ 255
  counted : isMultipleWrite req.functionCode = true → (pdu.getD 5 0).toNat = (pdu.drop 6).length

theorem arrives_read (read : isReadCode req.functionCode = true) (built : requestPdu req = some pdu)
    (within : req.quantity.toNat ≤ quantityLimit req.functionCode) : Arrives req pdu := by
  have plain : isMultipleWrite req.functionCode = false := by
    rcases readCode_cases read with code | code | code | code <;> rw [code] <;> rfl
  unfold requestPdu at built
  simp only [read, if_true, Option.ite_none_left_eq_some, Option.some.injEq] at built
  obtain ⟨asked, rfl⟩ := built
  refine ⟨?_, List.cons_ne_nil _ _, by simp [writeU16BE], by simp [plain]⟩
  simp only [beq_iff_eq] at asked
  simp [decodeCommand, commandOf, read, be16, writeU16BE, asked, within]

theorem arrives_writeCoil (code : req.functionCode = 0x05) (built : requestPdu req = some pdu) : Arrives req pdu := by
  obtain ⟨transport, tid, unitId, fc, addr, qty, words, bytes⟩ := req
  simp only at code
  subst code
  match words, built with
  | [v], built =>
    change (if (v != 0x0000 && v != 0xFF00) = true then none else some _) = some pdu at built
    simp only [Option.ite_none_left_eq_some, Option.some.injEq] at built
    obtain ⟨value, rfl⟩ := built
    refine ⟨?_, List.cons_ne_nil _ _, by simp [writeU16BE], by simp [isMultipleWrite]⟩
    show decodeCommand [0x05, high addr, low addr, high v, low v] = some (.writeCoil addr v)
    simp only [Bool.and_eq_true, bne_iff_ne, ne_eq, not_and, not_not] at value
    simp [decodeCommand, isReadCode, be16]
    exact fun other => not_not.mp (fun nonzero => other (value nonzero))

theorem arrives_writeRegister (code : req.functionCode = 0x06) (built : requestPdu req = some pdu) :
    Arrives req pdu := by
  obtain ⟨transport, tid, unitId, fc, addr, qty, words, bytes⟩ := req
  simp only at code
  subst code
  match words, built with
  | [v], built =>
    obtain rfl := Option.some.inj built
    refine ⟨?_, List.cons_ne_nil _ _, by simp [writeU16BE], by simp [isMultipleWrite]⟩
    show decodeCommand [0x06, high addr, low addr, high v, low v] = some (.writeRegister addr v)
    simp [decodeCommand, isReadCode, be16]

theorem arrives_writeCoils (code : req.functionCode = 0x0F) (built : requestPdu req = some pdu)
    (within : req.quantity.toNat ≤ quantityLimit req.functionCode) : Arrives req pdu := by
  obtain ⟨transport, tid, unitId, fc, addr, qty, words, bytes⟩ := req
  simp only at code
  subst code
  change (if (qty == 0 || bytes.isEmpty) = true then none
    else if (bytes.length != (qty.toNat + 7) / 8) = true then none else some _) = some pdu at built
  simp only [Option.ite_none_left_eq_some, Option.some.injEq] at built
  obtain ⟨asked, counted, rfl⟩ := built
  simp only [Bool.or_eq_true, not_or, beq_iff_eq, bne_iff_ne, ne_eq, not_not] at asked counted
  have few : qty.toNat ≤ 1968 := within
  have size : (UInt8.ofNat bytes.length).toNat = bytes.length := by
    rw [UInt8.toNat_ofNat']
    exact Nat.mod_eq_of_lt (by omega)
  rw [← counted]
  refine ⟨decode_writeCoils addr asked.1 few counted, List.cons_ne_nil _ _, ?_, fun _ => ?_⟩
  · simp [writeU16BE]
    omega
  · simp [writeU16BE, size]

theorem arrives_writeRegisters (code : req.functionCode = 0x10) (built : requestPdu req = some pdu)
    (within : req.quantity.toNat ≤ quantityLimit req.functionCode) : Arrives req pdu := by
  obtain ⟨transport, tid, unitId, fc, addr, qty, words, bytes⟩ := req
  simp only at code
  subst code
  change (if (qty == 0 || words.isEmpty) = true then none
    else if (words.length != qty.toNat) = true then none else some _) = some pdu at built
  simp only [Option.ite_none_left_eq_some, Option.some.injEq] at built
  obtain ⟨asked, counted, rfl⟩ := built
  simp only [Bool.or_eq_true, not_or, beq_iff_eq, bne_iff_ne, ne_eq, not_not] at asked counted
  have few : qty.toNat ≤ 123 := within
  have length : qty.toNat * 2 = (bytesOf words).length := by
    rw [length_bytesOf, counted, Nat.mul_comm]
  have size : (UInt8.ofNat (bytesOf words).length).toNat = (bytesOf words).length := by
    rw [UInt8.toNat_ofNat']
    exact Nat.mod_eq_of_lt (by omega)
  rw [length]
  refine ⟨decode_writeRegisters addr asked.1 few counted, List.cons_ne_nil _ _, ?_, fun _ => ?_⟩
  · simp only [writeU16BE, List.length_append, List.length_cons, List.length_nil]
    omega
  · simp only [writeU16BE, List.cons_append, List.nil_append, List.getD_cons_succ, List.getD_cons_zero, size,
      List.drop_succ_cons, List.drop_zero]

/-- Within its limit a request arrives as what it is. -/
theorem decode_requestPdu (built : requestPdu req = some pdu)
    (within : req.quantity.toNat ≤ quantityLimit req.functionCode) : Arrives req pdu := by
  by_cases read : isReadCode req.functionCode = true
  · exact arrives_read read built within
  by_cases coil : req.functionCode = 0x05
  · exact arrives_writeCoil coil built
  by_cases register : req.functionCode = 0x06
  · exact arrives_writeRegister register built
  by_cases coils : req.functionCode = 0x0F
  · exact arrives_writeCoils coils built within
  by_cases registers : req.functionCode = 0x10
  · exact arrives_writeRegisters registers built within
  · simp [requestPdu, read, coil, register, coils, registers] at built

/-- A frame that is built carries a request. -/
theorem built_frame (built : buildRequest req ≠ []) : ∃ pdu, requestPdu req = some pdu ∧
    buildRequest req = match req.transport with
      | .tcp => appendMbap req.transactionId req.slaveAddress (UInt16.ofNat (1 + pdu.length)) ++ pdu
      | .rtu => withCrc (req.slaveAddress :: pdu) := by
  unfold buildRequest at built ⊢
  split at built
  · exact absurd rfl built
  · rename_i addressed
    rw [if_neg addressed]
    cases encoded : requestPdu req with
    | none => simp [encoded] at built
    | some pdu => exact ⟨pdu, rfl, rfl⟩

/-- A request that is built is self-consistent if and only if its quantity is within the limit
of its function code. -/
theorem self_consistent_iff (req : ModbusRequest) (built : buildRequest req ≠ []) :
    SelfConsistent req ↔ req.quantity.toNat ≤ quantityLimit req.functionCode := by
  constructor
  · exact SelfConsistent.within
  · intro within
    obtain ⟨pdu, encoded, frame⟩ := built_frame built
    obtain ⟨decoded, filled, short, counted⟩ := decode_requestPdu encoded within
    refine ⟨⟨pdu, ?_, decoded, counted⟩, ?_, within⟩
    · rw [frame]
      cases req.transport with
      | tcp => simp only [received, mbapRequest_framed _ _ filled short, Option.map_some]
      | rtu => exact rtuRequest_framed req.slaveAddress filled
    · intro tcp
      rw [frame, tcp]
      simp [appendMbap, writeU16BE, readU16BE]
      omega

/-- A write of two registers over TCP. -/
theorem self_consistent_iff_two : SelfConsistent ⟨.tcp, 7, 1, 0x10, 40, 2, [0x1234, 0xABCD], []⟩ :=
  (self_consistent_iff _ (by decide)).mpr (by decide)

/-- A write of 200 registers: its byte count is 400 cut to 144. -/
def longWrite : ModbusRequest :=
  { transport := .tcp, slaveAddress := 1, functionCode := 0x10, quantity := 200,
    registerValues := List.replicate 200 7 }

theorem self_consistent_fails : buildRequest longWrite ≠ [] ∧ ¬SelfConsistent longWrite := by
  refine ⟨by decide +kernel, fun consistent => ?_⟩
  obtain ⟨pdu, arrived, decoded, counted⟩ := consistent.decoded
  have refused : received .tcp (buildRequest longWrite) = none := by decide +kernel
  rw [show longWrite.transport = .tcp from rfl, refused] at arrived
  cases arrived

end Request
end EnerSentry.Sim
