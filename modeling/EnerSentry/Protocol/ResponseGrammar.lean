import EnerSentry.Lib.GuardedReads
import EnerSentry.Protocol.ParseAgreement

/-!
The response frames that the parsers accept, as a grammar, and the parsers once more with every
byte read through a memory that ends with the buffer. A parser never reads past the end and
accepts the frames of the grammar; the TCP parser returns another value than the frame's for
the echo of a single write whose address and value differ.
-/

namespace EnerSentry.Protocol
open EnerSentry.Lib.Packing EnerSentry.Lib.GuardedReads

section Reads
variable (mem : Nat → Option UInt8) (len : Nat)

def fetchU16BE (i : Nat) : Option UInt16 := do
  let h ← mem i
  let l ← mem (i + 1)
  return join h l

def verifyReads : Option Bool :=
  if len < 4 then some false
  else do
    let body ← readMany mem 0 (len - 2)
    let lo ← mem (len - 2)
    let hi ← mem (len - 1)
    return crc16Modbus body == join hi lo

/-- The data of a read response, from the byte `start` on. -/
def readDataReads (resp : ModbusResponse) (start byteCount : Nat) : Option (Option ModbusResponse) :=
  if resp.functionCode == 0x01 || resp.functionCode == 0x02 then do
    let data ← readMany mem start byteCount
    return some { resp with coilBytes := data }
  else if byteCount % 2 != 0 then some none
  else do
    let words ← collect (fun i => fetchU16BE mem (start + 2 * i)) (byteCount / 2)
    return some { resp with registerValues := words }

/-- `parseTcpResponse` read by read; `none` is a read outside of the memory. -/
def parseTcpReads : Option (Option ModbusResponse) :=
  if len < 8 then some none
  else do
    let tid ← fetchU16BE mem 0
    let pid ← fetchU16BE mem 2
    if pid != 0x0000 then return none
    let mbapLen := (← fetchU16BE mem 4).toNat
    if mbapLen < 2 || len < 6 + mbapLen then return none
    let resp : ModbusResponse :=
      { transport := .tcp, transactionId := tid, slaveAddress := ← mem 6, functionCode := ← mem 7 }
    if resp.functionCode &&& 0x80 != 0 then
      if mbapLen != 3 then return none
      return some { resp with isException := true, exceptionCode := ← mem 8 }
    else if isReadCode resp.functionCode then
      if mbapLen < 3 then return none
      let byteCount := (← mem 8).toNat
      if 3 + byteCount != mbapLen then return none
      readDataReads mem resp 9 byteCount
    else if resp.functionCode == 0x05 || resp.functionCode == 0x06 then
      if mbapLen != 6 then return none
      return some { resp with registerValues := [← fetchU16BE mem 8] }
    else if resp.functionCode == 0x0F || resp.functionCode == 0x10 then
      if mbapLen != 6 then return none
      return some resp
    else return none

/-- `parseRtuResponse` read by read. -/
def parseRtuReads : Option (Option ModbusResponse) :=
  if len < 4 then some none
  else do
    if !(← verifyReads mem len) then return none
    let resp : ModbusResponse := { transport := .rtu, slaveAddress := ← mem 0, functionCode := ← mem 1 }
    if resp.functionCode &&& 0x80 != 0 then
      if len != 5 then return none
      return some { resp with isException := true, exceptionCode := ← mem 2 }
    else if isReadCode resp.functionCode then
      if len < 5 then return none
      let byteCount := (← mem 2).toNat
      if 5 + byteCount != len then return none
      readDataReads mem resp 3 byteCount
    else if resp.functionCode == 0x05 || resp.functionCode == 0x06 || resp.functionCode == 0x0F ||
        resp.functionCode == 0x10 then
      if len != 8 then return none
      if resp.functionCode == 0x05 || resp.functionCode == 0x06 then
        return some { resp with registerValues := [← fetchU16BE mem 4] }
      return some resp
    else return none

end Reads

section Confined
variable {buf : List UInt8}

theorem fetchU16BE_holding {i : Nat} (inside : i + 1 < buf.length) :
    fetchU16BE (holding buf) i = some (readU16BE buf i) := by
  simp only [fetchU16BE, holding_inside 0 (show i < buf.length by omega), holding_inside 0 inside, readU16BE,
    Option.bind_eq_bind, Option.bind_some, Option.pure_def]

theorem verifyReads_holding : verifyReads (holding buf) buf.length = some (crc16ModbusVerify buf) := by
  unfold verifyReads crc16ModbusVerify
  split
  · rfl
  · rw [readMany_holding (by omega), holding_inside 0 (by omega), holding_inside 0 (by omega)]
    rfl

theorem readDataReads_holding {resp : ModbusResponse} {start byteCount : Nat}
    (inside : start + byteCount ≤ buf.length) :
    readDataReads (holding buf) resp start byteCount =
      some (readData resp byteCount ((buf.drop start).take byteCount)) := by
  unfold readDataReads readData
  split
  · rw [readMany_holding inside]
    rfl
  · split
    · rfl
    · have length : ((buf.drop start).take byteCount).length = byteCount := by
        rw [List.length_take, List.length_drop]
        omega
      have words : wordsOf ((buf.drop start).take byteCount) =
          (List.range (byteCount / 2)).map (fun i => readU16BE buf (start + 2 * i)) := by
        rw [wordsOf_eq_map, length]
        apply List.map_congr_left
        intro i member
        have below := List.mem_range.mp member
        simp only [readU16BE, List.getD_eq_getElem?_getD, List.getElem?_take_of_lt (show 2 * i < byteCount by omega),
          List.getElem?_take_of_lt (show 2 * i + 1 < byteCount by omega), List.getElem?_drop, Nat.add_assoc]
      rw [collect_eq (fun i => readU16BE buf (start + 2 * i)) fun i below => fetchU16BE_holding (by omega), words]
      rfl

theorem parseTcpReads_holding : parseTcpReads (holding buf) buf.length = some (parseTcpResponse buf) := by
  unfold parseTcpReads parseTcpResponse
  by_cases short : buf.length < 8
  · rw [if_pos short, if_pos short]
  rw [if_neg short, if_neg short, fetchU16BE_holding (by omega), fetchU16BE_holding (by omega),
    fetchU16BE_holding (by omega), holding_inside 0 (by omega), holding_inside 0 (by omega)]
  simp only [Option.bind_eq_bind, Option.bind_some, Option.pure_def]
  by_cases named : (readU16BE buf 2 != 0) = true
  · rw [if_pos named, if_pos named]
  rw [if_neg named, if_neg named]
  by_cases fits : ((decide ((readU16BE buf 4).toNat < 2) || decide (buf.length < 6 + (readU16BE buf 4).toNat))) = true
  · rw [if_pos fits, if_pos fits]
  rw [if_neg fits, if_neg fits]
  simp only [Bool.or_eq_true, decide_eq_true_eq, not_or, Nat.not_lt] at fits
  obtain ⟨least, inside⟩ := fits
  by_cases marked : (buf.getD 7 0 &&& 0x80 != 0) = true
  · rw [if_pos marked, if_pos marked]
    by_cases three : ((readU16BE buf 4).toNat != 3) = true
    · rw [if_pos three, if_pos three]
    · have eight : 8 < buf.length := by
        rw [bne_iff_ne, not_not] at three
        omega
      rw [if_neg three, if_neg three, holding_inside 0 eight]
      rfl
  rw [if_neg marked, if_neg marked]
  by_cases read : isReadCode (buf.getD 7 0) = true
  · rw [if_pos read, if_pos read]
    by_cases counts : (readU16BE buf 4).toNat < 3
    · simp [counts]
    · have eight : 8 < buf.length := by omega
      rw [if_neg counts, holding_inside 0 eight, Option.bind_some]
      by_cases counted : (3 + (buf.getD 8 0).toNat != (readU16BE buf 4).toNat) = true
      · rw [if_pos counted, if_pos (by rw [counted, Bool.or_true])]
      · have whole : 9 + (buf.getD 8 0).toNat ≤ buf.length := by
          rw [bne_iff_ne, not_not] at counted
          omega
        rw [if_neg counted, readDataReads_holding whole, if_neg]
        rw [Bool.or_eq_true, decide_eq_true_eq, not_or]
        exact ⟨counts, counted⟩
  rw [if_neg read, if_neg read]
  by_cases six : ((readU16BE buf 4).toNat != 6) = true
  · simp only [six, if_true]
    split
    · rfl
    · split <;> rfl
  · have ten : 9 < buf.length := by
      rw [bne_iff_ne, not_not] at six
      omega
    simp only [six, fetchU16BE_holding ten, Option.bind_some]
    split
    · rfl
    · split <;> rfl

theorem parseRtuReads_holding : parseRtuReads (holding buf) buf.length = some (parseRtuResponse buf) := by
  unfold parseRtuReads parseRtuResponse
  by_cases short : buf.length < 4
  · rw [if_pos short, if_pos (by rw [decide_eq_true short, Bool.true_or])]
  rw [if_neg short, verifyReads_holding]
  simp only [Option.bind_eq_bind, Option.bind_some, Option.pure_def]
  by_cases checked : crc16ModbusVerify buf = true
  · rw [if_neg (by simp [checked]), if_neg (by simp [checked]; omega), holding_inside 0 (by omega),
      holding_inside 0 (by omega)]
    simp only [Option.bind_some]
    by_cases marked : (buf.getD 1 0 &&& 0x80 != 0) = true
    · rw [if_pos marked, if_pos marked]
      by_cases five : (buf.length != 5) = true
      · rw [if_pos five, if_pos five]
      · have two : 2 < buf.length := by omega
        rw [if_neg five, if_neg five, holding_inside 0 two]
        rfl
    rw [if_neg marked, if_neg marked]
    by_cases read : isReadCode (buf.getD 1 0) = true
    · rw [if_pos read, if_pos read]
      by_cases counts : buf.length < 5
      · rw [if_pos counts, if_pos (by rw [decide_eq_true counts, Bool.true_or])]
      · have two : 2 < buf.length := by omega
        rw [if_neg counts, holding_inside 0 two, Option.bind_some]
        by_cases counted : (5 + (buf.getD 2 0).toNat != buf.length) = true
        · rw [if_pos counted, if_pos (by rw [counted, Bool.or_true])]
        · have whole : 3 + (buf.getD 2 0).toNat ≤ buf.length := by
            rw [bne_iff_ne, not_not] at counted
            omega
          rw [if_neg counted, readDataReads_holding whole, if_neg]
          rw [Bool.or_eq_true, decide_eq_true_eq, not_or]
          exact ⟨counts, counted⟩
    rw [if_neg read, if_neg read]
    by_cases eight : (buf.length != 8) = true
    · simp only [eight, if_true]
      cases (buf.getD 1 0 == 0x05 || buf.getD 1 0 == 0x06) <;> cases buf.getD 1 0 == 0x0F <;>
        cases buf.getD 1 0 == 0x10 <;> rfl
    · have six : 5 < buf.length := by
        rw [bne_iff_ne, not_not] at eight
        omega
      simp only [eight, fetchU16BE_holding six, Option.bind_some]
      cases (buf.getD 1 0 == 0x05 || buf.getD 1 0 == 0x06) <;> cases buf.getD 1 0 == 0x0F <;>
        cases buf.getD 1 0 == 0x10 <;> rfl
  · rw [if_pos (by simpa using checked), if_pos (by simp [checked])]

end Confined

/-- The PDUs of the response grammar: function code and data. -/
inductive ResponsePdu where
  | exception (function code : UInt8) (marked : (function &&& 0x80 != 0) = true)
  | bits (function : UInt8) (data : List UInt8) (known : function = 0x01 ∨ function = 0x02)
      (short : data.length < 256)
  | registers (function : UInt8) (words : List UInt16) (known : function = 0x03 ∨ function = 0x04)
      (short : 2 * words.length < 256)
  | single (function : UInt8) (address value : UInt16) (known : function = 0x05 ∨ function = 0x06)
  | multiple (function : UInt8) (address quantity : UInt16) (known : function = 0x0F ∨ function = 0x10)

namespace ResponsePdu

def bytes : ResponsePdu → List UInt8
  | exception function code _ => [function, code]
  | bits function data _ _ => function :: UInt8.ofNat data.length :: data
  | registers function words _ _ => function :: UInt8.ofNat (2 * words.length) :: bytesOf words
  | single function address value _ => function :: (writeU16BE address ++ writeU16BE value)
  | multiple function address quantity _ => function :: (writeU16BE address ++ writeU16BE quantity)

/-- The fields of a PDU, in a response whose transport and addresses are known. -/
def fields (head : ModbusResponse) : ResponsePdu → ModbusResponse
  | exception function code _ => { head with functionCode := function, isException := true, exceptionCode := code }
  | bits function data _ _ => { head with functionCode := function, coilBytes := data }
  | registers function words _ _ => { head with functionCode := function, registerValues := words }
  | single function _ value _ => { head with functionCode := function, registerValues := [value] }
  | multiple function _ _ _ => { head with functionCode := function }

/-- A PDU goes into a length field. -/
theorem length_bytes (p : ResponsePdu) : 2 ≤ p.bytes.length ∧ p.bytes.length < 258 := by
  cases p with
  | exception => exact ⟨Nat.le_refl _, by simp [bytes]⟩
  | bits function data known short =>
    simp only [bytes, List.length_cons]
    omega
  | registers function words known short =>
    simp only [bytes, List.length_cons, length_bytesOf]
    omega
  | single => simp [bytes, writeU16BE]
  | multiple => simp [bytes, writeU16BE]

theorem readU16BE_value (function : UInt8) (address value : UInt16) :
    readU16BE (function :: (writeU16BE address ++ writeU16BE value)) 3 = value := join_high_low value

/-- What is parsed from the PDUs of the grammar. -/
theorem parsePdu_bytes (head : ModbusResponse) (p : ResponsePdu) :
    parsePdu head 3 p.bytes = some (p.fields head) := by
  cases p with
  | exception function code marked =>
    simp only [bytes, parsePdu, marked, if_true]
    rfl
  | bits function data known short =>
    have counted : (UInt8.ofNat data.length).toNat = data.length := by
      rw [UInt8.toNat_ofNat']
      exact Nat.mod_eq_of_lt short
    rcases known with rfl | rfl <;>
    · simp only [bytes, parsePdu, counted, bne_self_eq_false, Bool.false_eq_true, if_false]
      rfl
  | registers function words known short =>
    have counted : (UInt8.ofNat (2 * words.length)).toNat = (bytesOf words).length := by
      rw [UInt8.toNat_ofNat', length_bytesOf]
      exact Nat.mod_eq_of_lt short
    have even : (bytesOf words).length % 2 = 0 := by
      rw [length_bytesOf]
      omega
    rcases known with rfl | rfl <;>
    · simp only [bytes, parsePdu, readData, counted, even, wordsOf_bytesOf, bne_self_eq_false, Bool.false_eq_true,
        if_false]
      rfl
  | single function address value known =>
    rcases known with rfl | rfl <;>
    · simp only [bytes, parsePdu, readU16BE_value]
      rfl
  | multiple function address quantity known =>
    rcases known with rfl | rfl <;> rfl

/-- Nothing else is parsed. -/
theorem exists_of_parsePdu {head r : ModbusResponse} {pdu : List UInt8} (parsed : parsePdu head 3 pdu = some r) :
    ∃ p : ResponsePdu, pdu = p.bytes ∧ r = p.fields head := by
  cases pdu with
  | nil => cases parsed
  | cons function rest =>
    unfold parsePdu at parsed
    by_cases marked : (function &&& 0x80 != 0) = true
    · simp only [marked, if_true, Option.ite_none_left_eq_some, bne_iff_ne, not_not, Option.some.injEq] at parsed
      obtain ⟨one, rfl⟩ := parsed
      obtain ⟨code, rfl⟩ := List.length_eq_one_iff.mp one
      exact ⟨exception function code marked, rfl, rfl⟩
    simp only [marked, Bool.false_eq_true, if_false] at parsed
    by_cases read : isReadCode function = true
    · rw [if_pos read] at parsed
      cases rest with
      | nil => cases parsed
      | cons byteCount data =>
        simp only [Option.ite_none_left_eq_some, bne_iff_ne, not_not] at parsed
        obtain ⟨counted, parsed⟩ := parsed
        have short : data.length < 256 := counted ▸ byteCount.toNat_lt
        have count : byteCount = UInt8.ofNat data.length := by rw [← counted, UInt8.ofNat_toNat]
        unfold readData at parsed
        by_cases packed : function = 0x01 ∨ function = 0x02
        · rw [if_pos (by simpa using packed)] at parsed
          obtain rfl := Option.some.inj parsed
          exact ⟨bits function data packed short, by rw [count, bytes], rfl⟩
        · have known : function = 0x03 ∨ function = 0x04 := by
            simpa [isReadCode, or_assoc, not_or.mp packed] using read
          rw [if_neg (by simpa using packed)] at parsed
          simp only [Option.ite_none_left_eq_some, bne_iff_ne, not_not, Option.some.injEq] at parsed
          obtain ⟨even, rfl⟩ := parsed
          have whole := bytesOf_wordsOf even
          have size : 2 * (wordsOf data).length = data.length := by rw [← length_bytesOf, whole]
          exact ⟨registers function (wordsOf data) known (by omega), by rw [bytes, whole, size, ← count], rfl⟩
    rw [if_neg read] at parsed
    by_cases one : (function == 0x05 || function == 0x06) = true
    · simp only [one, if_true, Option.ite_none_left_eq_some, bne_iff_ne, not_not, Option.some.injEq] at parsed
      obtain ⟨four, rfl⟩ := parsed
      obtain ⟨a, b, c, d, rfl⟩ := List.length_eq_four.mp four
      have known : function = 0x05 ∨ function = 0x06 := by simpa using one
      exact ⟨single function (join a b) (join c d) known, by simp [bytes, writeU16BE], rfl⟩
    · simp only [one, Bool.false_eq_true, if_false, Option.ite_none_right_eq_some, Option.ite_none_left_eq_some,
        bne_iff_ne, not_not, Option.some.injEq] at parsed
      obtain ⟨many, four, rfl⟩ := parsed
      obtain ⟨a, b, c, d, rfl⟩ := List.length_eq_four.mp four
      have known : function = 0x0F ∨ function = 0x10 := by simpa using many
      exact ⟨multiple function (join a b) (join c d) known, by simp [bytes, writeU16BE], rfl⟩

end ResponsePdu

section Frames
variable {buf : List UInt8} {r : ModbusResponse}

/-- A serial frame of the grammar, with its fields. -/
def RtuFrame (buf : List UInt8) (r : ModbusResponse) : Prop :=
  ∃ (unitId : UInt8) (p : ResponsePdu),
    buf = withCrc (unitId :: p.bytes) ∧ r = p.fields { transport := .rtu, slaveAddress := unitId }

/-- A TCP frame of the grammar, with its fields. Bytes may follow it in the buffer. -/
def TcpFrame (buf : List UInt8) (r : ModbusResponse) : Prop :=
  ∃ (tid : UInt16) (unitId : UInt8) (p : ResponsePdu) (trailing : List UInt8),
    buf = appendMbap tid unitId (UInt16.ofNat (1 + p.bytes.length)) ++ p.bytes ++ trailing ∧
      r = p.fields { transport := .tcp, transactionId := tid, slaveAddress := unitId }

/-- A correct checksum stands behind the bytes it covers. -/
theorem withCrc_of_verify (checked : crc16ModbusVerify buf = true) : ∃ a b rest, buf = withCrc (a :: b :: rest) := by
  unfold crc16ModbusVerify at checked
  by_cases short : buf.length < 4
  · rw [if_pos short] at checked
    cases checked
  rw [if_neg short] at checked
  obtain ⟨a, b, rest, body⟩ : ∃ a b rest, buf.take (buf.length - 2) = a :: b :: rest := by
    have covered : (buf.take (buf.length - 2)).length = buf.length - 2 := by
      rw [List.length_take]
      omega
    rcases took : buf.take (buf.length - 2) with _ | ⟨a, _ | ⟨b, rest⟩⟩
    · rw [took, List.length_nil] at covered
      omega
    · rw [took, List.length_singleton] at covered
      omega
    · exact ⟨a, b, rest, rfl⟩
  obtain ⟨lo, hi, sum⟩ : ∃ lo hi, buf.drop (buf.length - 2) = [lo, hi] := by
    apply List.length_eq_two.mp
    rw [List.length_drop]
    omega
  have split : buf = a :: b :: (rest ++ [lo, hi]) := by
    rw [← List.take_append_drop (buf.length - 2) buf, body, sum]
    rfl
  have size : buf.length = rest.length + 4 := by simp [split]
  have low : buf.getD (buf.length - 2) 0 = lo := by
    rw [size, split]
    simp
  have high : buf.getD (buf.length - 1) 0 = hi := by
    rw [size, split]
    simp
  rw [body, low, high] at checked
  refine ⟨a, b, rest, ?_⟩
  rw [withCrc, eq_of_beq checked, low_join, high_join, split]
  rfl

/-- The serial parser accepts the frames of the grammar. -/
theorem parseRtu_iff : parseRtuResponse buf = some r ↔ RtuFrame buf r := by
  constructor
  · intro parsed
    have checked : crc16ModbusVerify buf = true := by
      by_contra wrong
      rw [parseRtuResponse, if_pos (by simp [wrong])] at parsed
      cases parsed
    obtain ⟨unitId, function, rest, rfl⟩ := withCrc_of_verify checked
    rw [parseRtu_framed] at parsed
    obtain ⟨p, bytes, fields⟩ := ResponsePdu.exists_of_parsePdu parsed
    exact ⟨unitId, p, by rw [bytes], fields⟩
  · rintro ⟨unitId, p, rfl, rfl⟩
    rw [parseRtu_framed, ResponsePdu.parsePdu_bytes]

/-- Bytes behind a TCP frame do not count. -/
theorem parseTcp_trailing {frame : List UInt8} (trailing : List UInt8) (long : 8 ≤ frame.length)
    (whole : frame.length = 6 + (readU16BE frame 4).toNat) :
    parseTcpResponse (frame ++ trailing) = parseTcpResponse frame := by
  have byte : ∀ i < frame.length, (frame ++ trailing).getD i 0 = frame.getD i 0 := fun i inside =>
    List.getD_append _ _ _ _ inside
  have word : ∀ i, i + 1 < frame.length → readU16BE (frame ++ trailing) i = readU16BE frame i := fun i inside => by
    rw [readU16BE, byte i (by omega), byte (i + 1) inside, readU16BE]
  have data : ∀ n, 9 + n ≤ frame.length → ((frame ++ trailing).drop 9).take n = (frame.drop 9).take n := by
    intro n inside
    rw [List.drop_append_of_le_length (by omega), List.take_append_of_le_length (by rw [List.length_drop]; omega)]
  have fits : ∀ n, frame.length ≤ n → ((decide ((readU16BE frame 4).toNat < 2) ||
      decide (n < 6 + (readU16BE frame 4).toNat)) = true) = False := by
    intro n inside
    rw [eq_iff_iff, iff_false, Bool.or_eq_true, decide_eq_true_eq, decide_eq_true_eq]
    omega
  have short : ¬frame.length < 8 ∧ ¬(frame ++ trailing).length < 8 := by
    rw [List.length_append]
    omega
  simp only [parseTcpResponse, short.1, short.2, if_false, word 0 (by omega), word 2 (by omega), word 4 (by omega),
    byte 6 (by omega), byte 7 (by omega)]
  by_cases named : (readU16BE frame 2 != 0) = true
  · simp only [named, if_true]
  simp only [named, Bool.false_eq_true, if_false, fits frame.length (Nat.le_refl _),
    fits (frame ++ trailing).length (by rw [List.length_append]; omega)]
  by_cases two : (readU16BE frame 4).toNat = 2
  · simp [two]
  rw [byte 8 (by omega)]
  by_cases read : (readU16BE frame 4).toNat < 3 ∨ 3 + (frame.getD 8 0).toNat ≠ (readU16BE frame 4).toNat
  · have refused : (decide ((readU16BE frame 4).toNat < 3) ||
        3 + (frame.getD 8 0).toNat != (readU16BE frame 4).toNat) = true := by simpa using read
    simp only [refused, if_true]
    by_cases six : (readU16BE frame 4).toNat = 6
    · rw [word 8 (by omega)]
    · simp [six]
  · rw [data _ (by omega)]
    by_cases six : (readU16BE frame 4).toNat = 6
    · rw [word 8 (by omega)]
    · simp [six]

/-- A header of TCP with the frame it announces. -/
structure TcpFramed (buf : List UInt8) (tid : UInt16) (unitId : UInt8) (pdu trailing : List UInt8) : Prop where
  present : pdu ≠ []
  short : pdu.length < 65535
  bytes : buf = appendMbap tid unitId (UInt16.ofNat (1 + pdu.length)) ++ pdu ++ trailing

namespace TcpFramed
variable {tid tid' : UInt16} {unitId unitId' : UInt8} {pdu pdu' trailing trailing' : List UInt8}

theorem lengthField (short : pdu.length < 65535) : (UInt16.ofNat (1 + pdu.length)).toNat = 1 + pdu.length := by
  rw [UInt16.toNat_ofNat']
  exact Nat.mod_eq_of_lt (by omega)

theorem header (framed : TcpFramed buf tid unitId pdu trailing) :
    readU16BE buf 2 = 0 ∧ (readU16BE buf 4).toNat = 1 + pdu.length ∧ 7 + pdu.length ≤ buf.length := by
  obtain ⟨-, short, rfl⟩ := framed
  refine ⟨show join (high 0) (low 0) = 0 from join_high_low 0, ?_, ?_⟩
  · exact (congrArg UInt16.toNat (join_high_low _)).trans (lengthField short)
  · simp [appendMbap, writeU16BE]
    omega

/-- A buffer holds one frame at most. -/
theorem unique (framed : TcpFramed buf tid unitId pdu trailing) (other : TcpFramed buf tid' unitId' pdu' trailing') :
    tid = tid' ∧ unitId = unitId' ∧ pdu = pdu' := by
  have size : pdu.length = pdu'.length := by
    have here := framed.header.2.1
    have there := other.header.2.1
    omega
  have same := framed.bytes.symm.trans other.bytes
  rw [size, List.append_assoc, List.append_assoc] at same
  obtain ⟨headers, rest⟩ := List.append_inj same rfl
  have first := congrArg (fun l => readU16BE l 0) headers
  have unit := congrArg (fun l => l.getD 6 0) headers
  refine ⟨?_, unit, (List.append_inj rest size).1⟩
  exact (join_high_low tid).symm.trans (first.trans (join_high_low tid'))

theorem parse (framed : TcpFramed buf tid unitId pdu trailing) : parseTcpResponse buf =
    parsePdu { transport := .tcp, transactionId := tid, slaveAddress := unitId } 1 pdu := by
  have head : TcpFramed (appendMbap tid unitId (UInt16.ofNat (1 + pdu.length)) ++ pdu) tid unitId pdu [] :=
    ⟨framed.present, framed.short, (List.append_nil _).symm⟩
  have field := head.header.2.1
  have size : (appendMbap tid unitId (UInt16.ofNat (1 + pdu.length)) ++ pdu).length = 7 + pdu.length := by
    rw [List.length_append]
    rfl
  have nonempty := List.length_pos_iff.mpr framed.present
  rw [framed.bytes, parseTcp_trailing trailing (by omega) (by omega),
    parseTcp_framed unitId tid _ pdu (lengthField framed.short)]

theorem frame_iff (framed : TcpFramed buf tid unitId pdu trailing) : TcpFrame buf r ↔
    parsePdu { transport := .tcp, transactionId := tid, slaveAddress := unitId } 3 pdu = some r := by
  constructor
  · rintro ⟨tid', unitId', p, trailing', bytes, rfl⟩
    have size := p.length_bytes
    have other : TcpFramed buf tid' unitId' p.bytes trailing' :=
      ⟨List.length_pos_iff.mp (by omega), by omega, bytes⟩
    obtain ⟨rfl, rfl, rfl⟩ := framed.unique other
    exact ResponsePdu.parsePdu_bytes _ p
  · intro parsed
    obtain ⟨p, rfl, rfl⟩ := ResponsePdu.exists_of_parsePdu parsed
    exact ⟨tid, unitId, p, trailing, framed.bytes, rfl⟩

end TcpFramed

/-- The header that is looked for. -/
def headed (buf : List UInt8) : Bool :=
  readU16BE buf 2 == 0 && decide (2 ≤ (readU16BE buf 4).toNat) && decide (6 + (readU16BE buf 4).toNat ≤ buf.length)

theorem headed_iff : headed buf = true ↔ ∃ tid unitId pdu trailing, TcpFramed buf tid unitId pdu trailing := by
  constructor
  · intro found
    simp only [headed, Bool.and_eq_true, beq_iff_eq, decide_eq_true_eq] at found
    obtain ⟨⟨pid, least⟩, inside⟩ := found
    have long : 7 ≤ buf.length := by omega
    obtain ⟨a, b, c, d, e, f, u, rest, rfl⟩ : ∃ a b c d e f u rest, buf = a :: b :: c :: d :: e :: f :: u :: rest := by
      rcases buf with _ | ⟨a, _ | ⟨b, _ | ⟨c, _ | ⟨d, _ | ⟨e, _ | ⟨f, _ | ⟨u, rest⟩⟩⟩⟩⟩⟩⟩ <;>
        first | exact ⟨_, _, _, _, _, _, _, _, rfl⟩ | exact absurd long (by simp)
    have field : readU16BE (a :: b :: c :: d :: e :: f :: u :: rest) 4 = join e f := rfl
    rw [field] at least inside
    have zero : join c d = 0 := pid
    have first : c = 0 := (high_join c d).symm.trans (by rw [zero]; rfl)
    have second : d = 0 := (low_join c d).symm.trans (by rw [zero]; rfl)
    have bound := (join e f).toNat_lt
    have size : (rest.take ((join e f).toNat - 1)).length = (join e f).toNat - 1 := by
      rw [List.length_take]
      simp only [List.length_cons] at inside
      omega
    refine ⟨join a b, u, rest.take ((join e f).toNat - 1), rest.drop ((join e f).toNat - 1), ?_, ?_, ?_⟩
    · exact List.length_pos_iff.mp (by omega)
    · omega
    · rw [size, show 1 + ((join e f).toNat - 1) = (join e f).toNat by omega, UInt16.ofNat_toNat, first, second,
        List.append_assoc, List.take_append_drop]
      simp [appendMbap, writeU16BE]
      decide
  · rintro ⟨tid, unitId, pdu, trailing, framed⟩
    obtain ⟨pid, field, inside⟩ := framed.header
    have nonempty := List.length_pos_iff.mpr framed.present
    simp only [headed, Bool.and_eq_true, beq_iff_eq, decide_eq_true_eq]
    exact ⟨⟨pid, by omega⟩, by omega⟩

/-- The echo of a single write over TCP whose address is not the written value. -/
def misreadEcho (buf : List UInt8) : Bool :=
  headed buf && (buf.getD 7 0 == 0x05 || buf.getD 7 0 == 0x06) && readU16BE buf 4 == 6 &&
    readU16BE buf 8 != readU16BE buf 10

theorem TcpFramed.misread {tid : UInt16} {unitId : UInt8} {pdu trailing : List UInt8}
    (framed : TcpFramed buf tid unitId pdu trailing) : misreadEcho buf = misread pdu := by
  have found : headed buf = true := headed_iff.mpr ⟨tid, unitId, pdu, trailing, framed⟩
  have field := framed.header.2.1
  have six : readU16BE buf 4 = 6 ↔ pdu.length = 5 := by
    rw [← UInt16.toNat_inj, field]
    show 1 + pdu.length = 6 ↔ pdu.length = 5
    omega
  have place : ∀ i, i < pdu.length → buf.getD (7 + i) 0 = pdu.getD i 0 := by
    intro i inside
    rw [framed.bytes, List.append_assoc, List.getD_append_right _ _ _ _ (by simp [appendMbap, writeU16BE])]
    have offset : 7 + i - (appendMbap tid unitId (UInt16.ofNat (1 + pdu.length))).length = i := by
      simp [appendMbap, writeU16BE]
    rw [offset, List.getD_append _ _ _ _ inside]
  have nonempty := List.length_pos_iff.mpr framed.present
  have function : buf.getD 7 0 = pdu.headD 0 := by
    rw [place 0 nonempty]
    cases pdu <;> rfl
  by_cases five : pdu.length = 5
  · have address : readU16BE buf 8 = readU16BE pdu 1 := by
      rw [readU16BE, place 1 (by omega), place 2 (by omega), readU16BE]
    have value : readU16BE buf 10 = readU16BE pdu 3 := by
      rw [readU16BE, place 3 (by omega), place 4 (by omega), readU16BE]
    rw [misreadEcho, EnerSentry.Protocol.misread, found, function, six.mpr five, five, address, value]
    simp
  · have other : (readU16BE buf 4 == 6) = false := by simpa using fun same => five (six.mp same)
    rw [misreadEcho, EnerSentry.Protocol.misread, other]
    simp [five]

theorem parseTcp_of_not_headed (lost : ¬headed buf = true) : parseTcpResponse buf = none := by
  unfold parseTcpResponse
  split
  · rfl
  · split
    · rfl
    · rename_i pid
      rw [if_pos]
      by_contra fits
      apply lost
      simp only [Bool.or_eq_true, decide_eq_true_eq, not_or, Nat.not_lt] at fits
      simpa [headed, fits] using pid

/-- The TCP parser accepts the frames of the grammar with their fields, but for these echoes. -/
theorem parseTcp_iff : (∀ r, parseTcpResponse buf = some r ↔ TcpFrame buf r) ↔ misreadEcho buf = false := by
  by_cases found : headed buf = true
  · obtain ⟨tid, unitId, pdu, trailing, framed⟩ := headed_iff.mp found
    simp only [framed.parse, framed.frame_iff, framed.misread]
    rw [← parsePdu_echo_iff { transport := .tcp, transactionId := tid, slaveAddress := unitId } pdu]
    exact ⟨fun same => (Option.ext same).symm, fun same r => by rw [same]⟩
  · have refused := parseTcp_of_not_headed found
    have none : ∀ r, ¬TcpFrame buf r := by
      rintro r ⟨tid, unitId, p, trailing, bytes, -⟩
      have size := p.length_bytes
      exact found (headed_iff.mpr ⟨tid, unitId, p.bytes, trailing, List.length_pos_iff.mp (by omega), by omega, bytes⟩)
    have exact : ∀ r, parseTcpResponse buf = some r ↔ TcpFrame buf r := by
      intro r
      simp [refused, none r]
    exact ⟨fun _ => by simp [misreadEcho, found], fun _ => exact⟩

/-- Nothing is read past the end, and the frames of the grammar are accepted with their fields. -/
structure ParsersExact (buf : List UInt8) : Prop where
  tcpReads : parseTcpReads (holding buf) buf.length = some (parseTcpResponse buf)
  rtuReads : parseRtuReads (holding buf) buf.length = some (parseRtuResponse buf)
  tcp : ∀ r, parseTcpResponse buf = some r ↔ TcpFrame buf r
  rtu : ∀ r, parseRtuResponse buf = some r ↔ RtuFrame buf r

theorem parsers_exact_iff (buf : List UInt8) : ParsersExact buf ↔ misreadEcho buf = false :=
  ⟨fun exact => parseTcp_iff.mp exact.tcp, fun read =>
    ⟨parseTcpReads_holding, parseRtuReads_holding, parseTcp_iff.mpr read, fun _ => parseRtu_iff⟩⟩

/-- The echo of 55 written to register 1 over TCP comes out as 1. -/
theorem parsers_exact_fails : ¬ParsersExact [0, 9, 0, 0, 0, 6, 1, 0x06, 0, 1, 0, 55] := by
  intro exact
  have clean : misreadEcho [0, 9, 0, 0, 0, 6, 1, 0x06, 0, 1, 0, 55] = false := parseTcp_iff.mp exact.tcp
  exact absurd clean (by decide)

end Frames

end EnerSentry.Protocol
