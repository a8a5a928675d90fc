import EnerSentry.Protocol.ModbusFrame

/-!
The two response parsers against each other. On a well-framed response both look at unit id
and PDU alone, and they look at the same places but for one: the written value of a write
echo, which the TCP parser takes from where the address stands.
-/

namespace EnerSentry.Protocol
open EnerSentry.Lib.Packing

/-- What a parser makes of a PDU once the framing is off; `echo` is where it looks for the
written value. -/
def parsePdu (head : ModbusResponse) (echo : Nat) (pdu : List UInt8) : Option ModbusResponse :=
  match pdu with
  | [] => none
  | fc :: rest =>
      let resp := { head with functionCode := fc }
      if fc &&& 0x80 != 0 then
        if rest.length != 1 then none
        else some { resp with isException := true, exceptionCode := rest.getD 0 0 }
      else if isReadCode fc then
        match rest with
        | [] => none
        | byteCount :: data => if byteCount.toNat != data.length then none else readData resp data.length data
      else if fc == 0x05 || fc == 0x06 then
        if rest.length != 4 then none else some { resp with registerValues := [readU16BE pdu echo] }
      else if fc == 0x0F || fc == 0x10 then
        if rest.length != 4 then none else some resp
      else none

section Framed
variable (unitId fc : UInt8) (rest : List UInt8)

/-- A serial frame is parsed by its PDU, the value of an echo in its place. -/
theorem parseRtu_framed (pdu : List UInt8) :
    parseRtuResponse (withCrc (unitId :: pdu)) = parsePdu { transport := .rtu, slaveAddress := unitId } 3 pdu := by
  cases pdu with
  | nil => simp [parseRtuResponse, parsePdu, length_withCrc]
  | cons fc rest =>
    have checked : crc16ModbusVerify (withCrc (unitId :: fc :: rest)) = true := verify_withCrc (by simp)
    obtain ⟨lo, hi, framed⟩ : ∃ lo hi, withCrc (unitId :: fc :: rest) = unitId :: fc :: (rest ++ [lo, hi]) :=
      ⟨_, _, rfl⟩
    rw [framed] at checked ⊢
    have long : (unitId :: fc :: (rest ++ [lo, hi])).length = rest.length + 4 := by simp
    simp only [parseRtuResponse, parsePdu, checked, long, List.getD_cons_zero, List.getD_cons_succ]
    rw [if_neg (by simp)]
    by_cases flagged : (fc &&& 0x80 != 0) = true
    · rw [if_pos flagged, if_pos flagged]
      by_cases one : rest.length = 1
      · obtain ⟨code, rfl⟩ := List.length_eq_one_iff.mp one
        simp
      · simp [one]
    · rw [if_neg flagged, if_neg flagged]
      by_cases read : isReadCode fc = true
      · rw [if_pos read, if_pos read]
        cases rest with
        | nil => simp
        | cons byteCount data =>
          by_cases counted : byteCount.toNat = data.length
          · have inside : ¬(data.length + 1 + 4 < 5 ∨ ¬5 + data.length = data.length + 1 + 4) := by omega
            simp [counted, inside]
          · have miscounted : ¬5 + byteCount.toNat = data.length + 1 + 4 := by omega
            simp [counted, miscounted]
      · rw [if_neg read, if_neg read]
        by_cases four : rest.length = 4
        · have echo : readU16BE (unitId :: fc :: (rest ++ [lo, hi])) 4 = readU16BE (fc :: rest) 3 := by
            obtain ⟨a, b, c, d, rfl⟩ := List.length_eq_four.mp four
            rfl
          simp [four, echo]
        · simp [four]

/-- A TCP frame is parsed by its PDU, but the value of an echo where the address is. -/
theorem parseTcp_framed (tid mbapLen : UInt16) (pdu : List UInt8) (correct : mbapLen.toNat = 1 + pdu.length) :
    parseTcpResponse (appendMbap tid unitId mbapLen ++ pdu) =
      parsePdu { transport := .tcp, transactionId := tid, slaveAddress := unitId } 1 pdu := by
  have header : ∃ a b c d, appendMbap tid unitId mbapLen = [a, b, 0, 0, c, d, unitId] ∧ join a b = tid ∧
      join c d = mbapLen :=
  ⟨high tid, low tid, high mbapLen, low mbapLen, rfl, join_high_low tid, join_high_low mbapLen⟩
  obtain ⟨a, b, c, d, framed, named, counted⟩ := header
  rw [framed]
  cases pdu with
  | nil => simp [parseTcpResponse, parsePdu]
  | cons fc rest =>
    have size : mbapLen.toNat = rest.length + 2 := by
      rw [correct, List.length_cons]
      omega
    have read16 : ∀ l : List UInt8, readU16BE (a :: b :: l) 0 = tid ∧
        readU16BE (a :: b :: 0 :: 0 :: l) 2 = 0 ∧ readU16BE (a :: b :: 0 :: 0 :: c :: d :: l) 4 = mbapLen :=
      fun l => ⟨named, show join 0 0 = 0 by decide, counted⟩
    simp only [parseTcpResponse, parsePdu, List.cons_append, List.nil_append, (read16 _).1, (read16 _).2.1,
      (read16 _).2.2, size, List.length_cons, List.getD_cons_zero, List.getD_cons_succ]
    rw [if_neg (by omega), if_neg (by decide), if_neg (by simp; omega)]
    by_cases flagged : (fc &&& 0x80 != 0) = true
    · rw [if_pos flagged, if_pos flagged]
      by_cases one : rest.length = 1 <;> simp [one]
    · rw [if_neg flagged, if_neg flagged]
      by_cases read : isReadCode fc = true
      · rw [if_pos read, if_pos read]
        cases rest with
        | nil => simp
        | cons byteCount data =>
          by_cases measured : byteCount.toNat = data.length
          · have inside : ¬(data.length + 1 + 2 < 3 ∨ ¬3 + data.length = data.length + 1 + 2) := by omega
            simp [measured, inside]
          · have miscounted : ¬3 + byteCount.toNat = data.length + 1 + 2 := by omega
            simp [measured, miscounted]
      · rw [if_neg read, if_neg read]
        by_cases four : rest.length = 4 <;> simp [four, readU16BE]

end Framed

/-- A response with the marks of its transport taken off. -/
def untagged (resp : ModbusResponse) : ModbusResponse := { resp with transport := .rtu, transactionId := 0 }

section Untagged
variable (head : ModbusResponse) (pdu : List UInt8)

theorem untagged_readData (byteCount : Nat) (data : List UInt8) :
    (readData head byteCount data).map untagged = readData (untagged head) byteCount data := by
  unfold readData
  show Option.map untagged (if (head.functionCode == 0x01 || head.functionCode == 0x02) = true then _ else _) =
    if (head.functionCode == 0x01 || head.functionCode == 0x02) = true then _ else _
  split
  · rfl
  · split <;> rfl

theorem untagged_parsePdu (echo : Nat) :
    (parsePdu head echo pdu).map untagged = parsePdu (untagged head) echo pdu := by
  cases pdu with
  | nil => rfl
  | cons fc rest =>
    simp only [parsePdu, apply_ite (Option.map untagged), Option.map_some, Option.map_none]
    cases rest with
    | nil => rfl
    | cons byteCount data =>
      simp only [apply_ite (Option.map untagged), Option.map_none, untagged_readData]
      rfl

/-- A write echo whose address is not the written value. -/
def misread (pdu : List UInt8) : Bool :=
  (pdu.headD 0 == 0x05 || pdu.headD 0 == 0x06) && pdu.length == 5 && readU16BE pdu 1 != readU16BE pdu 3

theorem parsePdu_echo_iff : parsePdu head 3 pdu = parsePdu head 1 pdu ↔ misread pdu = false := by
  cases pdu with
  | nil => simp [parsePdu, misread]
  | cons fc rest =>
    by_cases write : (fc == 0x05 || fc == 0x06) = true
    · have plain : (fc &&& 0x80 != 0) = false ∧ isReadCode fc = false := by
        rcases Bool.or_eq_true_iff.mp write with same | same
        · rw [eq_of_beq same]
          decide
        · rw [eq_of_beq same]
          decide
      by_cases four : rest.length = 4
      · simp only [parsePdu, misread, plain, write, four, List.headD_cons, List.length_cons]
        simp only [Bool.false_eq_true, if_true, if_false, bne_self_eq_false, Option.some.injEq,
          ModbusResponse.mk.injEq, List.cons.injEq, and_true, true_and, Nat.reduceAdd, BEq.rfl, Bool.and_self,
          Bool.true_and, bne_eq_false_iff_eq]
        exact eq_comm
      · simp [parsePdu, misread, plain, write, four]
    · simp [parsePdu, misread, write]

end Untagged

/-- A response that comes over either transport is parsed the same. -/
def ParsersAgree (tid mbapLen : UInt16) (unitId : UInt8) (pdu : List UInt8) : Prop :=
  (parseRtuResponse (withCrc (unitId :: pdu))).map untagged =
    (parseTcpResponse (appendMbap tid unitId mbapLen ++ pdu)).map untagged

/-- The two parsers agree on a PDU unless it is a write echo whose address and value differ. -/
theorem parsers_agree_iff (tid mbapLen : UInt16) (unitId : UInt8) (pdu : List UInt8)
    (correct : mbapLen.toNat = 1 + pdu.length) : ParsersAgree tid mbapLen unitId pdu ↔ misread pdu = false := by
  rw [ParsersAgree, parseRtu_framed, parseTcp_framed unitId tid mbapLen pdu correct, untagged_parsePdu,
    untagged_parsePdu]
  exact parsePdu_echo_iff { slaveAddress := unitId } pdu

/-- The echo of 55 written to register 55. -/
theorem parsers_agree_iff_echo : ParsersAgree 9 6 1 [0x06, 0, 55, 0, 55] :=
  (parsers_agree_iff 9 6 1 [0x06, 0, 55, 0, 55] (by decide)).mpr (by decide)

/-- The echo of 55 written to register 1 reads as 1 over TCP. -/
theorem parsers_agree_fails : ¬ParsersAgree 9 6 1 [0x06, 0, 1, 0, 55] := by
  unfold ParsersAgree
  decide +kernel

end EnerSentry.Protocol
