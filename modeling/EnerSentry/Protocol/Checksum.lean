import EnerSentry.Lib.Crc
import EnerSentry.Protocol.Resynchronisation

/-!
The checksum of a serial frame is taken a byte at a time from a table where a frame is built or
parsed, and a bit at a time over the ring. Both come to the same value.
-/

namespace EnerSentry.Protocol
open EnerSentry.Lib EnerSentry.Lib.Packing

/-- The reflected polynomial. -/
def polynomial : BitVec 16 := 0xA001#16

theorem lowest_bit (x : UInt16) : (x &&& 0x0001 != 0) = x.toBitVec.getLsbD 0 := by
  have one : (x &&& 0x0001).toBitVec = BitVec.setWidth 16 (BitVec.ofBool (x.toBitVec.getLsbD 0)) := by
    rw [UInt16.toBitVec_and]
    exact BitVec.and_one_eq_setWidth_ofBool_getLsbD
  cases bit : x.toBitVec.getLsbD 0 with
  | false =>
    have clear : x &&& 0x0001 = 0 := UInt16.toBitVec_inj.mp (by rw [one, bit]; decide)
    simp [clear]
  | true =>
    have set : x &&& 0x0001 = 1 := UInt16.toBitVec_inj.mp (by rw [one, bit]; decide)
    simp [set]

theorem toBitVec_crc16Shift (x : UInt16) : (crc16Shift x).toBitVec = Crc.shift polynomial x.toBitVec := by
  rw [crc16Shift, Crc.shift, lowest_bit]
  cases x.toBitVec.getLsbD 0 with
  | false => simp
  | true => simp [polynomial]

theorem toBitVec_shifts (n : Nat) (x : UInt16) :
    (Nat.repeat crc16Shift n x).toBitVec = (Crc.shift polynomial)^[n] x.toBitVec := by
  induction n with
  | zero => rfl
  | succ n ih => rw [Nat.repeat, toBitVec_crc16Shift, ih, Function.iterate_succ_apply']

/-- Every index has its entry in the table. -/
theorem crc16ModbusTable_getD {i : Nat} (inside : i < 256) :
    crc16ModbusTable.getD i 0 = crc16ModbusEntry (UInt8.ofNat i) := by
  rw [crc16ModbusTable, List.getD_eq_getElem?_getD, List.getElem?_map, List.getElem?_range inside]
  rfl

theorem index_lt (x : UInt16) : (x &&& 0xFF).toNat < 256 := by
  rw [UInt16.toNat_and]
  exact Nat.lt_of_le_of_lt Nat.and_le_right (by decide)

theorem toUInt16_index (x : UInt16) : (UInt8.ofNat (x &&& 0xFF).toNat).toUInt16 = x &&& 0xFF := by
  apply UInt16.toNat_inj.mp
  rw [UInt8.toNat_toUInt16, UInt8.toNat_ofNat', Nat.mod_eq_of_lt (index_lt x)]

/-- One look-up does what eight shifts do. -/
theorem shifts_byte (crc : UInt16) (byte : UInt8) : Nat.repeat crc16Shift 8 (crc ^^^ byte.toUInt16) =
    (crc >>> 8) ^^^ crc16ModbusTable.getD ((crc ^^^ byte.toUInt16) &&& 0xFF).toNat 0 := by
  have short : byte.toUInt16.toBitVec >>> 8 = 0#16 := by
    apply BitVec.eq_of_toNat_eq
    simpa [Nat.shiftRight_eq_div_pow] using byte.toNat_lt
  have masked : Crc.lowMask 16 8 = (0xFF : UInt16).toBitVec := by decide
  rw [crc16ModbusTable_getD (index_lt _), crc16ModbusEntry, toUInt16_index]
  apply UInt16.toBitVec_inj.mp
  calc (Nat.repeat crc16Shift 8 (crc ^^^ byte.toUInt16)).toBitVec
      = (Crc.shift polynomial)^[8] (crc.toBitVec ^^^ byte.toUInt16.toBitVec) := by
        rw [toBitVec_shifts, UInt16.toBitVec_xor]
    _ = (crc.toBitVec >>> 8) ^^^ (Crc.shift polynomial)^[8]
          ((crc.toBitVec ^^^ byte.toUInt16.toBitVec) &&& Crc.lowMask 16 8) :=
        Crc.iterate_shift_chunk polynomial short crc.toBitVec
    _ = ((crc >>> 8) ^^^ Nat.repeat crc16Shift 8 ((crc ^^^ byte.toUInt16) &&& 0xFF)).toBitVec := by
        rw [UInt16.toBitVec_xor, toBitVec_shifts, UInt16.toBitVec_and, UInt16.toBitVec_xor, masked]
        rfl

/-- The bits of a string one by one and its bytes through the table come to the same checksum. -/
theorem crcBitwise_eq (data : List UInt8) : crcBitwise data = crc16Modbus data := by
  rw [crcBitwise, crc16Modbus]
  congr 1
  funext crc byte
  exact shifts_byte crc byte

theorem sealed_eq {bytes : List UInt8} (long : 4 ≤ bytes.length) :
    sealed bytes bytes.length = crc16ModbusVerify bytes := by
  rw [sealed, crc16ModbusVerify, if_neg (Nat.not_lt.mpr long), crcBitwise_eq]

namespace ModbusStreamAccumulator
variable {a : ModbusStreamAccumulator} {n : Nat}

/-- Wherever in the ring a frame begins, the ring checks what the parser checks. -/
theorem crcValid_iff_verify (long : 4 ≤ n) :
    a.crcValid n = crc16ModbusVerify ((List.range n).map a.peek) := by
  have length : ((List.range n).map a.peek).length = n := by simp
  have last : ∀ i < n, ((List.range n).map a.peek).getD i 0 = a.peek i := by
    intro i inside
    rw [List.getD_eq_getElem?_getD, List.getElem?_map, List.getElem?_range inside]
    rfl
  rw [← sealed_eq (by rwa [length]), length, sealed, ← List.map_take, List.take_range, Nat.min_eq_left (Nat.sub_le n 2),
    last _ (by omega), last _ (by omega), crcValid, crcBitwise]

end ModbusStreamAccumulator
end EnerSentry.Protocol
