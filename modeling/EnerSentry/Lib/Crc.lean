import Mathlib.Algebra.Group.Nat.Defs
import Mathlib.Logic.Function.Iterate

/-!
Reflected cyclic checksums. The register is shifted one bit at a time, and the polynomial is added
when a one falls out. The shifts are linear, so as many of them as a chunk has bits come to one
look-up: what the low bits of the register become, added to the rest of the register shifted down.
-/

namespace EnerSentry.Lib.Crc

variable {w n : Nat} (P : BitVec w)

def shift (x : BitVec w) : BitVec w := (x >>> 1) ^^^ (if x.getLsbD 0 then P else 0#w)

def lowMask (w n : Nat) : BitVec w := BitVec.ofNat w (2 ^ n - 1)

theorem getLsbD_lowMask {i : Nat} (inside : i < w) : (lowMask w n).getLsbD i = decide (i < n) := by
  rw [lowMask, BitVec.getLsbD_ofNat, Nat.testBit_two_pow_sub_one]
  simp [inside]

theorem shift_xor (x y : BitVec w) : shift P (x ^^^ y) = shift P x ^^^ shift P y := by
  have fallen : (if (x ^^^ y).getLsbD 0 then P else 0#w) =
      (if x.getLsbD 0 then P else 0#w) ^^^ (if y.getLsbD 0 then P else 0#w) := by
    rw [BitVec.getLsbD_xor]
    cases x.getLsbD 0 <;> cases y.getLsbD 0 <;> simp
  rw [shift, shift, shift, BitVec.ushiftRight_xor_distrib, fallen]
  ac_rfl

theorem iterate_shift_xor (x y : BitVec w) :
    (shift P)^[n] (x ^^^ y) = (shift P)^[n] x ^^^ (shift P)^[n] y := by
  induction n generalizing x y with
  | zero => rfl
  | succ n ih =>
    rw [Function.iterate_succ_apply, Function.iterate_succ_apply, Function.iterate_succ_apply, shift_xor, ih]

/-- Zeros fall out without a trace. -/
theorem iterate_shift_of_low {x : BitVec w} (low : ∀ i < n, x.getLsbD i = false) : (shift P)^[n] x = x >>> n := by
  induction n generalizing x with
  | zero => simp
  | succ n ih =>
    have even : shift P x = x >>> 1 := by
      rw [shift, low 0 (Nat.zero_lt_succ n), if_neg Bool.false_ne_true, BitVec.xor_zero]
    rw [Function.iterate_succ_apply, even, ih, ← BitVec.shiftRight_add, Nat.add_comm]
    intro i inside
    rw [BitVec.getLsbD_ushiftRight]
    exact low (1 + i) (by omega)

/-- One look-up for as many shifts as the chunk has bits. -/
theorem iterate_shift_chunk {chunk : BitVec w} (short : chunk >>> n = 0#w) (crc : BitVec w) :
    (shift P)^[n] (crc ^^^ chunk) = (crc >>> n) ^^^ (shift P)^[n] ((crc ^^^ chunk) &&& lowMask w n) := by
  have parts : crc ^^^ chunk = ((crc ^^^ chunk) &&& ~~~lowMask w n) ^^^ ((crc ^^^ chunk) &&& lowMask w n) := by
    apply BitVec.eq_of_getLsbD_eq
    intro i inside
    simp only [BitVec.getLsbD_xor, BitVec.getLsbD_and, BitVec.getLsbD_not, getLsbD_lowMask inside, inside]
    cases crc.getLsbD i <;> cases chunk.getLsbD i <;> cases decide (i < n) <;> rfl
  have high : ((crc ^^^ chunk) &&& ~~~lowMask w n) >>> n = crc >>> n := by
    have none : (crc ^^^ chunk) >>> n = crc >>> n := by
      rw [BitVec.ushiftRight_xor_distrib, short, BitVec.xor_zero]
    rw [← none]
    apply BitVec.eq_of_getLsbD_eq
    intro i inside
    rw [BitVec.getLsbD_ushiftRight, BitVec.getLsbD_ushiftRight, BitVec.getLsbD_and, BitVec.getLsbD_not]
    by_cases there : n + i < w
    · rw [getLsbD_lowMask there]
      simp [there]
    · rw [BitVec.getLsbD_of_ge _ _ (Nat.le_of_not_lt there), Bool.false_and]
  have zeros : ∀ i < n, ((crc ^^^ chunk) &&& ~~~lowMask w n).getLsbD i = false := by
    intro i low
    rw [BitVec.getLsbD_and, BitVec.getLsbD_not]
    by_cases there : i < w
    · rw [getLsbD_lowMask there]
      simp [low]
    · simp [there]
  calc (shift P)^[n] (crc ^^^ chunk)
      = (shift P)^[n] (((crc ^^^ chunk) &&& ~~~lowMask w n) ^^^ ((crc ^^^ chunk) &&& lowMask w n)) :=
        congrArg _ parts
    _ = (shift P)^[n] ((crc ^^^ chunk) &&& ~~~lowMask w n) ^^^ (shift P)^[n] ((crc ^^^ chunk) &&& lowMask w n) :=
        iterate_shift_xor P _ _
    _ = (crc >>> n) ^^^ (shift P)^[n] ((crc ^^^ chunk) &&& lowMask w n) := by
        rw [iterate_shift_of_low P zeros, high]

end EnerSentry.Lib.Crc
