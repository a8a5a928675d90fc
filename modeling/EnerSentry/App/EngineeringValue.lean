import Mathlib.Algebra.Order.Floor.Ring
import Mathlib.Data.Rat.Floor
import EnerSentry.App.PollDriver
import EnerSentry.Lib.Binary64
import EnerSentry.Protocol.ByteReassembly
import EnerSentry.Sim.PointGenerator

/-!
An engineering value on its way from the simulator to the application, in exact arithmetic. The
simulator has two encoders, one for the physics and one for the faults laid over it; the application
decodes by data type and byte order.
-/

namespace EnerSentry.App
open EnerSentry.Protocol EnerSentry.Lib EnerSentry.Lib.Packing

section Exact
variable (K : Type*) [Field K] [LinearOrder K]

@[reducible] def exactArithmetic : Sim.Arithmetic K where

variable {K} [FloorRing K]

/-- Rounding to the nearest integer goes away from zero half way, truncation towards zero. -/
def exactRounding : Sim.Rounding K :=
  { finite := fun _ => true
    round := fun x => if 0 ≤ x then ⌊x + 1 / 2⌋ else -⌊1 / 2 - x⌋
    truncate := fun x => if 0 ≤ x then ⌊x⌋ else ⌈x⌉ }

/-- Integers and doubles are read as they are. -/
def exactConversions (ofFloat : UInt32 → K) : Conversions K :=
  { ofInt := fun i => i, ofFloat := ofFloat, ofDouble := fun b => Binary64.value K b.toNat }

end Exact

/-- The integer behind reassembled bytes. -/
def readInteger (bytes : List UInt8) : DataType → Int
  | .int16 => PointTable.signed 16 (PointTable.beToHost bytes 2)
  | .uint16 => PointTable.beToHost bytes 2
  | .int32 => PointTable.signed 32 (PointTable.beToHost bytes 4)
  | .bool => if bytes.getD 0 0 ≠ 0 then 1 else 0
  | _ => 0

theorem rawValue_single {K : Type*} [Field K] (ofFloat : UInt32 → K) (bytes : List UInt8) {dt : DataType}
    (one : PointTable.registerCountFor dt = 1) :
    PointTable.rawValue (exactConversions ofFloat) bytes 2 dt = some ((readInteger bytes dt : Int) : K) := by
  cases dt with
  | bool =>
    simp only [PointTable.rawValue, readInteger, Option.some.injEq]
    split <;> split <;> simp_all
  | int16 => rfl
  | uint16 => rfl
  | int32 => cases one
  | float32 => cases one
  | float64 => cases one

/-- An enabled register point of the table that simulator and application share. -/
structure SharedPoint (K : Type*) [Zero K] [LT K] where
  app : PointRuntime K
  pointName : String
  enabled : app.enabled = true
  word : app.regType = .holdingRegister ∨ app.regType = .inputRegister
  positive : 0 < app.scaleFactor

/-- Where a value that the simulator publishes comes from. -/
inductive ValueSource where
  | physics
  | faultOverride
  deriving DecidableEq, Repr

namespace SharedPoint
variable {K : Type*} [Field K] [LinearOrder K] [FloorRing K]

/-- The point in the simulator's copy of the table. -/
def sim (pt : SharedPoint K) : Sim.SimPoint K :=
  { pointName := pt.pointName
    regType := if pt.app.regType = .inputRegister then .inputRegister else .holdingRegister
    registerAddr := pt.app.registerAddr
    scaleFactor := pt.app.scaleFactor
    offset := pt.app.offset
    enabled := pt.app.enabled }

/-- The register that is published for a value. -/
def published (pt : SharedPoint K) (source : ValueSource) (v : K) : UInt16 :=
  letI := exactArithmetic K
  match source with
  | .physics => Sim.PointGenerator.encodeFloat32AsHolding exactRounding v pt.sim.scaleFactor
  | .faultOverride => Sim.PointGenerator.encodeFault exactRounding pt.sim v

/-- The value that is decoded from a register among others. -/
def decoded (ofFloat : UInt32 → K) (pt : SharedPoint K) (before rest : List UInt16) (raw : UInt16) : Option K :=
  registerValue (exactConversions ofFloat) { registerValues := before ++ raw :: rest } pt.app before.length

def InRange (pt : SharedPoint K) (v : K) : Prop :=
  0 ≤ (v - pt.app.offset) / pt.app.scaleFactor ∧ (v - pt.app.offset) / pt.app.scaleFactor ≤ 65535

/-- A value comes back to half a scale step, and a fault is encoded as the physics would encode it. -/
structure RoundTrips (ofFloat : UInt32 → K) (pt : SharedPoint K) (before rest : List UInt16) (source : ValueSource)
    (v : K) : Prop where
  near : ∃ w, pt.decoded ofFloat before rest (pt.published source v) = some w ∧ |w - v| ≤ pt.app.scaleFactor / 2
  same : source = .faultOverride → pt.published .physics v = pt.published .faultOverride v

end SharedPoint

namespace SharedPoint
variable {K : Type*} [Field K] [LinearOrder K] {pt : SharedPoint K}

/-- The value that lies `x` scale steps above the offset. -/
def valueAt (pt : SharedPoint K) (x : K) : K := x * pt.app.scaleFactor + pt.app.offset

/-- The offset, in scale steps. -/
def shift (pt : SharedPoint K) : K := pt.app.offset / pt.app.scaleFactor

theorem steps_valueAt (pt : SharedPoint K) (x : K) : (pt.valueAt x - pt.app.offset) / pt.app.scaleFactor = x := by
  rw [valueAt, add_sub_cancel_right, mul_div_cancel_right₀ _ pt.positive.ne']

theorem valueAt_steps (pt : SharedPoint K) (v : K) :
    pt.valueAt ((v - pt.app.offset) / pt.app.scaleFactor) = v := by
  rw [valueAt, div_mul_cancel₀ _ pt.positive.ne', sub_add_cancel]

theorem valueAt_div (pt : SharedPoint K) (x : K) : pt.valueAt x / pt.app.scaleFactor = x + pt.shift := by
  rw [valueAt, add_div, mul_div_cancel_right₀ _ pt.positive.ne', shift]

theorem shift_eq_zero : pt.shift = 0 ↔ pt.app.offset = 0 := by
  rw [shift, div_eq_zero_iff, or_iff_left pt.positive.ne']

theorem inRange_valueAt {x : K} : pt.InRange (pt.valueAt x) ↔ 0 ≤ x ∧ x ≤ 65535 := by
  rw [InRange, steps_valueAt]

section Words
variable {ofFloat : UInt32 → K} {before rest : List UInt16} {raw : UInt16}

theorem decoded_float32 (float : pt.app.dataType = .float32) (raw : UInt16) : pt.decoded ofFloat before rest raw =
    some (((raw.toNat : Int) : K) * pt.app.scaleFactor + pt.app.offset) := by
  have room : ¬(before ++ raw :: rest).length < before.length + 1 := by
    simp
  have here : (before ++ raw :: rest).getD before.length 0 = raw := by simp
  simp only [decoded, registerValue, float, if_true, room, if_false, here]
  rfl

/-- A point that is not a float is decoded from as many registers as its type has. -/
theorem decoded_words (other : pt.app.dataType ≠ .float32) (raw : UInt16) : pt.decoded ofFloat before rest raw =
    if rest.length + 1 < PointTable.registerCountFor pt.app.dataType then none
    else
      let written := PointTable.reassembleBytes ((raw :: rest).take (PointTable.registerCountFor pt.app.dataType))
        pt.app.byteOrder (List.replicate 8 0)
      if written.1 = 0 then none
      else some (PointTable.decodeToEngineering (exactConversions ofFloat) written.2 written.1 pt.app.dataType
        pt.app.scaleFactor pt.app.offset) := by
  have length : (before ++ raw :: rest).length = before.length + (rest.length + 1) := by simp
  simp only [decoded, registerValue, other, if_false, length, Nat.add_lt_add_iff_left, List.drop_left]

theorem decoded_single (one : PointTable.registerCountFor pt.app.dataType = 1) (raw : UInt16) :
    pt.decoded ofFloat before rest raw = some
      ((readInteger (PointTable.reassembleBytes [raw] pt.app.byteOrder (List.replicate 8 0)).2 pt.app.dataType : K) *
        pt.app.scaleFactor + pt.app.offset) := by
  have other : pt.app.dataType ≠ .float32 := by
    intro float
    rw [float] at one
    cases one
  have two : (PointTable.reassembleBytes [raw] pt.app.byteOrder (List.replicate 8 0)).1 = 2 := by
    cases pt.app.byteOrder <;> rfl
  rw [decoded_words other, one, if_neg (by omega), List.take_succ_cons, List.take_zero]
  simp only [two, PointTable.decodeToEngineering, rawValue_single _ _ one]
  rfl

theorem decoded_int32 {n : UInt16} (word : pt.app.dataType = .int32) (raw : UInt16) :
    pt.decoded ofFloat before (n :: rest) raw =
      some ((readInteger (PointTable.reassembleBytes [raw, n] pt.app.byteOrder (List.replicate 8 0)).2 .int32 : K) *
        pt.app.scaleFactor + pt.app.offset) := by
  have other : pt.app.dataType ≠ .float32 := by
    rw [word]
    decide
  have four : (PointTable.reassembleBytes [raw, n] pt.app.byteOrder (List.replicate 8 0)).1 = 4 := by
    cases pt.app.byteOrder <;> rfl
  rw [decoded_words other, word, if_neg (by simp [PointTable.registerCountFor])]
  simp only [PointTable.registerCountFor, List.take_succ_cons, List.take_zero, four, PointTable.decodeToEngineering]
  rfl

/-- A register with its bytes exchanged. -/
def exchanged (k : UInt16) : UInt16 := join (low k) (high k)

/-- The word that an order makes of one register. -/
def wordIn : ByteOrder → UInt16 → UInt16
  | .abcd, k => k
  | .badc, k | .dcba, k => exchanged k
  | .cdab, _ => 0

/-- The words that an order makes of two registers, the most significant first. -/
def wordsIn : ByteOrder → UInt16 → UInt16 → UInt16 × UInt16
  | .abcd, k, n => (k, n)
  | .badc, k, n => (exchanged k, exchanged n)
  | .cdab, k, n => (n, k)
  | .dcba, k, n => (exchanged n, exchanged k)

/-- The pattern of 64 bits that an order makes of four registers. -/
def patternIn (order : ByteOrder) (k a b c : UInt16) : Nat :=
  let joined (w x y z : UInt16) : Nat := ((w.toNat * 65536 + x.toNat) * 65536 + y.toNat) * 65536 + z.toNat
  match order with
  | .abcd => joined k a b c
  | .badc => joined (exchanged k) (exchanged a) (exchanged b) (exchanged c)
  | .cdab => joined b c k a
  | .dcba => joined (exchanged c) (exchanged b) (exchanged a) (exchanged k)

/-- A number of steps is at most half a step away from a value. -/
def Close (pt : SharedPoint K) (v m : K) : Prop := |m - (v - pt.app.offset) / pt.app.scaleFactor| ≤ 1 / 2

/-- What the application reads where a register holds `k` is close to a value. -/
def ReadsNear (pt : SharedPoint K) (rest : List UInt16) (v : K) (k : UInt16) : Prop :=
  match pt.app.dataType with
  | .float32 => pt.Close v k.toNat
  | .uint16 => pt.Close v (wordIn pt.app.byteOrder k).toNat
  | .int16 => (wordIn pt.app.byteOrder k).toNat < 32768 ∧ pt.Close v (wordIn pt.app.byteOrder k).toNat
  | .bool => if (wordIn pt.app.byteOrder k).toNat < 256 then pt.Close v 0 else pt.Close v 1
  | .int32 => ∃ n ∈ rest.head?, (wordsIn pt.app.byteOrder k n).1 = 0 ∧
      pt.Close v (wordsIn pt.app.byteOrder k n).2.toNat
  | .float64 => ∃ a b c, rest.take 3 = [a, b, c] ∧
      pt.Close v (Binary64.value K (patternIn pt.app.byteOrder k a b c))

theorem bytes_wordIn (order : ByteOrder) (k : UInt16) : (PointTable.reassembleBytes [k] order (List.replicate 8 0)).2 =
    high (wordIn order k) :: low (wordIn order k) :: List.replicate 6 0 := by
  cases order with
  | abcd => rfl
  | badc | dcba =>
    simp only [wordIn, exchanged, high_join, low_join]
    rfl
  | cdab =>
    have zero : high 0 = 0 ∧ low 0 = 0 := by decide
    rw [wordIn, zero.1, zero.2]
    simp [PointTable.reassembleBytes, List.replicate]

theorem bytes_wordsIn (order : ByteOrder) (k n : UInt16) :
    (PointTable.reassembleBytes [k, n] order (List.replicate 8 0)).2 =
      high (wordsIn order k n).1 :: low (wordsIn order k n).1 :: high (wordsIn order k n).2 ::
        low (wordsIn order k n).2 :: List.replicate 4 0 := by
  cases order with
  | abcd => rfl
  | badc | dcba =>
    simp only [wordsIn, exchanged, high_join, low_join]
    rfl
  | cdab =>
    rw [PointTable.reassembleBytes_eq (n := 2) (by decide) (by decide) (fun _ => rfl) rfl (by decide)]
    rfl

theorem beToHost_four (w x y z : UInt16) (later : List UInt8) : PointTable.beToHost (high w :: low w :: high x ::
    low x :: high y :: low y :: high z :: low z :: later) 8 =
      ((w.toNat * 65536 + x.toNat) * 65536 + y.toNat) * 65536 + z.toNat := by
  have bytes (u : UInt16) : (high u).toNat * 256 + (low u).toNat = u.toNat := by
    rw [← join_toNat, join_high_low]
  rw [← bytes w, ← bytes x, ← bytes y, ← bytes z]
  simp only [PointTable.beToHost, List.take_succ_cons, List.take_zero, List.foldl_cons, List.foldl_nil]
  omega

theorem beToHost_patternIn (order : ByteOrder) (k a b c : UInt16) :
    PointTable.beToHost (PointTable.reassembleBytes [k, a, b, c] order (List.replicate 8 0)).2 8 =
      patternIn order k a b c := by
  cases order with
  | abcd => exact beToHost_four k a b c []
  | badc =>
    have pairs := beToHost_four (exchanged k) (exchanged a) (exchanged b) (exchanged c) []
    simp only [exchanged, high_join, low_join] at pairs
    exact pairs
  | cdab =>
    rw [PointTable.reassembleBytes_eq (n := 4) (by decide) (by decide) (fun _ => rfl) rfl (by decide)]
    exact beToHost_four b c k a []
  | dcba =>
    have pairs := beToHost_four (exchanged c) (exchanged b) (exchanged a) (exchanged k) []
    simp only [exchanged, high_join, low_join] at pairs
    exact pairs

theorem four_words_lt (w x y z : UInt16) :
    ((w.toNat * 65536 + x.toNat) * 65536 + y.toNat) * 65536 + z.toNat < 2 ^ 64 := by
  have first := w.toNat_lt
  have second := x.toNat_lt
  have third := y.toNat_lt
  have fourth := z.toNat_lt
  omega

theorem patternIn_lt (order : ByteOrder) (k a b c : UInt16) : patternIn order k a b c < 2 ^ 64 := by
  cases order with
  | abcd => exact four_words_lt k a b c
  | badc => exact four_words_lt (exchanged k) (exchanged a) (exchanged b) (exchanged c)
  | cdab => exact four_words_lt b c k a
  | dcba => exact four_words_lt (exchanged c) (exchanged b) (exchanged a) (exchanged k)

theorem decoded_float64 (double : pt.app.dataType = .float64) (raw a b c : UInt16) :
    pt.decoded ofFloat before (a :: b :: c :: rest) raw =
      some (Binary64.value K (patternIn pt.app.byteOrder raw a b c) * pt.app.scaleFactor + pt.app.offset) := by
  have other : pt.app.dataType ≠ .float32 := by
    rw [double]
    decide
  have eight : (PointTable.reassembleBytes [raw, a, b, c] pt.app.byteOrder (List.replicate 8 0)).1 = 8 := by
    cases pt.app.byteOrder <;> rfl
  have whole : (UInt64.ofNat (patternIn pt.app.byteOrder raw a b c)).toNat = patternIn pt.app.byteOrder raw a b c := by
    rw [UInt64.toNat_ofNat', Nat.mod_eq_of_lt (patternIn_lt ..)]
  rw [decoded_words other, double, if_neg (by simp [PointTable.registerCountFor])]
  simp only [PointTable.registerCountFor, List.take_succ_cons, List.take_zero, eight, PointTable.decodeToEngineering,
    PointTable.rawValue, beToHost_patternIn, exactConversions, whole]
  rfl

section Close
variable [IsStrictOrderedRing K] {v m : K}

theorem close_iff {value : Option K} (read : value = some (m * pt.app.scaleFactor + pt.app.offset)) :
    (∃ w, value = some w ∧ |w - v| ≤ pt.app.scaleFactor / 2) ↔ pt.Close v m := by
  have apart : m * pt.app.scaleFactor + pt.app.offset - v =
      (m - (v - pt.app.offset) / pt.app.scaleFactor) * pt.app.scaleFactor := by
    rw [sub_mul, div_mul_cancel₀ _ pt.positive.ne']
    ring
  rw [read]
  simp only [Option.some.injEq, exists_eq_left', apart, Close]
  rw [abs_mul, abs_of_pos pt.positive, div_eq_mul_one_div pt.app.scaleFactor 2, mul_comm pt.app.scaleFactor (1 / 2),
    mul_le_mul_iff_left₀ pt.positive]

/-- Below zero nothing is close, and neither is anything from 65536 on. -/
theorem Close.bounds (inside : pt.InRange v) (close : pt.Close v m) : -1 < m ∧ m < 65536 := by
  obtain ⟨nonneg, top⟩ := inside
  obtain ⟨below, above⟩ := abs_le.mp close
  constructor <;> linarith

theorem readInteger_bool (w : UInt16) (later : List UInt8) :
    readInteger (high w :: low w :: later) .bool = if w.toNat < 256 then 0 else 1 := by
  have first : high w = 0 ↔ w.toNat < 256 := by
    rw [← UInt8.toNat_inj, high_toNat]
    change _ / 256 = 0 ↔ _
    omega
  change (if high w ≠ 0 then 1 else 0) = _
  by_cases small : w.toNat < 256
  · rw [if_pos small, if_neg (not_not.mpr (first.mpr small))]
  · rw [if_neg small, if_pos fun zero => small (first.mp zero)]

theorem close_signed16 (inside : pt.InRange v) (w : UInt16) :
    pt.Close v (PointTable.signed 16 w.toNat : K) ↔ w.toNat < 32768 ∧ pt.Close v w.toNat := by
  rw [PointTable.signed]
  by_cases small : w.toNat < 2 ^ (16 - 1)
  · rw [if_pos small, Int.cast_natCast]
    exact (and_iff_right small).symm
  · rw [if_neg small]
    refine ⟨fun close => ?_, fun both => absurd both.1 small⟩
    have bound := w.toNat_lt
    have below : ((w.toNat : Int) - 2 ^ 16 : K) ≤ -1 := by exact_mod_cast (by omega : (w.toNat : Int) - 2 ^ 16 ≤ -1)
    have above := (close.bounds inside).1
    push_cast at above below
    linarith

theorem close_signed32 (inside : pt.InRange v) (w x : UInt16) :
    pt.Close v (PointTable.signed 32 (w.toNat * 65536 + x.toNat) : K) ↔ w = 0 ∧ pt.Close v x.toNat := by
  have bound := w.toNat_lt
  have next := x.toNat_lt
  have zero : w = 0 ↔ w.toNat = 0 := by
    rw [← UInt16.toNat_inj]
    rfl
  rw [zero, PointTable.signed]
  by_cases none : w.toNat = 0
  · rw [none, if_pos (by omega), Nat.zero_mul, Nat.zero_add, Int.cast_natCast]
    exact (and_iff_right rfl).symm
  · refine ⟨fun close => ?_, fun both => absurd both.1 none⟩
    obtain ⟨above, below⟩ := close.bounds inside
    split at above
    · have large : ((65536 : Int) : K) ≤ ((w.toNat * 65536 + x.toNat : Nat) : Int) := by exact_mod_cast (by omega)
      rw [if_pos ‹_›] at below
      push_cast at large below
      linarith
    · have negative : (((w.toNat * 65536 + x.toNat : Nat) : Int) - 2 ^ 32 : K) ≤ -1 := by
        exact_mod_cast (by omega : ((w.toNat * 65536 + x.toNat : Nat) : Int) - 2 ^ 32 ≤ -1)
      push_cast at above negative
      linarith

/-- The application reads a value that is near exactly where these numbers are close. -/
theorem reads_near_iff (inside : pt.InRange v) (k : UInt16) :
    (∃ w, pt.decoded ofFloat before rest k = some w ∧ |w - v| ≤ pt.app.scaleFactor / 2) ↔ pt.ReadsNear rest v k := by
  unfold ReadsNear
  cases type : pt.app.dataType with
  | float32 =>
    rw [close_iff (decoded_float32 type k), Int.cast_natCast]
  | uint16 =>
    rw [close_iff (decoded_single (by rw [type]; rfl) k), type, bytes_wordIn, readInteger, IntegerValue.beToHost_word,
      Int.cast_natCast]
  | int16 =>
    rw [close_iff (decoded_single (by rw [type]; rfl) k), type, bytes_wordIn, readInteger, IntegerValue.beToHost_word]
    exact close_signed16 inside _
  | bool =>
    rw [close_iff (decoded_single (by rw [type]; rfl) k), type, bytes_wordIn, readInteger_bool]
    by_cases small : (wordIn pt.app.byteOrder k).toNat < 256
    · simp only [if_pos small, Int.cast_zero]
    · simp only [if_neg small, Int.cast_one]
  | int32 =>
    cases rest with
    | nil =>
      rw [decoded_words (by simp [type]), type, if_pos (by decide)]
      simp
    | cons n rest =>
      rw [close_iff (decoded_int32 type k), bytes_wordsIn, readInteger, IntegerValue.beToHost_words,
        close_signed32 inside]
      simp
  | float64 =>
    by_cases short : rest.length < 3
    · have missing : rest.length + 1 < PointTable.registerCountFor .float64 := Nat.succ_lt_succ short
      rw [decoded_words (by simp [type]), type, if_pos missing]
      have few : ∀ a b c, rest.take 3 ≠ [a, b, c] := by
        intro a b c same
        have length := congrArg List.length same
        simp at length
        omega
      simp [few]
    · obtain ⟨a, b, c, later, rfl⟩ : ∃ a b c later, rest = a :: b :: c :: later := by
        rcases rest with _ | ⟨a, _ | ⟨b, _ | ⟨c, later⟩⟩⟩
        case cons.cons.cons => exact ⟨a, b, c, later, rfl⟩
        all_goals simp at short
      rw [close_iff (decoded_float64 type k a b c)]
      simp

end Close

end Words

/-- A register value is the nearest to a value without the offset; the ends are the nearest to all that is beyond. -/
def Nearest (pt : SharedPoint K) (v : K) (k : UInt16) : Prop :=
  (k.toNat = 0 ∨ (k.toNat : K) - 1 / 2 ≤ v / pt.app.scaleFactor) ∧
    (k.toNat = 65535 ∨ v / pt.app.scaleFactor < k.toNat + 1 / 2)

/-- A register value counts the whole steps of a value above the offset. -/
def WholeSteps (pt : SharedPoint K) (v : K) (k : UInt16) : Prop :=
  (k.toNat : K) ≤ (v - pt.app.offset) / pt.app.scaleFactor ∧
    (v - pt.app.offset) / pt.app.scaleFactor < k.toNat + 1

section Encoders
variable [FloorRing K] [IsStrictOrderedRing K] {x y : K} {k : Nat}

/-- Rounding and clamping bring to a register value what is nearest to it; the ends take all that is beyond. -/
theorem clamped_round_iff (fits : k ≤ 65535) : (max 0 (min ((exactRounding (K := K)).round y) 65535)).toNat = k ↔
    (k = 0 ∨ (k : K) - 1 / 2 ≤ y) ∧ (k = 65535 ∨ y < k + 1 / 2) := by
  have rounded : (exactRounding (K := K)).round y = if 0 ≤ y then ⌊y + 1 / 2⌋ else -⌊1 / 2 - y⌋ := rfl
  rw [rounded]
  by_cases positive : 0 ≤ y
  · have least : 0 ≤ ⌊y + 1 / 2⌋ := Int.floor_nonneg.mpr (by linarith)
    have lower : (k : Int) ≤ ⌊y + 1 / 2⌋ ↔ (k : K) - 1 / 2 ≤ y := by
      rw [Int.le_floor, sub_le_iff_le_add]
      push_cast
      exact Iff.rfl
    have upper : ⌊y + 1 / 2⌋ < (k : Int) + 1 ↔ y < (k : K) + 1 / 2 := by
      rw [Int.floor_lt]
      push_cast
      constructor <;> intro below <;> linarith
    rw [if_pos positive, ← lower, ← upper]
    omega
  · have least : 0 ≤ ⌊1 / 2 - y⌋ := Int.floor_nonneg.mpr (by linarith)
    rw [if_neg positive]
    constructor
    · intro same
      have zero : k = 0 := by omega
      rw [zero]
      exact ⟨Or.inl rfl, Or.inr (by push_cast; linarith)⟩
    · rintro ⟨zero | above, -⟩
      · omega
      · have zero : k = 0 := by
          by_contra some
          have one : (1 : K) ≤ k := by exact_mod_cast Nat.one_le_iff_ne_zero.mpr some
          linarith
        omega

theorem published_physics_iff {v : K} (fits : k ≤ 65535) : (pt.published .physics v).toNat = k ↔
    (k = 0 ∨ (k : K) - 1 / 2 ≤ v / pt.app.scaleFactor) ∧ (k = 65535 ∨ v / pt.app.scaleFactor < k + 1 / 2) := by
  have nonzero : ¬(pt.app.scaleFactor = 0 ∨ (exactRounding (K := K)).finite v = false) := by
    rintro (zero | infinite)
    · exact pt.positive.ne' zero
    · cases infinite
  have encoded : pt.published .physics v =
      UInt16.ofNat (max 0 (min ((exactRounding (K := K)).round (v / pt.app.scaleFactor)) 65535)).toNat := if_neg nonzero
  rw [encoded, UInt16.toNat_ofNat', Nat.mod_eq_of_lt (by omega)]
  exact clamped_round_iff fits

theorem published_physics (fits : k ≤ 65535) (above : k = 0 ∨ (k : K) - 1 / 2 ≤ x + pt.shift)
    (below : k = 65535 ∨ x + pt.shift < k + 1 / 2) : (pt.published .physics (pt.valueAt x)).toNat = k := by
  rw [published_physics_iff fits, valueAt_div]
  exact ⟨above, below⟩

theorem published_fault_iff {v : K} (inside : pt.InRange v) : (pt.published .faultOverride v).toNat = k ↔
    (k : K) ≤ (v - pt.app.offset) / pt.app.scaleFactor ∧ (v - pt.app.offset) / pt.app.scaleFactor < k + 1 := by
  obtain ⟨nonneg, top⟩ := inside
  have encoded : pt.published .faultOverride v =
      UInt16.ofNat ((exactRounding (K := K)).truncate ((v - pt.app.offset) / pt.app.scaleFactor)).toNat := by
    have scale : (if pt.app.scaleFactor = 0 then 1 else pt.app.scaleFactor) = pt.app.scaleFactor :=
      if_neg pt.positive.ne'
    have clamped : @Sim.PointGenerator.clamp K (exactArithmetic K) ((v - pt.app.offset) / pt.app.scaleFactor) 0
        ((65535 : Int) : K) = (v - pt.app.offset) / pt.app.scaleFactor := by
      have inside : ¬((65535 : Int) : K) < (v - pt.app.offset) / pt.app.scaleFactor := by
        push_cast
        exact not_lt.mpr top
      unfold Sim.PointGenerator.clamp
      rw [if_neg (not_lt.mpr nonneg), if_neg inside]
    calc pt.published .faultOverride v
        = UInt16.ofNat ((exactRounding (K := K)).truncate (@Sim.PointGenerator.clamp K (exactArithmetic K)
            ((v - pt.app.offset) / (if pt.app.scaleFactor = 0 then 1 else pt.app.scaleFactor)) 0
            ((65535 : Int) : K))).toNat := rfl
      _ = _ := by rw [scale, clamped]
  have truncated : (exactRounding (K := K)).truncate ((v - pt.app.offset) / pt.app.scaleFactor) =
      ⌊(v - pt.app.offset) / pt.app.scaleFactor⌋ := if_pos nonneg
  have least : 0 ≤ ⌊(v - pt.app.offset) / pt.app.scaleFactor⌋ := Int.floor_nonneg.mpr nonneg
  have most : ⌊(v - pt.app.offset) / pt.app.scaleFactor⌋ < 65536 := Int.floor_lt.mpr (by push_cast; linarith)
  have floor := Int.floor_eq_iff (a := (v - pt.app.offset) / pt.app.scaleFactor) (z := (k : Int))
  rw [Int.cast_natCast] at floor
  rw [encoded, truncated, UInt16.toNat_ofNat', Nat.mod_eq_of_lt (by omega), ← floor]
  omega

theorem published_fault (above : (k : K) ≤ x) (below : x < k + 1) (top : x ≤ 65535) :
    (pt.published .faultOverride (pt.valueAt x)).toNat = k := by
  have nonneg : (0 : K) ≤ x := (Nat.cast_nonneg k).trans above
  rw [published_fault_iff (inRange_valueAt.mpr ⟨nonneg, top⟩), steps_valueAt]
  exact ⟨above, below⟩

/-- What is read from a register stays within half a step of where the value lies. -/
def Tracks (pt : SharedPoint K) (N : UInt16 → K) (source : ValueSource) : Prop :=
  ∀ x, 0 ≤ x → x ≤ 65535 → |N (pt.published source (pt.valueAt x)) - x| ≤ 1 / 2

/-- Two values with one register are not further apart than a step. -/
theorem Tracks.gap {N : UInt16 → K} {source : ValueSource} (tracks : pt.Tracks N source) (first : 0 ≤ x)
    (ordered : x ≤ y) (last : y ≤ 65535)
    (one : (pt.published source (pt.valueAt x)).toNat = (pt.published source (pt.valueAt y)).toNat) : y - x ≤ 1 := by
  have low := tracks x first (ordered.trans last)
  have high := tracks y (first.trans ordered) last
  rw [← UInt16.toNat_inj.mp one, abs_le] at high
  rw [abs_le] at low
  linarith [low.2, high.1]

/-- An offset of more than half a step runs into the end of the registers. -/
theorem Tracks.shift_le {N : UInt16 → K} (tracks : pt.Tracks N .physics) : |pt.shift| ≤ 1 / 2 := by
  rw [abs_le]
  constructor
  · by_contra far
    rw [not_le] at far
    have zero : (pt.published .physics (pt.valueAt 0)).toNat = 0 :=
      published_physics (by decide) (Or.inl rfl) (Or.inr (by push_cast; linarith))
    have low : (0 : K) ≤ min 65535 (3 / 4 - pt.shift / 2) := le_min (by norm_num) (by linarith)
    have same : (pt.published .physics (pt.valueAt (min 65535 (3 / 4 - pt.shift / 2)))).toNat = 0 :=
      published_physics (by decide) (Or.inl rfl) (Or.inr (by
        push_cast
        linarith [min_le_right (65535 : K) (3 / 4 - pt.shift / 2)]))
    have gap := tracks.gap (le_refl 0) low (min_le_left _ _) (zero.trans same.symm)
    have wide : (1 : K) < min 65535 (3 / 4 - pt.shift / 2) := lt_min (by norm_num) (by linarith)
    linarith
  · by_contra far
    rw [not_le] at far
    have top : (pt.published .physics (pt.valueAt 65535)).toNat = 65535 :=
      published_physics (by decide) (Or.inr (by push_cast; linarith)) (Or.inl rfl)
    have high : max 0 (131069 / 2 - pt.shift) ≤ (65535 : K) := max_le (by norm_num) (by linarith)
    have same : (pt.published .physics (pt.valueAt (max 0 (131069 / 2 - pt.shift)))).toNat = 65535 :=
      published_physics (by decide) (Or.inr (by
        push_cast
        linarith [le_max_right (0 : K) (131069 / 2 - pt.shift)])) (Or.inl rfl)
    have gap := tracks.gap (le_max_left _ _) high (le_refl _) (same.trans top.symm)
    have wide : max 0 (131069 / 2 - pt.shift) < (65534 : K) := max_lt (by norm_num) (by linarith)
    linarith

/-- A low register reads as about one and another as a large number. -/
theorem Tracks.extremes {N : UInt16 → K} {source : ValueSource} (tracks : pt.Tracks N source) :
    ∃ r r' : UInt16, r.toNat ≤ 2 ∧ 1 / 2 ≤ N r ∧ N r ≤ 3 / 2 ∧ 65533 ≤ N r' := by
  have low := tracks 1 (by norm_num) (by norm_num)
  have high := tracks 65534 (by norm_num) (by norm_num)
  rw [abs_le] at low high
  have few : (pt.published source (pt.valueAt 1)).toNat ≤ 2 := by
    cases source with
    | physics =>
      obtain ⟨below, above⟩ := abs_le.mp tracks.shift_le
      by_cases half : pt.shift = 1 / 2
      · exact (published_physics (k := 2) (by decide) (Or.inr (by push_cast; linarith))
          (Or.inr (by push_cast; linarith))).le
      · have small : pt.shift < 1 / 2 := lt_of_le_of_ne above half
        exact (published_physics (k := 1) (by decide) (Or.inr (by push_cast; linarith))
          (Or.inr (by push_cast; linarith))).trans_le (by decide)
    | faultOverride =>
      exact (published_fault (k := 1) (by norm_num) (by norm_num) (by norm_num)).trans_le (by decide)
  exact ⟨pt.published source (pt.valueAt 1), pt.published source (pt.valueAt 65534), few, by linarith [low.1],
    by linarith [low.2], by linarith [high.1]⟩

section Integers
variable {Z : UInt16 → Int} {z : Int}

/-- No integer lies strictly between two consecutive ones. -/
theorem no_integer {m : Int} (above : (m : K) < z) (below : (z : K) < m + 1) : False := by
  have first : m < z := by exact_mod_cast above
  have second : z < m + 1 := by exact_mod_cast below
  omega

theorem not_tracks_fault : ¬pt.Tracks (fun raw => (Z raw : K)) .faultOverride := by
  intro tracks
  have zero : (pt.published .faultOverride (pt.valueAt 0)).toNat =
      (pt.published .faultOverride (pt.valueAt (3 / 4))).toNat :=
    (published_fault (k := 0) (by simp) (by norm_num) (by norm_num)).trans
      (published_fault (k := 0) (by norm_num) (by norm_num) (by norm_num)).symm
  have low : |(Z (pt.published .faultOverride (pt.valueAt 0)) : K) - 0| ≤ 1 / 2 := tracks 0 (le_refl 0) (by norm_num)
  have high : |(Z (pt.published .faultOverride (pt.valueAt (3 / 4))) : K) - 3 / 4| ≤ 1 / 2 :=
    tracks (3 / 4) (by norm_num) (by norm_num)
  rw [← UInt16.toNat_inj.mp zero, abs_le] at high
  rw [abs_le] at low
  exact no_integer (K := K) (m := 0) (by push_cast; linarith [high.1]) (by push_cast; linarith [low.2])

/-- The register that holds `1` reads as an integer only if the offset is zero. -/
theorem shift_of_tracks (tracks : pt.Tracks (fun raw => (Z raw : K)) .physics) : pt.shift = 0 := by
  obtain ⟨below, above⟩ := abs_le.mp tracks.shift_le
  have one : ∀ x, 0 ≤ x → 1 / 2 ≤ x + pt.shift → x + pt.shift < 3 / 2 → |(Z 1 : K) - x| ≤ 1 / 2 := by
    intro x first near under
    have register : (pt.published .physics (pt.valueAt x)).toNat = 1 :=
      published_physics (by decide) (Or.inr (by push_cast; linarith)) (Or.inr (by push_cast; linarith))
    have tracked : |(Z (pt.published .physics (pt.valueAt x)) : K) - x| ≤ 1 / 2 := tracks x first (by linarith)
    rwa [UInt16.toNat_inj.mp (register.trans (by decide : 1 = (1 : UInt16).toNat))] at tracked
  have first := abs_le.mp (one (1 / 2 - pt.shift) (by linarith) (by linarith) (by linarith))
  rcases lt_trichotomy pt.shift 0 with negative | zero | positive
  · have second := abs_le.mp (one (3 / 2 - pt.shift / 2) (by linarith) (by linarith) (by linarith))
    exact (no_integer (K := K) (m := 1) (by push_cast; linarith [second.1]) (by push_cast; linarith [first.2])).elim
  · exact zero
  · have second := abs_le.mp (one (3 / 4) (by norm_num) (by linarith) (by linarith))
    exact (no_integer (K := K) (m := 0) (by push_cast; linarith [second.1]) (by push_cast; linarith [first.2])).elim

/-- The physics' values come back if the offset is zero and every register reads as the number in it. -/
theorem tracks_physics_iff : pt.Tracks (fun raw => (Z raw : K)) .physics ↔
    pt.app.offset = 0 ∧ ∀ raw, Z raw = raw.toNat := by
  constructor
  · intro tracks
    have zero := shift_of_tracks tracks
    refine ⟨shift_eq_zero.mp zero, fun raw => ?_⟩
    have bound := raw.toNat_lt
    have top : (raw.toNat : K) ≤ 65535 := by exact_mod_cast Nat.le_of_lt_succ bound
    have register : (pt.published .physics (pt.valueAt raw.toNat)).toNat = raw.toNat :=
      published_physics (by omega) (Or.inr (by rw [zero]; linarith)) (Or.inr (by rw [zero]; linarith))
    have tracked : |(Z (pt.published .physics (pt.valueAt raw.toNat)) : K) - raw.toNat| ≤ 1 / 2 :=
      tracks _ (Nat.cast_nonneg _) top
    rw [UInt16.toNat_inj.mp register, abs_le] at tracked
    have above : ((raw.toNat : Int) - 1 : K) < Z raw := by push_cast; linarith [tracked.1]
    have below : (Z raw : K) < (raw.toNat : Int) + 1 := by push_cast; linarith [tracked.2]
    have first : (raw.toNat : Int) - 1 < Z raw := by exact_mod_cast above
    have second : Z raw < (raw.toNat : Int) + 1 := by exact_mod_cast below
    omega
  · rintro ⟨none, same⟩ x first last
    have zero := shift_eq_zero.mpr none
    obtain ⟨k, floor⟩ := Int.eq_ofNat_of_zero_le (Int.floor_nonneg.mpr (by linarith : 0 ≤ x + 1 / 2))
    obtain ⟨below, above⟩ := Int.floor_eq_iff.mp floor
    have fits : k ≤ 65535 := by
      have small : ((k : Int) : K) < 65536 := by linarith
      have natural : k < 65536 := by exact_mod_cast small
      omega
    have near : (k : K) ≤ x + 1 / 2 := by exact_mod_cast below
    have under : x + 1 / 2 < (k : K) + 1 := by exact_mod_cast above
    have register : (pt.published .physics (pt.valueAt x)).toNat = k :=
      published_physics fits (Or.inr (by rw [zero]; linarith)) (Or.inr (by rw [zero]; linarith))
    have read : (Z (pt.published .physics (pt.valueAt x)) : K) = k := by rw [same, register, Int.cast_natCast]
    show |(Z (pt.published .physics (pt.valueAt x)) : K) - x| ≤ 1 / 2
    rw [read, abs_le]
    constructor <;> linarith

end Integers

section Decode
variable {ofFloat : UInt32 → K} {before rest : List UInt16} {raw : UInt16} {N : UInt16 → K} {Z : UInt16 → Int}
  {source : ValueSource}

/-- All values of a source come back if its registers read to half a step of where the values lie, and, for faults,
are those of the physics. -/
theorem all_round_trip_of_reads
    (reads : ∀ raw, pt.decoded ofFloat before rest raw = some (N raw * pt.app.scaleFactor + pt.app.offset)) :
    (∀ v, pt.InRange v → pt.RoundTrips ofFloat before rest source v) ↔ pt.Tracks N source ∧
      (source = .faultOverride → ∀ v, pt.InRange v → pt.published .physics v = pt.published .faultOverride v) := by
  constructor
  · intro law
    refine ⟨fun x first last => ?_, fun fault v inside => (law v inside).same fault⟩
    have close := (close_iff (reads _)).mp (law (pt.valueAt x) (inRange_valueAt.mpr ⟨first, last⟩)).near
    rwa [Close, steps_valueAt] at close
  · rintro ⟨tracks, same⟩ v inside
    refine ⟨(close_iff (reads _)).mpr ?_, fun fault => same fault v inside⟩
    have close := tracks _ inside.1 inside.2
    rwa [valueAt_steps] at close

/-- Where a register reads as an integer, the physics' values all come back under these conditions, and a
fault's never all do. -/
theorem all_round_trip_of_integers
    (reads : ∀ raw, pt.decoded ofFloat before rest raw = some ((Z raw : K) * pt.app.scaleFactor + pt.app.offset)) :
    (∀ v, pt.InRange v → pt.RoundTrips ofFloat before rest source v) ↔
      source = .physics ∧ pt.app.offset = 0 ∧ ∀ raw, Z raw = raw.toNat := by
  rw [all_round_trip_of_reads reads]
  cases source with
  | physics => simp [tracks_physics_iff]
  | faultOverride => simp [not_tracks_fault]

/-- A point whose first register reads as the number in it, whatever that is. -/
def ReadsItself (dt : DataType) (order : ByteOrder) (rest : List UInt16) : Prop :=
  dt = .float32 ∨ (dt = .uint16 ∧ order = .abcd) ∨ (dt = .int32 ∧ order = .cdab ∧ rest.head? = some 0)

theorem reads_itself_single {dt : DataType} {order : ByteOrder} (one : PointTable.registerCountFor dt = 1) :
    (∀ raw : UInt16, readInteger (PointTable.reassembleBytes [raw] order (List.replicate 8 0)).2 dt = raw.toNat) ↔
      ReadsItself dt order rest := by
  constructor
  · intro same
    have first := same 1
    have second := same 2
    have last := same 65535
    cases dt with
    | uint16 =>
      cases order with
      | abcd => exact Or.inr (Or.inl ⟨rfl, rfl⟩)
      | badc => exact absurd first (by decide)
      | cdab => exact absurd first (by decide)
      | dcba => exact absurd first (by decide)
    | int16 => cases order <;> first | exact absurd first (by decide) | exact absurd last (by decide)
    | bool => cases order <;> exact absurd second (by decide)
    | int32 => cases one
    | float32 => cases one
    | float64 => cases one
  · rintro (rfl | ⟨rfl, rfl⟩ | ⟨rfl, -⟩)
    · cases one
    · intro raw
      have word : PointTable.beToHost (bytesOf [raw] ++ [0, 0, 0, 0, 0, 0]) 2 = raw.toNat :=
        IntegerValue.beToHost_word raw _
      exact congrArg Nat.cast word
    · cases one

theorem readInteger_four (a b c d : UInt8) (later : List UInt8) : readInteger (a :: b :: c :: d :: later) .int32 =
    PointTable.signed 32 (((a.toNat * 256 + b.toNat) * 256 + c.toNat) * 256 + d.toNat) := by
  have bytes : PointTable.beToHost (a :: b :: c :: d :: later) 4 =
      ((a.toNat * 256 + b.toNat) * 256 + c.toNat) * 256 + d.toNat := by
    simp [PointTable.beToHost]
  exact congrArg (PointTable.signed 32) bytes

theorem reads_itself_int32 {n : UInt16} {order : ByteOrder} :
    (∀ raw : UInt16,
      readInteger (PointTable.reassembleBytes [raw, n] order (List.replicate 8 0)).2 .int32 = raw.toNat) ↔
      ReadsItself .int32 order (n :: rest) := by
  have bound := n.toNat_lt
  have hi := high_toNat n
  have lo := low_toNat n
  have one : (high 1).toNat = 0 ∧ (low 1).toNat = 1 := by decide
  have exchanged : ∀ raw : UInt16, (PointTable.reassembleBytes [raw, n] .cdab (List.replicate 8 0)).2 =
      [high n, low n, high raw, low raw, 0, 0, 0, 0] := fun raw => by
    rw [PointTable.reassembleBytes_eq (n := 2) (by decide) (by decide) (fun _ => rfl) rfl (by decide)]
    rfl
  constructor
  · intro same
    have first : readInteger (PointTable.reassembleBytes [1, n] order (List.replicate 8 0)).2 .int32 = 1 := same 1
    cases order with
    | abcd =>
      have read := (readInteger_four (high 1) (low 1) (high n) (low n) [0, 0, 0, 0]).symm.trans first
      rw [one.1, one.2, PointTable.signed, if_pos (by omega)] at read
      omega
    | badc =>
      have read := (readInteger_four (low 1) (high 1) (low n) (high n) [0, 0, 0, 0]).symm.trans first
      rw [one.1, one.2, PointTable.signed, if_pos (by omega)] at read
      omega
    | cdab =>
      rw [exchanged 1] at first
      have read := (readInteger_four (high n) (low n) (high 1) (low 1) [0, 0, 0, 0]).symm.trans first
      rw [one.1, one.2, PointTable.signed] at read
      have zero : n = 0 := by
        apply UInt16.toNat_inj.mp
        show n.toNat = 0
        split at read <;> omega
      exact Or.inr (Or.inr ⟨rfl, rfl, congrArg some zero⟩)
    | dcba =>
      have read := (readInteger_four (low n) (high n) (low 1) (high 1) [0, 0, 0, 0]).symm.trans first
      rw [one.1, one.2, PointTable.signed] at read
      split at read <;> omega
  · rintro (float | ⟨word, -⟩ | ⟨-, rfl, next⟩) raw
    · cases float
    · cases word
    · obtain rfl := Option.some.inj next
      have upper := high_toNat raw
      have lower := low_toNat raw
      have small := raw.toNat_lt
      have zero : (high 0).toNat = 0 ∧ (low 0).toNat = 0 := by decide
      rw [exchanged raw, readInteger_four, zero.1, zero.2, PointTable.signed, if_pos (by omega)]
      omega

/-- The exponent of a double stands in its first word. -/
theorem exponent_words (w x y z : UInt16) :
    Binary64.exponent (((w.toNat * 65536 + x.toNat) * 65536 + y.toNat) * 65536 + z.toNat) = w.toNat / 16 % 2048 := by
  have first := w.toNat_lt
  have second := x.toNat_lt
  have third := y.toNat_lt
  have fourth := z.toNat_lt
  unfold Binary64.exponent
  omega

/-- The first register decides on the exponent, and makes it small where it is, or not at all. -/
theorem exponent_patternIn (order : ByteOrder) (a b c : UInt16) :
    (∀ raw : UInt16, raw.toNat ≤ 2 → Binary64.exponent (patternIn order raw a b c) ≤ 1021) ∨
      ∀ raw raw' : UInt16,
        Binary64.exponent (patternIn order raw a b c) = Binary64.exponent (patternIn order raw' a b c) := by
  cases order with
  | abcd =>
    refine Or.inl fun raw few => ?_
    rw [patternIn, exponent_words]
    omega
  | badc =>
    refine Or.inl fun raw few => ?_
    have bytes := join_toNat (low raw) (high raw)
    rw [low_toNat, high_toNat] at bytes
    have none : raw.toNat / 256 = 0 := by omega
    rw [patternIn, exponent_words, exchanged, bytes, none]
    omega
  | cdab => exact Or.inr fun raw raw' => (exponent_words b c raw a).trans (exponent_words b c raw' a).symm
  | dcba =>
    exact Or.inr fun raw raw' => (exponent_words (exchanged c) (exchanged b) (exchanged a) (exchanged raw)).trans
      (exponent_words (exchanged c) (exchanged b) (exchanged a) (exchanged raw')).symm

/-- No double follows its first register over the whole range. -/
theorem not_tracks_double (order : ByteOrder) (a b c : UInt16) :
    ¬pt.Tracks (fun raw => Binary64.value K (patternIn order raw a b c)) source := by
  intro tracks
  obtain ⟨r, r', few, least, most, large⟩ := tracks.extremes
  rcases exponent_patternIn order a b c with small | same
  · have tiny := Binary64.value_lt_half K (small r few)
    linarith
  · have normal : Binary64.exponent (patternIn order r a b c) ≠ 0 := by
      intro zero
      have tiny := Binary64.value_lt_half K (zero.trans_le (Nat.zero_le 1021))
      linarith
    have double := Binary64.value_lt_double K (lt_of_lt_of_le one_half_pos least) normal (same r' r)
    linarith

/-- Without the registers of its type a point is not decoded at all. -/
theorem not_all_round_trip_short (other : pt.app.dataType ≠ .float32)
    (short : rest.length + 1 < PointTable.registerCountFor pt.app.dataType) :
    ¬∀ v, pt.InRange v → pt.RoundTrips ofFloat before rest source v := by
  intro law
  obtain ⟨w, decoded, -⟩ := (law (pt.valueAt 0) (inRange_valueAt.mpr ⟨le_refl 0, by norm_num⟩)).near
  rw [decoded_words other, if_pos short] at decoded
  cases decoded

theorem not_all_round_trip_double (double : pt.app.dataType = .float64) :
    ¬∀ v, pt.InRange v → pt.RoundTrips ofFloat before rest source v := by
  have other : pt.app.dataType ≠ .float32 := by
    rw [double]
    decide
  rcases rest with _ | ⟨a, _ | ⟨b, _ | ⟨c, rest⟩⟩⟩
  case cons.cons.cons =>
    rw [all_round_trip_of_reads fun raw => decoded_float64 double raw a b c]
    exact fun law => not_tracks_double _ a b c law.1
  all_goals exact not_all_round_trip_short other (by simp [double, PointTable.registerCountFor])

/-- Where the published values come back: the physics' ones, at an offset of zero, in a first register that
reads as itself. -/
def Faithful (pt : SharedPoint K) (rest : List UInt16) (source : ValueSource) : Prop :=
  source = .physics ∧ pt.app.offset = 0 ∧ ReadsItself pt.app.dataType pt.app.byteOrder rest

end Decode

end Encoders

section RoundTrip
variable [FloorRing K] [IsStrictOrderedRing K]

/-- Over all its values a source comes back only under these conditions. -/
theorem all_round_trip_iff (ofFloat : UInt32 → K) (pt : SharedPoint K) (before rest : List UInt16)
    (source : ValueSource) :
    (∀ v, pt.InRange v → pt.RoundTrips ofFloat before rest source v) ↔ pt.Faithful rest source := by
  unfold Faithful
  by_cases one : PointTable.registerCountFor pt.app.dataType = 1
  · rw [all_round_trip_of_integers (decoded_single one), reads_itself_single one]
  · cases type : pt.app.dataType with
    | bool => exact absurd (type ▸ rfl) one
    | int16 => exact absurd (type ▸ rfl) one
    | uint16 => exact absurd (type ▸ rfl) one
    | int32 =>
      cases rest with
      | nil =>
        have short : ¬∀ v, pt.InRange v → pt.RoundTrips ofFloat before [] source v :=
          not_all_round_trip_short (by simp [type]) (by simp [type, PointTable.registerCountFor])
        simp [ReadsItself, short]
      | cons n rest => rw [all_round_trip_of_integers (decoded_int32 type), reads_itself_int32]
    | float32 =>
      rw [all_round_trip_of_integers (decoded_float32 type)]
      simp [ReadsItself]
    | float64 => simp [ReadsItself, not_all_round_trip_double type]

/-- Where a value comes back: the register value that it is nearest to without the offset reads as a number close to
it, and is, for a fault, the whole steps above the offset. -/
def ComesBack (pt : SharedPoint K) (rest : List UInt16) (source : ValueSource) (v : K) : Prop :=
  ∃ k : UInt16, pt.Nearest v k ∧ (source = .faultOverride → pt.WholeSteps v k) ∧ pt.ReadsNear rest v k

theorem round_trips_iff (ofFloat : UInt32 → K) (pt : SharedPoint K) (before rest : List UInt16)
    (source : ValueSource) {v : K} (inside : pt.InRange v) :
    pt.RoundTrips ofFloat before rest source v ↔ pt.ComesBack rest source v := by
  have fits (k : UInt16) : k.toNat ≤ 65535 := Nat.le_of_lt_succ k.toNat_lt
  have reading (k : UInt16) : (∃ w, pt.decoded ofFloat before rest k = some w ∧ |w - v| ≤ pt.app.scaleFactor / 2) ↔
      pt.ReadsNear rest v k := reads_near_iff inside k
  constructor
  · rintro ⟨near, same⟩
    refine ⟨pt.published .physics v, (published_physics_iff (fits _)).mp rfl, fun fault => ?_, ?_⟩
    · rw [same fault]
      exact (published_fault_iff inside).mp rfl
    · apply (reading _).mp
      cases source with
      | physics => exact near
      | faultOverride => rwa [same rfl]
  · rintro ⟨k, nearest, whole, reads⟩
    have physics : pt.published .physics v = k := UInt16.toNat_inj.mp ((published_physics_iff (fits k)).mpr nearest)
    have near := (reading k).mpr reads
    cases source with
    | physics => exact ⟨by rwa [physics], fun fault => by cases fault⟩
    | faultOverride =>
      have overlay : pt.published .faultOverride v = k :=
        UInt16.toNat_inj.mp ((published_fault_iff inside).mpr (whole rfl))
      exact ⟨by rwa [overlay], fun _ => physics.trans overlay.symm⟩

/-- A float point with a scale of a tenth, as the tables have it. -/
def tenths : SharedPoint ℚ :=
  { app := { dataType := .float32, scaleFactor := 1 / 10, offset := 0 }
    pointName := "Rack-01_MaxTemp"
    enabled := rfl
    word := Or.inl rfl
    positive := by norm_num }

/-- A fault of 65 degrees comes back as it is. -/
theorem round_trips_iff_tenths : tenths.RoundTrips (fun _ => 0) [] [] .faultOverride 65 := by
  have inside : tenths.InRange 65 := by
    constructor <;> norm_num [tenths]
  have register : (650 : UInt16).toNat = 650 := rfl
  refine (round_trips_iff (fun _ => 0) tenths [] [] .faultOverride inside).mpr ⟨650, ?_, fun _ => ?_, ?_⟩
  · constructor <;> norm_num [tenths, register]
  · constructor <;> norm_num [tenths, register]
  · norm_num [ReadsNear, Close, tenths, register]

/-- The overlay cuts off what lies above a register value, more than half a step of it. -/
theorem round_trips_fails :
    tenths.InRange (7 / 100) ∧ ¬tenths.RoundTrips (fun _ => 0) [] [] .faultOverride (7 / 100) := by
  have inside : tenths.InRange (7 / 100) := by
    constructor <;> norm_num [tenths]
  refine ⟨inside, ?_⟩
  rintro ⟨near, -⟩
  have cut : (tenths.published .faultOverride (7 / 100)).toNat = 0 :=
    (published_fault_iff inside).mpr (by constructor <;> norm_num [tenths])
  have close := (close_iff (decoded_float32 rfl _)).mp near
  rw [cut, Close] at close
  norm_num [tenths] at close

end RoundTrip

end SharedPoint
end EnerSentry.App
