import Mathlib.Algebra.Ring.Int.Defs
import EnerSentry.Protocol.PointTable

/-!
Reassembling the bytes of a value from its registers. Each byte order is a permutation of the
bytes that undoes itself; the exchange of halves does its work on an even number of registers
alone, and leaves the last one of an odd number unwritten.
-/

namespace EnerSentry.Protocol
open EnerSentry.Lib.Packing

section Permuted
variable {σ : Nat → Nat} {bytes out : List UInt8} {m n : Nat}

/-- The bytes with the one at `σ i` in place `i`. -/
def permuted (σ : Nat → Nat) (bytes : List UInt8) : List UInt8 :=
  (List.range bytes.length).map fun i => bytes.getD (σ i) 0

@[simp] theorem length_permuted : (permuted σ bytes).length = bytes.length := by simp [permuted]

theorem getD_permuted {i : Nat} (inside : i < bytes.length) : (permuted σ bytes).getD i 0 = bytes.getD (σ i) 0 := by
  simp [permuted, List.getD_eq_getElem?_getD, List.getElem?_map, List.getElem?_range inside]

theorem permuted_id : permuted id bytes = bytes := by
  apply List.ext_getElem
  · simp
  · intro i before after
    simp [permuted, List.getElem?_eq_getElem after]

/-- A permutation that undoes itself gives the bytes back. -/
theorem permuted_permuted (inverse : ∀ i < bytes.length, σ i < bytes.length ∧ σ (σ i) = i) :
    permuted σ (permuted σ bytes) = bytes := by
  apply List.ext_getElem
  · simp
  · intro i before after
    obtain ⟨inside, back⟩ := inverse i after
    have twice : (permuted σ (permuted σ bytes)).getD i 0 = bytes.getD i 0 := by
      rw [getD_permuted (by simpa using after), getD_permuted inside, back]
    simpa [List.getD_eq_getElem?_getD, before, after] using twice

/-- A loop that writes the cells of a buffer one after the other. -/
theorem foldl_set_range (f : Nat → UInt8) (room : m ≤ out.length) :
    (List.range m).foldl (fun out i => out.set i (f i)) out = (List.range m).map f ++ out.drop m := by
  induction m with
  | zero => rfl
  | succ m ih =>
    have here : m < out.length := room
    rw [List.range_succ, List.foldl_concat, ih (by omega), List.set_append_right _ _ (by simp),
      List.drop_eq_getElem_cons here]
    simp only [List.length_map, List.length_range, Nat.sub_self, List.set_cons_zero, List.map_append, List.map_cons,
      List.map_nil, List.append_assoc, List.cons_append, List.nil_append]

/-- Two cells at a time come to the same. -/
theorem foldl_set_pairs (f : Nat → UInt8) (out : List UInt8) (n : Nat) :
    (List.range n).foldl (fun out i => (out.set (2 * i) (f (2 * i))).set (2 * i + 1) (f (2 * i + 1))) out =
      (List.range (2 * n)).foldl (fun out i => out.set i (f i)) out := by
  induction n with
  | zero => rfl
  | succ n ih =>
    rw [List.range_succ, List.foldl_concat, ih, Nat.mul_succ, List.range_add, List.foldl_append]
    rfl

end Permuted

/-- The place of each byte under a byte order, in the bytes of `n` registers. -/
def ByteOrder.place (n : Nat) : ByteOrder → Nat → Nat
  | .abcd, i => i
  | .badc, i => if i % 2 = 0 then i + 1 else i - 1
  | .cdab, i => if i < n then i + n else i - n
  | .dcba, i => 2 * n - 1 - i

namespace PointTable
open ByteOrder

variable {regs : List UInt16} {out : List UInt8} {n : Nat} {order : ByteOrder} {σ : Nat → Nat}

/-- The bytes of `n` registers are rearranged by `σ`, which undoes itself, and all written. -/
structure Reorders (n : Nat) (order : ByteOrder) (σ : Nat → Nat) : Prop where
  inverse : ∀ i < 2 * n, σ i < 2 * n ∧ σ (σ i) = i
  written : ∀ (regs : List UInt16) (out : List UInt8), regs.length = n → 2 * n ≤ out.length →
    reassembleBytes regs order out = (2 * n, permuted σ (bytesOf regs) ++ out.drop (2 * n))

theorem place_place (even : order = .cdab → n % 2 = 0) {i : Nat} (inside : i < 2 * n) :
    place n order i < 2 * n ∧ place n order (place n order i) = i := by
  cases order with
  | abcd => exact ⟨inside, rfl⟩
  | badc =>
    simp only [place]
    split <;> split <;> omega
  | cdab =>
    simp only [place]
    split <;> split <;> omega
  | dcba =>
    simp only [place]
    omega

/-- What is written, where the halves have equal length. -/
theorem reassembleBytes_eq (some : 1 ≤ n) (few : n ≤ 4) (even : order = .cdab → n % 2 = 0) (count : regs.length = n)
    (room : 2 * n ≤ out.length) :
    reassembleBytes regs order out = (2 * n, permuted (place n order) (bytesOf regs) ++ out.drop (2 * n)) := by
  have size : (bytesOf regs).length = 2 * n := by rw [length_bytesOf, count]
  unfold reassembleBytes
  simp only [count]
  rw [if_neg (by omega), if_neg (by omega), Nat.mul_comm n 2]
  cases order with
  | abcd =>
    rw [show place n .abcd = id from rfl, permuted_id]
  | badc =>
    have pairs : ∀ i, (bytesOf regs).getD (2 * i + 1) 0 = (bytesOf regs).getD (place n .badc (2 * i)) 0 ∧
        (bytesOf regs).getD (2 * i) 0 = (bytesOf regs).getD (place n .badc (2 * i + 1)) 0 := by
      intro i
      rw [place, place, if_pos (by omega), if_neg (by omega)]
      exact ⟨rfl, rfl⟩
    simp only [(pairs _).1]
    simp only [(pairs _).2]
    rw [foldl_set_pairs fun i => (bytesOf regs).getD (place n .badc i) 0, foldl_set_range _ room, permuted, size]
  | cdab =>
    have halves : n = 2 ∨ n = 4 := by
      have := even rfl
      omega
    rcases halves with rfl | rfl
    · obtain ⟨a, b, rfl⟩ := List.length_eq_two.mp count
      rcases out with _ | ⟨o₀, _ | ⟨o₁, _ | ⟨o₂, _ | ⟨o₃, rest⟩⟩⟩⟩ <;> first | rfl | exact absurd room (by simp)
    · obtain ⟨a, b, c, d, rfl⟩ := List.length_eq_four.mp count
      rcases out with _ | ⟨o₀, _ | ⟨o₁, _ | ⟨o₂, _ | ⟨o₃, _ | ⟨o₄, _ | ⟨o₅, _ | ⟨o₆, _ | ⟨o₇, rest⟩⟩⟩⟩⟩⟩⟩⟩ <;>
        first | rfl | exact absurd room (by simp)
  | dcba =>
    simp only
    rw [foldl_set_range _ room, permuted, size]
    rfl

/-- An odd number of registers keeps its last one out of the exchange of halves. -/
theorem not_reorders (some : 1 ≤ n) (few : n ≤ 4) (odd : n % 2 ≠ 0) : ¬Reorders n .cdab σ := by
  intro reorders
  have inside := (reorders.inverse (2 * n - 1) (by omega)).1
  have size : (bytesOf (List.replicate n 0x0101)).length = 2 * n := by simp
  have last : (reassembleBytes (List.replicate n 0x0101) .cdab (List.replicate (2 * n) 0)).2.getD (2 * n - 1) 0 =
      (bytesOf (List.replicate n 0x0101)).getD (σ (2 * n - 1)) 0 := by
    rw [reorders.written _ _ (by simp) (by simp), List.getD_append _ _ _ _ (by rw [length_permuted, size]; omega),
      getD_permuted (by rw [size]; omega)]
  have cases : n = 1 ∨ n = 3 := by omega
  rcases cases with rfl | rfl
  · have ones : ∀ i < 2, (bytesOf (List.replicate 1 0x0101)).getD i 0 = 1 := by decide
    rw [ones _ inside] at last
    exact absurd last (by decide)
  · have ones : ∀ i < 6, (bytesOf (List.replicate 3 0x0101)).getD i 0 = 1 := by decide
    rw [ones _ inside] at last
    exact absurd last (by decide)

end PointTable

/-- A value of an integer type. -/
inductive IntegerValue where
  | int16 (v : Int16)
  | uint16 (v : UInt16)
  | int32 (v : Int32)
  deriving DecidableEq

namespace IntegerValue

def dataType : IntegerValue → DataType
  | int16 _ => .int16
  | uint16 _ => .uint16
  | int32 _ => .int32

/-- The registers of a value, the most significant word first. -/
def words : IntegerValue → List UInt16
  | int16 v => [v.toUInt16]
  | uint16 v => [v]
  | int32 v => [(v.toUInt32 >>> 16).toUInt16, v.toUInt32.toUInt16]

def number : IntegerValue → Int
  | int16 v => v.toInt
  | uint16 v => v.toNat
  | int32 v => v.toInt

theorem beToHost_word (w : UInt16) (rest : List UInt8) :
    PointTable.beToHost (high w :: low w :: rest) 2 = w.toNat := by
  have joined := join_toNat (high w) (low w)
  rw [join_high_low] at joined
  simp [PointTable.beToHost, joined]

theorem beToHost_words (w x : UInt16) (rest : List UInt8) :
    PointTable.beToHost (high w :: low w :: high x :: low x :: rest) 4 = w.toNat * 65536 + x.toNat := by
  have first := join_toNat (high w) (low w)
  have second := join_toNat (high x) (low x)
  rw [join_high_low] at first second
  simp only [PointTable.beToHost, List.take_succ_cons, List.take_zero, List.foldl_cons, List.foldl_nil]
  omega

theorem signed_toInt {w : Nat} (x : BitVec w) (some : 1 ≤ w) : PointTable.signed w x.toNat = x.toInt := by
  have double : 2 ^ w = 2 * 2 ^ (w - 1) := by
    rw [← Nat.pow_succ', Nat.succ_eq_add_one, Nat.sub_add_cancel some]
  rw [PointTable.signed, BitVec.toInt_eq_toNat_cond]
  by_cases low : x.toNat < 2 ^ (w - 1)
  · rw [if_pos low, if_pos (by omega)]
  · rw [if_neg low, if_neg (by omega)]
    simp

variable {K : Type*} [NonAssocSemiring K] (cv : Conversions K)

/-- A value is read back from its bytes. -/
theorem decode_bytes (x : IntegerValue) (rest : List UInt8) :
    PointTable.decodeToEngineering cv (bytesOf x.words ++ rest) (2 * x.words.length) x.dataType 1 0 =
      cv.ofInt x.number := by
  have raw : PointTable.rawValue cv (bytesOf x.words ++ rest) (2 * x.words.length) x.dataType =
      some (cv.ofInt x.number) := by
    cases x with
    | int16 v =>
      have word : PointTable.beToHost (bytesOf [v.toUInt16] ++ rest) 2 = v.toUInt16.toNat := beToHost_word ..
      have read : PointTable.signed 16 v.toUInt16.toNat = v.toInt := signed_toInt v.toBitVec (by decide)
      simp only [words, dataType, number, PointTable.rawValue, word, read]
      rfl
    | uint16 v =>
      have word : PointTable.beToHost (bytesOf [v] ++ rest) 2 = v.toNat := beToHost_word ..
      simp only [words, dataType, number, PointTable.rawValue, word]
      rfl
    | int32 v =>
      have high : (v.toUInt32 >>> 16).toUInt16.toNat = v.toUInt32.toNat / 65536 := by
        have bound := v.toUInt32.toNat_lt
        rw [UInt32.toNat_toUInt16, UInt32.toNat_shiftRight, show (16 : UInt32).toNat % 32 = 16 from rfl,
          Nat.shiftRight_eq_div_pow]
        omega
      have low : v.toUInt32.toUInt16.toNat = v.toUInt32.toNat % 65536 := UInt32.toNat_toUInt16 _
      have word : PointTable.beToHost (bytesOf [(v.toUInt32 >>> 16).toUInt16, v.toUInt32.toUInt16] ++ rest) 4 =
          v.toUInt32.toNat := by
        refine (beToHost_words ..).trans ?_
        rw [high, low]
        omega
      have read : PointTable.signed 32 v.toUInt32.toNat = v.toInt := signed_toInt v.toBitVec (by decide)
      simp only [words, dataType, number, PointTable.rawValue, word, read]
      rfl
  rw [PointTable.decodeToEngineering, raw]
  simp only [mul_one, add_zero]

end IntegerValue

namespace PointTable
variable {K : Type*} [NonAssocSemiring K] (cv : Conversions K) {n : Nat}

/-- Reassembly under a byte order is a permutation that undoes itself, and a value that was
encoded with it is read back. -/
def ReassemblyLaw (n : Nat) (order : ByteOrder) : Prop :=
  ∃ σ, Reorders n order σ ∧ ∀ (x : IntegerValue) (out : List UInt8), x.words.length = n → 2 * n ≤ out.length →
    let written := reassembleBytes (wordsOf (permuted σ (bytesOf x.words))) order out
    decodeToEngineering cv written.2 written.1 x.dataType 1 0 = cv.ofInt x.number

/-- Reassembly undoes the encoding. -/
theorem Reorders.round_trip {order : ByteOrder} {σ : Nat → Nat} (reorders : Reorders n order σ) {words : List UInt16}
    (count : words.length = n) {out : List UInt8} (room : 2 * n ≤ out.length) :
    reassembleBytes (wordsOf (permuted σ (bytesOf words))) order out = (2 * n, bytesOf words ++ out.drop (2 * n)) := by
  have size : (bytesOf words).length = 2 * n := by rw [length_bytesOf, count]
  have whole : bytesOf (wordsOf (permuted σ (bytesOf words))) = permuted σ (bytesOf words) := by
    apply bytesOf_wordsOf
    rw [length_permuted, size]
    omega
  have registers : (wordsOf (permuted σ (bytesOf words))).length = n := by
    have double := congrArg List.length whole
    rw [length_bytesOf, length_permuted, size] at double
    omega
  have back : permuted σ (permuted σ (bytesOf words)) = bytesOf words :=
    permuted_permuted fun i inside => by
      rw [size] at inside ⊢
      exact reorders.inverse i inside
  rw [reorders.written _ out registers room, whole, back]

theorem reassembly_iff (some : 1 ≤ n) (few : n ≤ 4) (order : ByteOrder) :
    ReassemblyLaw cv n order ↔ (order = .cdab → n % 2 = 0) := by
  constructor
  · rintro ⟨σ, reorders, -⟩ rfl
    by_contra odd
    exact not_reorders some few odd reorders
  · intro even
    have reorders : Reorders n order (order.place n) :=
      ⟨fun i inside => place_place even inside, fun regs out count room => reassembleBytes_eq some few even count room⟩
    refine ⟨order.place n, reorders, ?_⟩
    rintro x out rfl room
    simp only [reorders.round_trip rfl room]
    exact x.decode_bytes cv _

/-- The integers read as they are. -/
def integers : Conversions Int := { ofInt := id, ofFloat := fun _ => 0, ofDouble := fun _ => 0 }

/-- Two registers whose halves are exchanged. -/
theorem reassembly_iff_two : ReassemblyLaw integers 2 .cdab :=
  (reassembly_iff integers (by decide) (by decide) .cdab).mpr fun _ => rfl

/-- The exchange of halves leaves a single register unwritten. -/
theorem reassembly_fails : ¬ReassemblyLaw integers 1 .cdab := by
  rintro ⟨σ, reorders, -⟩
  exact not_reorders (by decide) (by decide) (by decide) reorders

end PointTable
end EnerSentry.Protocol
