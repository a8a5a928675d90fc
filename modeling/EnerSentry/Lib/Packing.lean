import Mathlib.Data.List.Basic
import Mathlib.Data.Nat.Bitwise

/-!
Sixteen-bit words and single bits inside byte strings. Words lie in network order, the
high byte first; bits are counted from the least significant one of the first byte.
-/

namespace EnerSentry.Lib.Packing

section Words

def high (x : UInt16) : UInt8 := (x >>> 8).toUInt8

def low (x : UInt16) : UInt8 := (x &&& 0xFF).toUInt8

def join (h l : UInt8) : UInt16 := (h.toUInt16 <<< 8) ||| l.toUInt16

theorem high_toNat (x : UInt16) : (high x).toNat = x.toNat / 256 := by
  have bound := x.toNat_lt
  simp only [high, UInt16.toNat_toUInt8, UInt16.toNat_shiftRight]
  rw [show (8 : UInt16).toNat % 16 = 8 from rfl, Nat.shiftRight_eq_div_pow]
  omega

theorem low_toNat (x : UInt16) : (low x).toNat = x.toNat % 256 := by
  simp only [low, UInt16.toNat_toUInt8, UInt16.toNat_and]
  rw [show (255 : UInt16).toNat = 2 ^ 8 - 1 from rfl, Nat.and_two_pow_sub_one_eq_mod]
  omega

theorem join_toNat (h l : UInt8) : (join h l).toNat = h.toNat * 256 + l.toNat := by
  have top := h.toNat_lt
  have shifted : (h.toNat <<< 8) % 2 ^ 16 = h.toNat <<< 8 := by
    apply Nat.mod_eq_of_lt
    rw [Nat.shiftLeft_eq]
    omega
  simp only [join, UInt16.toNat_or, UInt16.toNat_shiftLeft, UInt8.toNat_toUInt16]
  rw [show (8 : UInt16).toNat % 16 = 8 from rfl, shifted, ← Nat.shiftLeft_add_eq_or_of_lt l.toNat_lt,
    Nat.shiftLeft_eq]

@[simp] theorem join_high_low (x : UInt16) : join (high x) (low x) = x := by
  apply UInt16.toNat_inj.mp
  rw [join_toNat, high_toNat, low_toNat]
  omega

@[simp] theorem high_join (h l : UInt8) : high (join h l) = h := by
  apply UInt8.toNat_inj.mp
  have small := l.toNat_lt
  rw [high_toNat, join_toNat]
  omega

@[simp] theorem low_join (h l : UInt8) : low (join h l) = l := by
  apply UInt8.toNat_inj.mp
  have small := l.toNat_lt
  rw [low_toNat, join_toNat]
  omega

def bytesOf (words : List UInt16) : List UInt8 := words.flatMap fun x => [high x, low x]

/-- The words of a byte string; an odd byte at the end is dropped. -/
def wordsOf : List UInt8 → List UInt16
  | h :: l :: rest => join h l :: wordsOf rest
  | _ => []

@[simp] theorem length_bytesOf (words : List UInt16) : (bytesOf words).length = 2 * words.length := by
  induction words with
  | nil => rfl
  | cons x words ih =>
    simp only [bytesOf, List.flatMap_cons, List.length_append, List.length_cons, List.length_nil] at ih ⊢
    omega

@[simp] theorem wordsOf_bytesOf (words : List UInt16) : wordsOf (bytesOf words) = words := by
  induction words with
  | nil => rfl
  | cons x words ih =>
    rw [bytesOf, List.flatMap_cons, List.cons_append, List.cons_append, List.nil_append, wordsOf,
      join_high_low, ← bytesOf, ih]

/-- Nothing is dropped from a string of even length. -/
theorem bytesOf_wordsOf {bytes : List UInt8} (even : bytes.length % 2 = 0) : bytesOf (wordsOf bytes) = bytes := by
  induction bytes using wordsOf.induct with
  | case1 h l rest ih =>
    have shorter : rest.length % 2 = 0 := by
      simp only [List.length_cons] at even
      omega
    rw [wordsOf, bytesOf, List.flatMap_cons, high_join, low_join, ← bytesOf, ih shorter]
    rfl
  | case2 bytes single =>
    cases bytes with
    | nil => rfl
    | cons b rest =>
      cases rest with
      | nil => exact absurd even (by simp)
      | cons c rest => exact absurd rfl (single b c rest)

/-- A word lies at every second place. -/
theorem wordsOf_eq_map (bytes : List UInt8) :
    wordsOf bytes = (List.range (bytes.length / 2)).map
      (fun i => join (bytes.getD (2 * i) 0) (bytes.getD (2 * i + 1) 0)) := by
  induction bytes using wordsOf.induct with
  | case1 h l rest ih =>
    have more : (h :: l :: rest).length / 2 = rest.length / 2 + 1 := by
      simp only [List.length_cons]
      omega
    rw [wordsOf, ih, more, List.range_succ_eq_map, List.map_cons, List.map_map]
    rfl
  | case2 bytes single =>
    cases bytes with
    | nil => rfl
    | cons b rest =>
      cases rest with
      | nil => simp [wordsOf]
      | cons c rest => exact absurd rfl (single b c rest)

end Words

section Bits

def bitAt (bytes : List UInt8) (i : Nat) : Bool := (bytes.getD (i / 8) 0).toNat.testBit (i % 8)

def setBit (bytes : List UInt8) (i : Nat) : List UInt8 :=
  bytes.modify (i / 8) (· ||| UInt8.ofNat (1 <<< (i % 8)))

@[simp] theorem length_setBit (bytes : List UInt8) (i : Nat) : (setBit bytes i).length = bytes.length :=
  List.length_modify ..

theorem mask_toNat {k : Nat} (small : k < 8) : (UInt8.ofNat (1 <<< k)).toNat = 2 ^ k := by
  rw [UInt8.toNat_ofNat', Nat.one_shiftLeft]
  exact Nat.mod_eq_of_lt (Nat.pow_lt_pow_right (by decide) small)

theorem bitAt_setBit {bytes : List UInt8} {i : Nat} (inside : i < 8 * bytes.length) (j : Nat) :
    bitAt (setBit bytes i) j = (bitAt bytes j || decide (j = i)) := by
  have small : i % 8 < 8 := Nat.mod_lt _ (by decide)
  have slot : i / 8 < bytes.length := by omega
  rw [bitAt, setBit, List.getD_eq_getElem?_getD, List.getElem?_modify]
  by_cases same : i / 8 = j / 8
  · have here : (fun a : UInt8 => if i / 8 = j / 8 then a ||| UInt8.ofNat (1 <<< (i % 8)) else a) =
        (· ||| UInt8.ofNat (1 <<< (i % 8))) := by
      funext a
      rw [if_pos same]
    rw [here, bitAt, ← same, List.getD_eq_getElem _ _ slot, List.getElem?_eq_getElem slot]
    simp only [Option.map_eq_map, Option.map_some, Option.getD_some, UInt8.toNat_or, Nat.testBit_or,
      mask_toNat small, Nat.testBit_two_pow]
    congr 1
    apply decide_eq_decide.mpr
    omega
  · have other : j ≠ i := fun equal => same (equal ▸ rfl)
    simp [bitAt, same, other, List.getD_eq_getElem?_getD]

/-- The bits `bit 0`, …, `bit (n - 1)` set one by one in a string of zero bytes. -/
def packBits (bit : Nat → Bool) (n : Nat) : List UInt8 :=
  (List.range n).foldl (fun bytes i => if bit i then setBit bytes i else bytes)
    (List.replicate ((n + 7) / 8) 0)

theorem packed_upTo (bit : Nat → Bool) (size : Nat) : ∀ n, n ≤ 8 * size →
    ((List.range n).foldl (fun bytes i => if bit i then setBit bytes i else bytes)
      (List.replicate size 0)).length = size ∧
    ∀ j, bitAt ((List.range n).foldl (fun bytes i => if bit i then setBit bytes i else bytes)
      (List.replicate size 0)) j = (decide (j < n) && bit j) := by
  intro n
  induction n with
  | zero =>
    intro _
    refine ⟨List.length_replicate, fun j => ?_⟩
    simp [bitAt]
  | succ n ih =>
    intro room
    obtain ⟨length, bits⟩ := ih (by omega)
    rw [List.range_succ, List.foldl_concat]
    cases set : bit n with
    | false =>
      refine ⟨by simpa using length, fun j => ?_⟩
      rw [if_neg Bool.false_ne_true, bits]
      rcases Nat.lt_trichotomy j n with below | rfl | above
      · simp [below, Nat.lt_succ_of_lt below]
      · simp [set]
      · simp [Nat.not_lt.mpr above.le, Nat.not_lt.mpr (Nat.succ_le_of_lt above)]
    | true =>
      refine ⟨by simpa using length, fun j => ?_⟩
      rw [if_pos rfl, bitAt_setBit (by omega), bits]
      rcases Nat.lt_trichotomy j n with below | rfl | above
      · simp [below, Nat.lt_succ_of_lt below, below.ne]
      · simp [set]
      · simp [Nat.not_lt.mpr above.le, Nat.not_lt.mpr (Nat.succ_le_of_lt above), above.ne']

@[simp] theorem length_packBits (bit : Nat → Bool) (n : Nat) : (packBits bit n).length = (n + 7) / 8 :=
  (packed_upTo bit ((n + 7) / 8) n (by omega)).1

@[simp] theorem bitAt_packBits (bit : Nat → Bool) (n j : Nat) :
    bitAt (packBits bit n) j = (decide (j < n) && bit j) :=
  (packed_upTo bit ((n + 7) / 8) n (by omega)).2 j

/-- Only the bits that are packed count. -/
theorem packBits_congr {n : Nat} {f g : Nat → Bool} (same : ∀ i < n, f i = g i) : packBits f n = packBits g n := by
  apply List.foldl_ext
  intro bytes i member
  rw [same i (List.mem_range.mp member)]

end Bits

end EnerSentry.Lib.Packing
