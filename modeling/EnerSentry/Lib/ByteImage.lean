import Mathlib.Algebra.Group.Nat.Defs
import Mathlib.Data.List.GetD
import Mathlib.Data.List.Basic

/-!
Memory as a function from addresses to bytes, changed by patches of consecutive bytes, and
numbers as little-endian bytes.
-/

namespace EnerSentry.Lib

abbrev ByteImage := Nat → UInt8

/-- Bytes to be stored from an address on. -/
structure Patch where
  start : Nat
  bytes : List UInt8
  deriving DecidableEq, Repr

namespace Patch

def touches (p : Patch) (a : Nat) : Prop := p.start ≤ a ∧ a < p.start + p.bytes.length

instance (p : Patch) (a : Nat) : Decidable (p.touches a) := inferInstanceAs (Decidable (_ ∧ _))

def store (p : Patch) (image : ByteImage) : ByteImage := fun a =>
  if p.touches a then p.bytes.getD (a - p.start) 0 else image a

end Patch

namespace ByteImage
variable (image : ByteImage) {p : Patch} {ps : List Patch} {a n : Nat}

/-- The patches stored one after the other. -/
def patched (ps : List Patch) : ByteImage := ps.foldl (fun image p => p.store image) image

/-- The `n` bytes from an address on. -/
def read (a n : Nat) : List UInt8 := (List.range n).map fun i => image (a + i)

theorem read_one (a : Nat) : image.read a 1 = [image a] := rfl

theorem store_outside (outside : ¬p.touches a) : p.store image a = image a := if_neg outside

/-- What no patch touches stays as it is. -/
theorem patched_outside (outside : ∀ p ∈ ps, ¬p.touches a) : image.patched ps a = image a := by
  induction ps generalizing image with
  | nil => rfl
  | cons p ps ih =>
    rw [List.forall_mem_cons] at outside
    rw [patched, List.foldl_cons, ← patched, ih (p.store image) outside.2, store_outside image outside.1]

theorem read_congr {image' : ByteImage} (same : ∀ i < n, image (a + i) = image' (a + i)) :
    image.read a n = image'.read a n := by
  apply List.map_congr_left
  intro i member
  exact same i (List.mem_range.mp member)

/-- A stretch that no patch touches is read as before. -/
theorem read_patched_outside (outside : ∀ p ∈ ps, p.start + p.bytes.length ≤ a ∨ a + n ≤ p.start) :
    (image.patched ps).read a n = image.read a n := by
  apply read_congr
  intro i small
  apply patched_outside
  intro p member touched
  have apart := outside p member
  unfold Patch.touches at touched
  omega

theorem patched_append (ps qs : List Patch) : image.patched (ps ++ qs) = (image.patched ps).patched qs :=
  List.foldl_append

/-- A stretch inside a patch is read back as long as no later patch touches it. -/
theorem read_patched_part (earlier : List Patch) (p : Patch) (later : List Patch) {k : Nat}
    (inside : k + n ≤ p.bytes.length)
    (outside : ∀ q ∈ later, q.start + q.bytes.length ≤ p.start + k ∨ p.start + k + n ≤ q.start) :
    (image.patched (earlier ++ p :: later)).read (p.start + k) n = (p.bytes.drop k).take n := by
  have stored : image.patched (earlier ++ p :: later) = (p.store (image.patched earlier)).patched later :=
    patched_append image earlier (p :: later)
  rw [stored, read_patched_outside _ outside]
  apply List.ext_getElem
  · simp only [read, List.length_map, List.length_range, List.length_take, List.length_drop]
    omega
  · intro i first second
    have small : i < n := by simpa [read] using first
    have touched : p.touches (p.start + k + i) := ⟨by omega, by omega⟩
    have place : p.start + k + i - p.start = k + i := by omega
    simp only [read, List.getElem_map, List.getElem_range, Patch.store, if_pos touched, place, List.getElem_take,
      List.getElem_drop]
    exact List.getD_eq_getElem p.bytes 0 (by omega)

/-- Patches one behind the other; each is read back, in parts. -/
theorem read_ascending_part (ascending : ps.Pairwise fun p q => p.start + p.bytes.length ≤ q.start) (member : p ∈ ps)
    {k : Nat} (inside : k + n ≤ p.bytes.length) :
    (image.patched ps).read (p.start + k) n = (p.bytes.drop k).take n := by
  obtain ⟨earlier, later, rfl⟩ := List.append_of_mem member
  apply read_patched_part image earlier p later inside
  intro q after
  have above := (List.pairwise_cons.mp (List.pairwise_append.mp ascending).2.1).1 q after
  omega

theorem read_ascending (ascending : ps.Pairwise fun p q => p.start + p.bytes.length ≤ q.start) (member : p ∈ ps) :
    (image.patched ps).read p.start p.bytes.length = p.bytes := by
  have part := read_ascending_part image ascending member (k := 0) (Nat.le_of_eq (Nat.zero_add _))
  rwa [List.drop_zero, List.take_length] at part

end ByteImage

/-- A number in `width` bytes, the least significant byte first. -/
def littleEndian : Nat → Nat → List UInt8
  | 0, _ => []
  | width + 1, n => UInt8.ofNat n :: littleEndian width (n / 256)

/-- The number that bytes stand for, the least significant byte first. -/
def ofLittleEndian : List UInt8 → Nat
  | [] => 0
  | b :: bytes => b.toNat + 256 * ofLittleEndian bytes

@[simp] theorem length_littleEndian (width n : Nat) : (littleEndian width n).length = width := by
  induction width generalizing n with
  | zero => rfl
  | succ width ih => rw [littleEndian, List.length_cons, ih]

/-- A number that fits its bytes is read back. -/
theorem ofLittleEndian_littleEndian {width n : Nat} (fits : n < 256 ^ width) :
    ofLittleEndian (littleEndian width n) = n := by
  induction width generalizing n with
  | zero => exact (Nat.lt_one_iff.mp fits).symm
  | succ width ih =>
    have rest : n / 256 < 256 ^ width := by
      rw [Nat.pow_succ] at fits
      exact Nat.div_lt_of_lt_mul (by rwa [Nat.mul_comm])
    rw [littleEndian, ofLittleEndian, ih rest, UInt8.toNat_ofNat']
    exact Nat.mod_add_div n 256

/-- Where every item has bytes of one length, the bytes of an item are found at its place. -/
theorem take_drop_flatMap {T : Type*} {raw : T → List UInt8} {size : Nat} (length : ∀ x, (raw x).length = size)
    (items : List T) {i : Nat} (inside : i < items.length) :
    ((items.flatMap raw).drop (i * size)).take size = raw items[i] := by
  induction items generalizing i with
  | nil => exact absurd inside (Nat.not_lt_zero i)
  | cons x items ih =>
    rw [List.flatMap_cons]
    cases i with
    | zero =>
      rw [Nat.zero_mul, List.drop_zero, ← length x, List.take_left]
      rfl
    | succ i =>
      rw [Nat.succ_mul, Nat.add_comm, ← List.drop_drop, ← length x, List.drop_left, length x]
      exact ih (Nat.lt_of_succ_lt_succ inside)

end EnerSentry.Lib
