import Mathlib.Data.List.GetD
import Mathlib.Data.List.Induction
import Mathlib.Data.List.Infix
import Mathlib.Algebra.Order.Group.Nat
import Mathlib.Data.UInt
import Mathlib.Logic.Function.Basic

/-!
The swap file of the black box: a header and a ring of fixed slots in a mapped file. A
handle keeps its own write position and count, loaded from the header when the file is
opened and stored back with every snapshot. The mapping shares the memory of the file, so
what is appended is there when the file is opened again.
-/

namespace EnerSentry.Datahub

inductive AlarmLevel where
  | info | warning | critical
  deriving DecidableEq, Repr

structure BlackBoxSnapshot (T : Type*) where
  pointId : UInt32 := 0
  alarmTime : UInt64 := 0
  level : AlarmLevel := .info
  samples : List T := []
  deriving DecidableEq, Repr

def kMaxSamplesPerSnap : Nat := 1024

def kSlotCount : Nat := 64

/-- The bytes of `ENSBBX01`. -/
def kMagic : List UInt8 := [0x45, 0x4E, 0x53, 0x42, 0x42, 0x58, 0x30, 0x31]

structure SwapHeader where
  magic : List UInt8
  version : UInt32
  snapshotCount : UInt32
  writePos : UInt32
  deriving DecidableEq, Repr

structure SwapSlot (T : Type*) where
  pointId : UInt32
  alarmTime : UInt64
  level : AlarmLevel
  count : UInt32
  samples : Nat → T

/-- The contents of the file. -/
structure SwapImage (T : Type*) where
  header : SwapHeader
  slots : Nat → SwapSlot T

/-- A handle on the file. -/
structure CriticalSwapFile where
  mapped : Bool := false
  writePos : UInt32 := 0
  snapshotCount : UInt32 := 0
  initialized : Bool := false
  deriving DecidableEq, Repr

variable {T : Type*}

namespace SwapSlot

def write (slot : SwapSlot T) (snap : BlackBoxSnapshot T) : SwapSlot T where
  pointId := snap.pointId
  alarmTime := snap.alarmTime
  level := snap.level
  count := UInt32.ofNat snap.samples.length
  samples i := snap.samples.getD i (slot.samples i)

/-- The snapshot in a slot; a count of zero marks an empty slot. -/
def read (slot : SwapSlot T) : Option (BlackBoxSnapshot T) :=
  if slot.count = 0 ∨ kMaxSamplesPerSnap < slot.count.toNat then none
  else
    some {
      pointId := slot.pointId
      alarmTime := slot.alarmTime
      level := slot.level
      samples := (List.range slot.count.toNat).map slot.samples }

end SwapSlot

/-- A file as a first opening leaves it. -/
def SwapImage.blank [Zero T] : SwapImage T where
  header := { magic := kMagic, version := 1, snapshotCount := 0, writePos := 0 }
  slots _ := { pointId := 0, alarmTime := 0, level := .info, count := 0, samples := fun _ => 0 }

namespace CriticalSwapFile

def close (_ : CriticalSwapFile) : CriticalSwapFile := {}

/-- The handle that a header gives. -/
def ofHeader (h : SwapHeader) : CriticalSwapFile where
  mapped := true
  writePos := h.writePos
  snapshotCount := h.snapshotCount
  initialized := true

/-- Opening a file; `mappable` says whether the platform maps it. -/
def openFile [Zero T] (mappable : Bool) (file : CriticalSwapFile) (image : SwapImage T) :
    CriticalSwapFile × SwapImage T × Bool :=
  if !mappable then (file.close, image, false)
  else if image.header.magic ≠ kMagic then (ofHeader (SwapImage.blank (T := T)).header, SwapImage.blank, true)
  else if image.header.version ≠ 1 then (file.close, image, false)
  else
    let header :=
      if kSlotCount ≤ image.header.writePos.toNat then { image.header with writePos := 0 } else image.header
    (ofHeader header, { image with header := header }, true)

def appendSnapshot (file : CriticalSwapFile) (image : SwapImage T) (snap : BlackBoxSnapshot T) :
    CriticalSwapFile × SwapImage T × Bool :=
  if !file.initialized || !file.mapped then (file, image, false)
  else if kMaxSamplesPerSnap < snap.samples.length then (file, image, false)
  else
    let slot := file.writePos.toNat % kSlotCount
    let file := { file with
      snapshotCount := file.snapshotCount + 1
      writePos := (file.writePos + 1) % UInt32.ofNat kSlotCount }
    (file,
      { header := { image.header with snapshotCount := file.snapshotCount, writePos := file.writePos }
        slots := Function.update image.slots slot ((image.slots slot).write snap) },
      true)

/-- The slots in slot order, empty ones skipped, until enough snapshots are read. -/
def parsePendingSnapshots (file : CriticalSwapFile) (image : SwapImage T) (limit : Nat) :
    List (BlackBoxSnapshot T) :=
  if !file.initialized || !file.mapped then []
  else
    let count := min file.snapshotCount.toNat limit
    if file.snapshotCount = 0 then []
    else
      (List.range kSlotCount).foldl (fun out i =>
        if out.length < count then out ++ (image.slots i).read.toList else out) []

end CriticalSwapFile

section Slots
variable {slot : SwapSlot T} {snap : BlackBoxSnapshot T} {image : SwapImage T} {file : CriticalSwapFile}

/-- A slot gives back what was written, if that is not empty and fits. -/
theorem SwapSlot.read_write (some_ : snap.samples ≠ []) (fits : snap.samples.length ≤ kMaxSamplesPerSnap) :
    (slot.write snap).read = some snap := by
  have small : snap.samples.length < 2 ^ 32 := Nat.lt_of_le_of_lt fits (by decide)
  have count : (UInt32.ofNat snap.samples.length).toNat = snap.samples.length :=
    UInt32.toNat_ofNat_of_lt' small
  have positive := List.length_pos_iff.mpr some_
  have filled : UInt32.ofNat snap.samples.length ≠ 0 := by
    intro none
    rw [none] at count
    exact absurd count.symm positive.ne'
  have samples : (List.range snap.samples.length).map (slot.write snap).samples = snap.samples := by
    apply List.ext_getElem
    · simp
    · intro i before bound
      simp only [List.getElem_map, List.getElem_range, write]
      exact List.getD_eq_getElem _ _ bound
  simp only [read, write, count, filled, false_or, if_neg (Nat.not_lt.mpr fits)]
  exact congrArg some (congrArg (BlackBoxSnapshot.mk snap.pointId snap.alarmTime snap.level) samples)

/-- What a slot gives is neither empty nor over-long. -/
theorem SwapSlot.read_bounds (found : slot.read = some snap) :
    snap.samples ≠ [] ∧ snap.samples.length ≤ kMaxSamplesPerSnap := by
  unfold read at found
  split at found
  · cases found
  · rename_i valid
    rw [not_or, Nat.not_lt] at valid
    obtain rfl := Option.some.inj found
    have positive : slot.count.toNat ≠ 0 := fun none => valid.1 (UInt32.toNat_inj.mp none)
    refine ⟨?_, by simpa using valid.2⟩
    simp [positive]

namespace CriticalSwapFile

/-- The reader takes the first snapshots of the slots in slot order. -/
theorem scan_eq_take (count : Nat) (l : List Nat) :
    l.foldl (fun out i => if out.length < count then out ++ (image.slots i).read.toList else out) [] =
      (l.filterMap (fun i => (image.slots i).read)).take count := by
  induction l using List.reverseRecOn with
  | nil => simp
  | append_singleton l i ih =>
    rw [List.foldl_concat, ih, List.filterMap_append, List.length_take]
    have last : [i].filterMap (fun i => (image.slots i).read) = (image.slots i).read.toList := by
      cases found : (image.slots i).read <;> simp [found]
    rw [last]
    by_cases room : (l.filterMap (fun i => (image.slots i).read)).length < count
    · rw [if_pos (by omega), List.take_of_length_le room.le, List.take_of_length_le]
      rw [List.length_append]
      have one : (image.slots i).read.toList.length ≤ 1 := by
        cases (image.slots i).read <;> simp
      omega
    · rw [if_neg (by omega), List.take_append_of_le_length (by omega)]

theorem parsePendingSnapshots_eq (opened : file.initialized = true) (mapped : file.mapped = true)
    {limit : Nat} : file.parsePendingSnapshots image limit =
      ((List.range kSlotCount).filterMap (fun i => (image.slots i).read)).take
        (min file.snapshotCount.toNat limit) := by
  rw [parsePendingSnapshots, opened, mapped, ← scan_eq_take]
  simp only [Bool.not_true, Bool.or_self, Bool.false_eq_true, ↓reduceIte]
  split
  · rename_i none
    rw [scan_eq_take, none]
    simp
  · rfl

/-- A slot that the count reaches is read. -/
theorem mem_parsePendingSnapshots (opened : file.initialized = true) (mapped : file.mapped = true)
    {place limit : Nat} (inside : place < kSlotCount) (found : (image.slots place).read = some snap)
    (reached : place < file.snapshotCount.toNat) (sufficient : min file.snapshotCount.toNat kSlotCount ≤ limit) :
    snap ∈ file.parsePendingSnapshots image limit := by
  have split : List.range kSlotCount =
      List.range place ++ place :: (List.range' (place + 1) (kSlotCount - place - 1)) := by
    have parts := List.range'_append_1 (s := 0) (m := place) (n := kSlotCount - place)
    rw [Nat.zero_add, Nat.add_sub_cancel' inside.le, ← List.range_eq_range', ← List.range_eq_range'] at parts
    obtain ⟨rest, size⟩ := Nat.exists_eq_succ_of_ne_zero (Nat.sub_ne_zero_of_lt inside)
    rw [← parts, size, List.range'_succ, Nat.succ_sub_one]
  rw [parsePendingSnapshots_eq opened mapped, split, List.filterMap_append]
  simp only [List.filterMap_cons, found]
  have early : ((List.range place).filterMap (fun i => (image.slots i).read)).length ≤ place :=
    (List.length_filterMap_le _ _).trans List.length_range.le
  rw [List.take_append]
  apply List.mem_append_right
  have room : 0 < min file.snapshotCount.toNat limit -
      ((List.range place).filterMap (fun i => (image.slots i).read)).length := by omega
  obtain ⟨rest, size⟩ := Nat.exists_eq_succ_of_ne_zero room.ne'
  rw [size, List.take_succ_cons]
  exact List.mem_cons_self

theorem parsePendingSnapshots_bounds {limit : Nat} (found : snap ∈ file.parsePendingSnapshots image limit) :
    snap.samples ≠ [] ∧ snap.samples.length ≤ kMaxSamplesPerSnap ∧ file.snapshotCount ≠ 0 := by
  unfold parsePendingSnapshots at found
  simp only at found
  split at found
  · cases found
  · split at found
    · cases found
    · rename_i counted
      rw [scan_eq_take] at found
      obtain ⟨place, -, given⟩ := List.mem_filterMap.mp (List.mem_of_mem_take found)
      exact ⟨(SwapSlot.read_bounds given).1, (SwapSlot.read_bounds given).2, counted⟩

end CriticalSwapFile
end Slots

section Files
variable {image : SwapImage T} {snap : BlackBoxSnapshot T} {h : SwapHeader}

/-- What a program leaves in the header of a file it calls its own. -/
def SwapHeader.Sound (h : SwapHeader) : Prop :=
  h.magic = kMagic → h.version = 1 ∧ h.writePos.toNat = h.snapshotCount.toNat % kSlotCount

/-- The file with one more snapshot. -/
def SwapImage.record (image : SwapImage T) (snap : BlackBoxSnapshot T) : SwapImage T where
  header := { image.header with
    snapshotCount := image.header.snapshotCount + 1
    writePos := (image.header.writePos + 1) % UInt32.ofNat kSlotCount }
  slots := Function.update image.slots (image.header.writePos.toNat % kSlotCount)
    ((image.slots (image.header.writePos.toNat % kSlotCount)).write snap)

theorem SwapHeader.Sound.record (sound : image.header.Sound) : (image.record snap).header.Sound := by
  intro own
  obtain ⟨version, place⟩ := sound own
  refine ⟨version, ?_⟩
  have small : image.header.writePos.toNat < kSlotCount := place ▸ Nat.mod_lt _ (by decide)
  simp only [SwapImage.record, UInt32.toNat_mod, UInt32.toNat_add, UInt32.toNat_one, kSlotCount,
    UInt32.reduceOfNat, UInt32.reduceToNat] at small place ⊢
  omega

namespace CriticalSwapFile

theorem appendSnapshot_ofHeader (fits : snap.samples.length ≤ kMaxSamplesPerSnap) :
    (ofHeader image.header).appendSnapshot image snap =
      (ofHeader (image.record snap).header, image.record snap, true) := by
  simp only [appendSnapshot, ofHeader, Bool.not_true, Bool.or_self, Bool.false_eq_true, ↓reduceIte,
    if_neg (Nat.not_lt.mpr fits), SwapImage.record]

theorem appendSnapshot_refused {file : CriticalSwapFile}
    (refused : file.initialized = false ∨ kMaxSamplesPerSnap < snap.samples.length) :
    file.appendSnapshot image snap = (file, image, false) := by
  unfold appendSnapshot
  rcases refused with closed | long
  · rw [closed]
    rfl
  · rw [if_pos long, ite_self]

/-- Opening fails, or finds a file of another kind and starts it afresh, or takes it as it is. -/
theorem openFile_cases [Zero T] (sound : image.header.Sound) (mappable : Bool) (file : CriticalSwapFile) :
    openFile mappable file image = (file.close, image, false) ∨
      (image.header.magic ≠ kMagic ∧
        openFile mappable file image = (ofHeader (SwapImage.blank (T := T)).header, SwapImage.blank, true)) ∨
      (image.header.magic = kMagic ∧ openFile mappable file image = (ofHeader image.header, image, true)) := by
  unfold openFile
  cases mappable with
  | false => exact Or.inl rfl
  | true =>
    simp only [Bool.not_true, Bool.false_eq_true, ↓reduceIte]
    by_cases own : image.header.magic = kMagic
    · obtain ⟨version, place⟩ := sound own
      have inside : ¬kSlotCount ≤ image.header.writePos.toNat :=
        Nat.not_le.mpr (place ▸ Nat.mod_lt _ (by decide))
      simp only [own, version, inside, ne_eq, not_true_eq_false, ↓reduceIte]
      exact Or.inr (Or.inr ⟨trivial, trivial⟩)
    · rw [if_pos own]
      exact Or.inr (Or.inl ⟨own, rfl⟩)

end CriticalSwapFile
end Files
end EnerSentry.Datahub
