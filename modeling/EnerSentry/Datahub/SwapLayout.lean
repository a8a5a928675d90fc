import EnerSentry.Datahub.CriticalSwapFile
import EnerSentry.Lib.ByteImage

/-!
The swap file as bytes: where the header and the slots lie, what an append stores and which
range it asks the platform to flush. Read back through the layout, the bytes are the header
and the slots of the file.
-/

namespace EnerSentry.Datahub
open EnerSentry.Lib

def kHeaderSize : Nat := 64

def kSlotMetaSize : Nat := 32

def sizeofSample : Nat := 16

def slotSize : Nat := kSlotMetaSize + kMaxSamplesPerSnap * sizeofSample

def totalFileSize : Nat := kHeaderSize + kSlotCount * slotSize

/-- The bytes of a sample in memory. -/
structure SampleBytes (T : Type*) where
  raw : T → List UInt8
  ofRaw : List UInt8 → T
  length : ∀ x, (raw x).length = sizeofSample
  same : ∀ x, ofRaw (raw x) = x

/-- A sample that is nothing but its bytes. -/
def SampleBytes.plain : SampleBytes { bytes : List UInt8 // bytes.length = sizeofSample } where
  raw x := x.1
  ofRaw bytes := if fits : bytes.length = sizeofSample then ⟨bytes, fits⟩ else ⟨List.replicate sizeofSample 0, rfl⟩
  length x := x.2
  same x := dif_pos x.2

namespace AlarmLevel

def toByte : AlarmLevel → UInt8
  | info => 0
  | warning => 1
  | critical => 2

/-- The levels are the only bytes that are ever stored. -/
def ofByte (b : UInt8) : AlarmLevel := if b = 0 then info else if b = 1 then warning else critical

@[simp] theorem ofByte_toByte (level : AlarmLevel) : ofByte level.toByte = level := by
  cases level <;> rfl

end AlarmLevel

def slotMeta (slotIdx : Nat) : Nat := kHeaderSize + slotIdx * slotSize

def slotSamples (slotIdx : Nat) : Nat := slotMeta slotIdx + kSlotMetaSize

structure FlushRange where
  offset : Nat
  length : Nat
  deriving DecidableEq, Repr

/-- What an append does beside the handle: the stores into the mapping, and the flush it asks for. -/
structure AppendEffect where
  stores : List Patch := []
  flushAsync : Option FlushRange := none

namespace CriticalSwapFile
variable {T : Type*} (sb : SampleBytes T)

/-- The fields of the metadata of a slot, in the packed layout of the source. -/
def metaStores (slot : Nat) (snap : BlackBoxSnapshot T) : List Patch :=
  [⟨slotMeta slot, littleEndian 4 snap.pointId.toNat⟩,
    ⟨slotMeta slot + 4, littleEndian 8 snap.alarmTime.toNat⟩,
    ⟨slotMeta slot + 12, [snap.level.toByte]⟩,
    ⟨slotMeta slot + 13, littleEndian 4 snap.samples.length⟩,
    ⟨slotMeta slot + 17, List.replicate 15 0⟩]

def headerStores (snapshotCount writePos : UInt32) : List Patch :=
  [⟨12, littleEndian 4 snapshotCount.toNat⟩, ⟨16, littleEndian 4 writePos.toNat⟩]

def accepts (file : CriticalSwapFile) (snap : BlackBoxSnapshot T) : Bool :=
  file.initialized && file.mapped && decide (snap.samples.length ≤ kMaxSamplesPerSnap)

def appendEffect (file : CriticalSwapFile) (snap : BlackBoxSnapshot T) : AppendEffect :=
  if !file.initialized || !file.mapped then {}
  else if kMaxSamplesPerSnap < snap.samples.length then {}
  else
    let slot := file.writePos.toNat % kSlotCount
    let snapshotCount := file.snapshotCount + 1
    let writePos := (file.writePos + 1) % UInt32.ofNat kSlotCount
    { stores := metaStores slot snap ++ [⟨slotSamples slot, snap.samples.flatMap sb.raw⟩] ++
        headerStores snapshotCount writePos
      flushAsync := some ⟨kHeaderSize + slot * slotSize, slotSize + kHeaderSize⟩ }

end CriticalSwapFile

namespace SwapImage
variable {T : Type*} (sb : SampleBytes T)

def readHeader (image : ByteImage) : SwapHeader where
  magic := image.read 0 8
  version := UInt32.ofNat (ofLittleEndian (image.read 8 4))
  snapshotCount := UInt32.ofNat (ofLittleEndian (image.read 12 4))
  writePos := UInt32.ofNat (ofLittleEndian (image.read 16 4))

/-- The places behind the last sample of a slot are not part of it. -/
def readSlot (blank : T) (image : ByteImage) (slot : Nat) : SwapSlot T where
  pointId := UInt32.ofNat (ofLittleEndian (image.read (slotMeta slot) 4))
  alarmTime := UInt64.ofNat (ofLittleEndian (image.read (slotMeta slot + 4) 8))
  level := AlarmLevel.ofByte (image (slotMeta slot + 12))
  count := UInt32.ofNat (ofLittleEndian (image.read (slotMeta slot + 13) 4))
  samples := fun i =>
    if i < kMaxSamplesPerSnap then sb.ofRaw (image.read (slotSamples slot + i * sizeofSample) sizeofSample) else blank

/-- The file that the bytes stand for. -/
def ofBytes (blank : T) (image : ByteImage) : SwapImage T where
  header := readHeader image
  slots := readSlot sb blank image

end SwapImage
end EnerSentry.Datahub
