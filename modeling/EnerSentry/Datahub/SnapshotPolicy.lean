import EnerSentry.Datahub.L1SnapshotStore
import EnerSentry.Lib.Smear

/-!
Setting up the snapshot store from a policy: a buffer for every entry, in a table over the
range of the ids where that range is narrow and under their ids where it is not.
-/

namespace EnerSentry.Datahub
open EnerSentry.Lib

structure RingBufferPolicyEntry where
  pointId : UInt32 := 0
  sampleRateMs : UInt32 := 100
  retentionMs : UInt32 := 3600000
  deriving DecidableEq, Repr

/-- The shifts of a 64-bit word; the numbers here stay far below its top. -/
def nextPow2 (v : Nat) : Nat := if v ≤ 1 then 1 else Smear.smear (v - 1) 6 + 1

def capacityForPolicy (e : RingBufferPolicyEntry) : Nat :=
  if e.sampleRateMs = 0 then 256
  else
    let slots := nextPow2 ((e.retentionMs / e.sampleRateMs).toNat + 1)
    if slots < 256 then 256 else if 65536 < slots then 65536 else slots

/-- What initialising a store can come to beside its end. -/
inductive InitFault where
  /-- The table was indexed outside its bounds. -/
  | outsideTable (index size : Nat)
  | badCapacity (what : String)
  deriving DecidableEq, Repr

namespace L1SnapshotStore
variable {T : Type*} (blank : T)

def minPoint (policy : List RingBufferPolicyEntry) : UInt32 :=
  policy.foldl (fun least e => if e.pointId < least then e.pointId else least) 0xFFFFFFFF

def maxPoint (policy : List RingBufferPolicyEntry) : UInt32 :=
  policy.foldl (fun most e => if most < e.pointId then e.pointId else most) 0

/-- The number of ids from the least to the greatest, in 32 bits. -/
def idRange (policy : List RingBufferPolicyEntry) : UInt32 := maxPoint policy - minPoint policy + 1

def isNarrow (policy : List RingBufferPolicyEntry) : Bool := idRange policy ≤ UInt32.ofNat (policy.length * 2)

/-- The loop over the entries: a buffer for each, put into the table or under its id. -/
def addEntry (dense : Bool) (minId : UInt32) (store : L1SnapshotStore T) (e : RingBufferPolicyEntry) :
    Except InitFault (L1SnapshotStore T) :=
  match RingBuffer.create (capacityForPolicy e) blank with
  | .error what => .error (.badCapacity what)
  | .ok rb =>
      if dense then
        let index := (e.pointId - minId).toNat
        if index < store.bufferByIndex.length then
          .ok { store with bufferByIndex := store.bufferByIndex.set index (some rb) }
        else .error (.outsideTable index store.bufferByIndex.length)
      else .ok { store with sparseBuffers := Function.update store.sparseBuffers e.pointId (some rb) }

/-- The containers before the loop; the bounds are left as they were where no table is used. -/
def cleared (store : L1SnapshotStore T) (policy : List RingBufferPolicyEntry) : L1SnapshotStore T :=
  if isNarrow policy then
    { bufferByIndex := List.replicate (idRange policy).toNat none
      minPointId := minPoint policy
      maxPointId := maxPoint policy }
  else { store with bufferByIndex := [], sparseBuffers := fun _ => none }

def initFromPolicy (store : L1SnapshotStore T) (policy : List RingBufferPolicyEntry) :
    Except InitFault (Bool × L1SnapshotStore T) :=
  if policy.isEmpty then .ok (false, store)
  else do
    let filled ← policy.foldlM (addEntry blank (isNarrow policy) (minPoint policy)) (store.cleared policy)
    return (true, filled)

/-- The buffers in the table and the keys of the sparse ones. -/
def registeredCount (store : L1SnapshotStore T) : Nat :=
  store.bufferByIndex.countP Option.isSome +
    (List.range UInt32.size).countP fun id => (store.sparseBuffers (UInt32.ofNat id)).isSome

def hasPoint (store : L1SnapshotStore T) (pointId : UInt32) : Bool := (store.lookup pointId).isSome

/-- What a consumer reads, and the store with that consumer's cursor moved. -/
def readRecent (store : L1SnapshotStore T) (pointId : UInt32) (consumerId : Int) (count : Nat) :
    List T × L1SnapshotStore T :=
  match store.lookup pointId with
  | some rb =>
      ((rb.readRecent consumerId count).1, store.modifyRing pointId fun rb => (rb.readRecent consumerId count).2)
  | none => ([], store)

end L1SnapshotStore

/-- The calls on a store. -/
inductive SnapshotCall (T : Type*) where
  | initFromPolicy (policy : List RingBufferPolicyEntry)
  | write (pointId : UInt32) (s : T)
  | readRecent (pointId : UInt32) (consumerId : Int) (count : Nat)
  | extractRange (pointId : UInt32) (startTs endTs : UInt64) (maxCount : Nat)

inductive SnapshotAnswer (T : Type*) where
  | initialised (ok : Bool)
  | fault (f : InitFault)
  | samples (read : List T)
  deriving DecidableEq

namespace L1SnapshotStore
variable {T : Type*} (blank : T) (timestamp : T → UInt64)

/-- One call. What the program does after a fault is not defined; here the store stays as it was. -/
def step : Runs.Step (L1SnapshotStore T) (SnapshotCall T) (SnapshotAnswer T) := fun store call =>
  match call with
  | .initFromPolicy policy =>
      match store.initFromPolicy blank policy with
      | .ok (ok, store) => (store, [.initialised ok])
      | .error f => (store, [.fault f])
  | .write pointId s => (store.write pointId s, [])
  | .readRecent pointId consumerId count =>
      let (read, store) := store.readRecent pointId consumerId count
      (store, [.samples read])
  | .extractRange pointId startTs endTs maxCount =>
      (store, [.samples (store.extractRange timestamp pointId startTs endTs maxCount)])

end L1SnapshotStore
end EnerSentry.Datahub
