import EnerSentry.Datahub.RingBuffer

/-!
The store of the latest samples, one ring buffer for each registered point. A point is
looked up in a table over a range of ids first and among the sparse ones then.
-/

namespace EnerSentry.Datahub

structure L1SnapshotStore (T : Type*) where
  bufferByIndex : List (Option (RingBuffer T)) := []
  minPointId : UInt32 := 0
  maxPointId : UInt32 := 0
  sparseBuffers : UInt32 → Option (RingBuffer T) := fun _ => none

namespace L1SnapshotStore
variable {T : Type*}

def lookup (store : L1SnapshotStore T) (pointId : UInt32) : Option (RingBuffer T) :=
  if store.bufferByIndex ≠ [] ∧ store.minPointId ≤ pointId ∧ pointId ≤ store.maxPointId then
    (store.bufferByIndex[(pointId - store.minPointId).toNat]?).join
  else store.sparseBuffers pointId

/-- A sample of an unregistered point is dropped. -/
def write (store : L1SnapshotStore T) (pointId : UInt32) (s : T) : L1SnapshotStore T :=
  if store.bufferByIndex ≠ [] ∧ store.minPointId ≤ pointId ∧ pointId ≤ store.maxPointId then
    { store with bufferByIndex :=
        store.bufferByIndex.modify (pointId - store.minPointId).toNat (Option.map (RingBuffer.push · s)) }
  else
    { store with sparseBuffers :=
        Function.update store.sparseBuffers pointId ((store.sparseBuffers pointId).map (RingBuffer.push · s)) }

/-- An unregistered point has no samples. -/
def extractRange (timestamp : T → UInt64) (store : L1SnapshotStore T) (pointId : UInt32)
    (startTs endTs : UInt64) (maxCount : Nat) : List T :=
  match store.lookup pointId with
  | some rb => rb.extractRange timestamp startTs endTs maxCount
  | none => []

/-- The buffer of a registered point changed in its place. -/
def modifyRing (store : L1SnapshotStore T) (pointId : UInt32) (f : RingBuffer T → RingBuffer T) : L1SnapshotStore T :=
  if store.bufferByIndex ≠ [] ∧ store.minPointId ≤ pointId ∧ pointId ≤ store.maxPointId then
    { store with bufferByIndex := store.bufferByIndex.modify (pointId - store.minPointId).toNat (Option.map f) }
  else
    { store with sparseBuffers := Function.update store.sparseBuffers pointId ((store.sparseBuffers pointId).map f) }

section Writing
variable (store : L1SnapshotStore T) (pointId : UInt32) (f : RingBuffer T → RingBuffer T) (s : T)

/-- A change reaches the buffer of its own point and no other. -/
theorem lookup_modifyRing (q : UInt32) :
    (store.modifyRing pointId f).lookup q =
      if q = pointId then (store.lookup pointId).map f else store.lookup q := by
  unfold modifyRing
  split
  · rename_i dense
    obtain ⟨some_, least, most⟩ := dense
    have kept : store.bufferByIndex.modify (pointId - store.minPointId).toNat (Option.map f) ≠ [] := by
      simpa using some_
    simp only [lookup, kept, some_, ne_eq, not_false_eq_true, true_and]
    by_cases same : q = pointId
    · subst same
      rw [if_pos rfl, if_pos ⟨least, most⟩, if_pos ⟨least, most⟩, List.getElem?_modify_eq]
      cases store.bufferByIndex[(q - store.minPointId).toNat]? <;> rfl
    · rw [if_neg same]
      split
      · rename_i inside
        have apart : (pointId - store.minPointId).toNat ≠ (q - store.minPointId).toNat := by
          intro equal
          apply same
          exact ((UInt32.sub_left_inj _).mp (UInt32.toNat_inj.mp equal)).symm
        rw [List.getElem?_modify_ne _ _ apart]
      · rfl
  · rename_i sparse
    simp only [lookup]
    by_cases same : q = pointId
    · subst same
      rw [if_pos rfl, if_neg sparse, if_neg sparse, Function.update_self]
    · rw [if_neg same, Function.update_of_ne same]

/-- A write reaches the buffer of its own point and no other. -/
theorem lookup_write (q : UInt32) :
    (store.write pointId s).lookup q =
      if q = pointId then (store.lookup pointId).map (RingBuffer.push · s) else store.lookup q :=
  store.lookup_modifyRing pointId (RingBuffer.push · s) q

/-- A point that is not registered has nothing to change. -/
theorem modifyRing_unregistered (unregistered : store.lookup pointId = none) :
    store.modifyRing pointId f = store := by
  obtain ⟨bufferByIndex, minPointId, maxPointId, sparseBuffers⟩ := store
  unfold modifyRing
  split
  · rename_i dense
    rw [lookup, if_pos dense] at unregistered
    have same : bufferByIndex.modify (pointId - minPointId).toNat (Option.map f) = bufferByIndex := by
      apply List.ext_getElem?
      intro i
      rw [List.getElem?_modify]
      split
      · rename_i here
        subst here
        rcases held : bufferByIndex[(pointId - minPointId).toNat]? with _ | _ | rb
        · rfl
        · rfl
        · rw [held] at unregistered
          cases unregistered
      · exact Option.map_id'
    simp only [same]
  · rename_i sparse
    have none : sparseBuffers pointId = none := by rwa [lookup, if_neg sparse] at unregistered
    have same : Function.update sparseBuffers pointId ((sparseBuffers pointId).map f) = sparseBuffers := by
      rw [none, Option.map_none, ← none]
      exact Function.update_eq_self pointId sparseBuffers
    simp only [same]

end Writing

end L1SnapshotStore
end EnerSentry.Datahub
