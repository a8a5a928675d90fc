import Mathlib.Logic.Function.Basic
import Mathlib.Data.Set.Insert

/-!
The device-level lock of the select-before-operate flow. One bucket for each
(link, slave, register); a bucket holds who armed it and under which sequence id,
and only that sequence id releases it.
-/

namespace EnerSentry.Business

structure SboDeviceKey where
  linkId : UInt32 := 0
  slaveId : UInt32 := 0
  registerAddr : UInt32 := 0
  deriving DecidableEq, Repr

structure ArmedOccupant where
  sequenceId : String
  operatorName : String
  armedSinceMonoMs : Int
  timeoutMs : Int := 5000
  deriving DecidableEq, Repr

inductive GuardSignal where
  | armedAcquired (sequenceId : String) (key : SboDeviceKey)
  | armedRejected (sequenceId : String) (key : SboDeviceKey) (busyBy : String) (elapsedMs : Int)
  | armedReleased (sequenceId : String) (key : SboDeviceKey)
  deriving DecidableEq, Repr

/-- The lock table, from device keys to their occupant. -/
structure DeviceSboGuard where
  buckets : SboDeviceKey → Option ArmedOccupant

namespace DeviceSboGuard

def empty : DeviceSboGuard := ⟨fun _ => none⟩

structure Acquired where
  granted : Bool
  guard : DeviceSboGuard
  signals : List GuardSignal

/-- A taken bucket refuses, whoever asks; a free one is filled on the spot. -/
def tryAcquire (g : DeviceSboGuard) (key : SboDeviceKey) (sequenceId operatorName : String)
    (nowMs : Int) : Acquired :=
  match g.buckets key with
  | some it => ⟨false, g, [.armedRejected sequenceId key it.operatorName
      (nowMs - it.armedSinceMonoMs)]⟩
  | none =>
      let occ : ArmedOccupant :=
        { sequenceId := sequenceId, operatorName := operatorName, armedSinceMonoMs := nowMs }
      ⟨true, ⟨Function.update g.buckets key (some occ)⟩, [.armedAcquired sequenceId key]⟩

structure Released where
  guard : DeviceSboGuard
  signals : List GuardSignal

/-- Another sequence id than the occupant's releases nothing. -/
def release (g : DeviceSboGuard) (key : SboDeviceKey) (sequenceId : String) : Released :=
  match g.buckets key with
  | none => ⟨g, []⟩
  | some it =>
      if it.sequenceId ≠ sequenceId then ⟨g, []⟩
      else ⟨⟨Function.update g.buckets key none⟩, [.armedReleased sequenceId key]⟩

/-- The (device key, sequence id) pairs that are locked. -/
def occupied (g : DeviceSboGuard) : Set (SboDeviceKey × String) :=
  fun x => ∃ occ, g.buckets x.1 = some occ ∧ occ.sequenceId = x.2

variable {g : DeviceSboGuard} {key : SboDeviceKey} {sequenceId operatorName : String} {nowMs : Int}

theorem mem_occupied {key : SboDeviceKey} {id : String} :
    (key, id) ∈ occupied g ↔ ∃ occ, g.buckets key = some occ ∧ occ.sequenceId = id := Iff.rfl

theorem occupied_empty : occupied empty = ∅ := by
  ext ⟨key, id⟩
  simp [mem_occupied, empty]

theorem tryAcquire_granted :
    (g.tryAcquire key sequenceId operatorName nowMs).granted = true ↔ g.buckets key = none := by
  unfold tryAcquire
  cases g.buckets key <;> simp

theorem tryAcquire_taken (taken : g.buckets key ≠ none) :
    (g.tryAcquire key sequenceId operatorName nowMs).guard = g := by
  obtain ⟨it, held⟩ := Option.ne_none_iff_exists'.mp taken
  simp only [tryAcquire, held]

/-- A grant adds the one pair it was asked for. -/
theorem occupied_tryAcquire (free : g.buckets key = none) :
    occupied (g.tryAcquire key sequenceId operatorName nowMs).guard =
      insert (key, sequenceId) (occupied g) := by
  ext ⟨other, id⟩
  simp only [tryAcquire, free, mem_occupied, Set.mem_insert_iff, Prod.mk.injEq]
  by_cases same : other = key
  · subst same
    simp [free, eq_comm]
  · simp [same]

/-- The owner's release removes its pair and no other. -/
theorem occupied_release (held : (key, sequenceId) ∈ occupied g) :
    occupied (g.release key sequenceId).guard = occupied g \ {(key, sequenceId)} := by
  obtain ⟨occ, bucket, owner⟩ := mem_occupied.mp held
  ext ⟨other, id⟩
  simp only [release, bucket, owner, ne_eq, not_true_eq_false, ↓reduceIte, mem_occupied,
    Set.mem_sdiff, Set.mem_singleton_iff, Prod.mk.injEq, not_and]
  by_cases same : other = key
  · subst same
    simpa [bucket, owner] using Eq.symm
  · simp [same]

/-- A key is free exactly when no pair locks it. -/
theorem free_iff : g.buckets key = none ↔ ∀ id, (key, id) ∉ occupied g := by
  cases held : g.buckets key with
  | none => simp [mem_occupied, held]
  | some occ => simp [mem_occupied, held]

end DeviceSboGuard

end EnerSentry.Business
