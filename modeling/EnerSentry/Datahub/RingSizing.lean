import Mathlib.Order.Bounds.Basic
import Mathlib.Order.MinMax
import EnerSentry.Datahub.PolicyRouting
import EnerSentry.Datahub.RangeQuery

/-!
The size of a point's ring. The capacity for a policy entry is the least power of two that
has room for the retention at the point's period, within bounds. Where the upper bound does
not cut it off, the ring of a point that is sampled no faster keeps all that is young enough.
-/

namespace EnerSentry.Datahub
open EnerSentry.Lib

/-- The powers of two that are not below a number. -/
def powersFrom (v : Nat) : Set Nat := {p | (∃ k, p = 2 ^ k) ∧ v ≤ p}

/-- The slots that a retention takes, with one to spare. -/
def slotsFor (e : RingBufferPolicyEntry) : Nat := (e.retentionMs / e.sampleRateMs).toNat + 1

section Rounding
variable {v : Nat}

/-- Rounding up gives the least power of two that is not below. -/
theorem nextPow2_isLeast (small : v ≤ 2 ^ 64) : IsLeast (powersFrom v) (nextPow2 v) := by
  constructor
  · apply And.intro (nextPow2_power small)
    unfold nextPow2
    split
    · assumption
    · have above := Smear.le_smear (v - 1) 6
      omega
  · rintro p ⟨⟨k, rfl⟩, above⟩
    unfold nextPow2
    split
    · exact Nat.one_le_two_pow
    · exact Smear.smear_lt (by omega) 6

theorem slotsFor_small (e : RingBufferPolicyEntry) : slotsFor e ≤ 2 ^ 64 := by
  have bound := (e.retentionMs / e.sampleRateMs).toNat_lt
  rw [slotsFor]
  omega

/-- The greater of two least powers is the least that is not below either number. -/
theorem isLeast_max {a b w : Nat} (first : IsLeast (powersFrom v) a) (second : IsLeast (powersFrom w) b) :
    IsLeast (powersFrom (max v w)) (max a b) := by
  constructor
  · constructor
    · rcases le_total a b with less | less
      · rw [max_eq_right less]
        exact second.1.1
      · rw [max_eq_left less]
        exact first.1.1
    · exact max_le_max first.1.2 second.1.2
  · intro p upper
    apply max_le
    · exact first.2 ⟨upper.1, le_trans (le_max_left _ _) upper.2⟩
    · exact second.2 ⟨upper.1, le_trans (le_max_right _ _) upper.2⟩

theorem isLeast_power (k : Nat) : IsLeast (powersFrom (2 ^ k)) (2 ^ k) := ⟨⟨⟨k, rfl⟩, le_rfl⟩, fun _ upper => upper.2⟩

end Rounding

section Capacity
variable {e : RingBufferPolicyEntry}

theorem capacityForPolicy_eq (sampled : e.sampleRateMs ≠ 0) :
    capacityForPolicy e = min 65536 (max 256 (nextPow2 (slotsFor e))) := by
  rw [capacityForPolicy, if_neg sampled, ← slotsFor]
  simp only
  split
  · omega
  · split <;> omega

/-- The capacity is the least power of two that has room for the slots, capped. -/
theorem capacityForPolicy_least (sampled : e.sampleRateMs ≠ 0) :
    ∃ least, IsLeast (powersFrom (max 256 (slotsFor e))) least ∧ capacityForPolicy e = min 65536 least :=
  ⟨_, isLeast_max (isLeast_power 8) (nextPow2_isLeast (slotsFor_small e)), capacityForPolicy_eq sampled⟩

/-- Where the cap does not cut it off, the capacity has room for the slots. -/
theorem slotsFor_le_capacity (sampled : e.sampleRateMs ≠ 0) (below : slotsFor e ≤ 65536) :
    slotsFor e ≤ capacityForPolicy e := by
  have rounded := nextPow2_isLeast (slotsFor_small e)
  have room := rounded.1.2
  rw [capacityForPolicy_eq sampled]
  omega

theorem capacityForPolicy_power (e : RingBufferPolicyEntry) :
    (∃ k, capacityForPolicy e = 2 ^ k) ∧ 256 ≤ capacityForPolicy e ∧ capacityForPolicy e ≤ 65536 := by
  by_cases sampled : e.sampleRateMs = 0
  · have fallback : capacityForPolicy e = 256 := if_pos sampled
    rw [fallback]
    exact ⟨⟨8, rfl⟩, by decide, by decide⟩
  · obtain ⟨⟨k, power⟩, -⟩ := (nextPow2_isLeast (slotsFor_small e)).1
    rw [capacityForPolicy_eq sampled]
    refine ⟨?_, by omega, by omega⟩
    by_cases low : nextPow2 (slotsFor e) ≤ 256
    · rw [max_eq_left low]
      exact ⟨8, rfl⟩
    · by_cases high : 65536 ≤ nextPow2 (slotsFor e)
      · rw [max_eq_right (by omega), min_eq_left high]
        exact ⟨16, rfl⟩
      · rw [max_eq_right (by omega), min_eq_right (by omega)]
        exact ⟨k, power⟩

end Capacity

section Spacing
variable {T : Type*} {timestamp : T → UInt64} {period : Nat} {hist : List T}

/-- Samples that follow each other at the period or more slowly. -/
def Spaced (timestamp : T → UInt64) (period : Nat) (hist : List T) : Prop :=
  hist.IsChain fun a b => (timestamp a).toNat + period ≤ (timestamp b).toNat

/-- A sample that comes `k` places later is `k` periods younger at least. -/
theorem Spaced.later (spaced : Spaced timestamp period hist) {j k : Nat} {a b : T} (first : hist[j]? = some a)
    (second : hist[j + k]? = some b) : (timestamp a).toNat + k * period ≤ (timestamp b).toNat := by
  induction k generalizing b with
  | zero =>
    rw [Nat.add_zero, first] at second
    rw [Option.some.inj second, Nat.zero_mul, Nat.add_zero]
  | succ k ih =>
    obtain ⟨inside, there⟩ := List.getElem?_eq_some_iff.mp second
    have between := ih (List.getElem?_eq_getElem (by omega))
    have next := List.IsChain.getElem spaced (j + k) inside
    rw [show hist[j + k + 1] = b from there] at next
    calc (timestamp a).toNat + (k + 1) * period
        = (timestamp a).toNat + k * period + period := by rw [Nat.succ_mul, Nat.add_assoc]
      _ ≤ (timestamp hist[j + k]).toNat + period := Nat.add_le_add_right between period
      _ ≤ (timestamp b).toNat := next

/-- A sample of some age has no more behind it than periods fit into the age. -/
theorem Spaced.places (spaced : Spaced timestamp period hist) (positive : 0 < period) {j : Nat} {a last : T}
    (there : hist[j]? = some a) (ending : hist.getLast? = some last) {retention : Nat}
    (young : (timestamp last).toNat ≤ (timestamp a).toNat + retention) :
    hist.length ≤ j + (retention / period + 1) := by
  have inside := (List.getElem?_eq_some_iff.mp there).1
  have place : j + (hist.length - 1 - j) = hist.length - 1 := by omega
  rw [List.getLast?_eq_getElem?, ← place] at ending
  have older := spaced.later there ending
  have periods : hist.length - 1 - j ≤ retention / period := (Nat.le_div_iff_mul_le positive).mpr (by omega)
  omega

end Spacing

section Retention
variable {T : Type*} {e : RingBufferPolicyEntry}

/-- Every sample that is no older than the retention when the latest one has been pushed is in its slot. -/
def KeepsYoung (rb : RingBuffer T) (timestamp : T → UInt64) (retention : Nat) (hist : List T) : Prop :=
  ∀ j a last, hist[j]? = some a → hist.getLast? = some last →
    (timestamp last).toNat ≤ (timestamp a).toNat + retention → rb.buffer (j % rb.capacity.1) = a

theorem keepsYoung_run (blank : T) (timestamp : T → UInt64) (calls : List (RingCall T)) (sampled : e.sampleRateMs ≠ 0)
    (below : slotsFor e ≤ 65536) (spaced : Spaced timestamp e.sampleRateMs.toNat (RingBuffer.history calls)) :
    KeepsYoung (Runs.run RingBuffer.step (ringFor blank e) calls) timestamp e.retentionMs.toNat
      (RingBuffer.history calls) := by
  intro j a last there ending young
  have stores : (Runs.run RingBuffer.step (ringFor blank e) calls).Stores ([] ++ RingBuffer.history calls) :=
    RingBuffer.stores_run (RingBuffer.stores_fresh _ blank) calls
  have capacity : (Runs.run RingBuffer.step (ringFor blank e) calls).capacity.1 = capacityForPolicy e :=
    congrArg Subtype.val (RingBuffer.capacity_run (ringFor blank e) calls)
  have positive : 0 < e.sampleRateMs.toNat := Nat.pos_of_ne_zero fun zero => sampled (UInt32.toNat_inj.mp zero)
  have behind := spaced.places positive there ending young
  have room := slotsFor_le_capacity sampled below
  rw [slotsFor, UInt32.toNat_div] at room
  apply stores.slot j a there
  rw [List.nil_append, capacity]
  omega

/-- The capacity of a policy entry is a power of two between 256 and 65536, the least one with
room for the retention unless that is beyond the cap, and one that the ring accepts. Within
the cap no push of a point that is sampled at its period displaces a sample that is young. -/
theorem capacityForPolicy_sizes (blank : T) (timestamp : T → UInt64) (e : RingBufferPolicyEntry) :
    ((∃ k, capacityForPolicy e = 2 ^ k) ∧ 256 ≤ capacityForPolicy e ∧ capacityForPolicy e ≤ 65536) ∧
      (e.sampleRateMs ≠ 0 → ∃ least, IsLeast (powersFrom (max 256 (slotsFor e))) least ∧
        capacityForPolicy e = min 65536 least) ∧
      RingBuffer.create (capacityForPolicy e) blank = .ok (ringFor blank e) ∧
      ∀ calls, e.sampleRateMs ≠ 0 → slotsFor e ≤ 65536 →
        Spaced timestamp e.sampleRateMs.toNat (RingBuffer.history calls) →
          KeepsYoung (Runs.run RingBuffer.step (ringFor blank e) calls) timestamp e.retentionMs.toNat
            (RingBuffer.history calls) :=
  ⟨capacityForPolicy_power e, capacityForPolicy_least, create_ringFor blank e,
    fun calls => keepsYoung_run blank timestamp calls⟩

end Retention

/-- Sampled every second, ten minutes take 601 slots. -/
def tenMinutes : RingBufferPolicyEntry := { sampleRateMs := 1000, retentionMs := 600000 }

theorem capacityForPolicy_sizes_tenMinutes :
    capacityForPolicy tenMinutes = 1024 ∧
      (∃ least, IsLeast (powersFrom (max 256 (slotsFor tenMinutes))) least ∧
        capacityForPolicy tenMinutes = min 65536 least) ∧
      KeepsYoung (Runs.run RingBuffer.step (ringFor 0 tenMinutes) [.push 5000, .pushBatch [6000, 7000]])
        (id : UInt64 → UInt64) 600000 [5000, 6000, 7000] := by
  obtain ⟨-, least, -, keeps⟩ := capacityForPolicy_sizes 0 (id : UInt64 → UInt64) tenMinutes
  refine ⟨by decide, least (by decide), keeps [.push 5000, .pushBatch [6000, 7000]] (by decide) (by decide) ?_⟩
  have spaced : [5000, 6000, 7000].IsChain fun a b : UInt64 => a.toNat + 1000 ≤ b.toNat := by decide
  exact spaced

end EnerSentry.Datahub
