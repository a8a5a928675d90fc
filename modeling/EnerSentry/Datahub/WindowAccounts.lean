import Mathlib.Algebra.Order.BigOperators.Group.List
import Mathlib.Algebra.Order.Field.Rat
import Mathlib.Order.Bounds.Basic
import EnerSentry.Datahub.HistoryTables
import EnerSentry.Lib.Runs

/-!
Where the samples of a down-sampler go. Each is put to the account of its point and window, and the
account is settled by the record that closes the window. A record is exact, with arithmetic that is
exact, as long as its count of sixteen bits can hold the number of its samples.
-/

namespace EnerSentry.Datahub
open EnerSentry.Lib

/-- The numbers of an ordered field among the values, with exact arithmetic and between the infinities. -/
structure ExactNumbers (R K : Type*) [Field R] [LinearOrder R] [Reading K] where
  num : R → K
  lt : ∀ x y, num x < num y ↔ x < y
  zero : (0 : K) = num 0
  add : ∀ x y, num x + num y = num (x + y)
  div : ∀ x y, y ≠ 0 → num x / num y = num (x / y)
  natCast : ∀ n : Nat, (n : K) = num n
  above : ∀ x, Reading.negInfinity < num x
  below : ∀ x, num x < Reading.infinity

/-- The calls of a sampler that is used at one granularity. -/
inductive SamplerCall (R K : Type*) [Reading K] where
  | feed (pointId : UInt32) (s : Sample R)
  | rollUp (order : HashOrder (Sigma fun _ : Nat => Bucket K)) (clock : Nat) (pointId : UInt32) (nowMs : Nat)

/-- The samples fed, those on the open account of each window, and each record with its account. -/
structure SampleBooks (R K : Type*) where
  fed : List (UInt32 × Sample R) := []
  opened : UInt32 → Nat → List (Sample R) := fun _ _ => []
  settled : List (DownSampledSample K × List (Sample R)) := []

variable {R K : Type*}

def Sample.valued (s : Sample R) (f : R → K) : Sample K := ⟨s.timestamp, s.pointId, f s.value⟩

def readingsOf (samples : List (Sample R)) : List R := samples.map (·.value)

section Exactness
variable [Field R] [LinearOrder R] [Reading K] (exact : ExactNumbers R K)

/-- A record says what its samples were. -/
structure ExactRecord (r : DownSampledSample K) (samples : List (Sample R)) : Prop where
  values : ∃ low high mean : R, IsLeast {x | x ∈ readingsOf samples} low ∧
    IsGreatest {x | x ∈ readingsOf samples} high ∧ mean * samples.length = (readingsOf samples).sum ∧
    low ≤ mean ∧ mean ≤ high ∧
    r.minValue = exact.num low ∧ r.avgValue = exact.num mean ∧ r.maxValue = exact.num high
  count : r.sampleCount.toNat = samples.length

section Folds
variable {values : List R}

theorem stdMax_num (x y : R) : stdMax (exact.num x) (exact.num y) = exact.num (max x y) := by
  unfold stdMax
  by_cases less : x < y
  · rw [if_pos ((exact.lt x y).mpr less), max_eq_right less.le]
  · rw [if_neg (fun below => less ((exact.lt x y).mp below)), max_eq_left (not_lt.mp less)]

theorem stdMin_num (x y : R) : stdMin (exact.num x) (exact.num y) = exact.num (min x y) := by
  unfold stdMin
  by_cases less : y < x
  · rw [if_pos ((exact.lt y x).mpr less), min_eq_right less.le]
  · rw [if_neg (fun below => less ((exact.lt y x).mp below)), min_eq_left (not_lt.mp less)]

theorem setOf_concat {α : Type*} (values : List α) (v : α) : {x | x ∈ values ++ [v]} = {x | x ∈ values} ∪ {v} := by
  ext x
  simp [or_comm]

theorem isGreatest_concat {α : Type*} [LinearOrder α] {values : List α} {m v : α}
    (greatest : IsGreatest {x | x ∈ values} m) :
    IsGreatest {x | x ∈ values ++ [v]} (max m v) := by
  rw [setOf_concat]
  exact greatest.union isGreatest_singleton

theorem isLeast_concat {α : Type*} [LinearOrder α] {values : List α} {m v : α} (least : IsLeast {x | x ∈ values} m) :
    IsLeast {x | x ∈ values ++ [v]} (min m v) := by
  rw [setOf_concat]
  exact least.union isLeast_singleton

/-- A running extreme of the readings is the reading of an extreme. -/
theorem foldl_extreme (Extreme : List R → R → Prop) (better : R → R → R) {keep : K → K → K} {start : K}
    (single : ∀ v, Extreme [v] v) (concat : ∀ values m v, Extreme values m → Extreme (values ++ [v]) (better m v))
    (begins : ∀ v, keep start (exact.num v) = exact.num v)
    (keeps : ∀ m v, keep (exact.num m) (exact.num v) = exact.num (better m v)) (filled : values ≠ []) :
    ∃ m, Extreme values m ∧ (values.map exact.num).foldl keep start = exact.num m := by
  induction values using List.reverseRecOn with
  | nil => exact absurd rfl filled
  | append_singleton values v ih =>
    rw [List.map_append, List.map_singleton, List.foldl_concat]
    by_cases first : values = []
    · subst first
      exact ⟨v, single v, begins v⟩
    · obtain ⟨m, extreme, folded⟩ := ih first
      exact ⟨better m v, concat values m v extreme, by rw [folded, keeps]⟩

/-- The greatest value, from minus infinity upwards. -/
theorem foldl_stdMax (filled : values ≠ []) : ∃ high, IsGreatest {x | x ∈ values} high ∧
    (values.map exact.num).foldl stdMax Reading.negInfinity = exact.num high := by
  apply foldl_extreme exact (fun values high => IsGreatest {x | x ∈ values} high) max
  · intro v
    simp
  · intro values m v greatest
    exact isGreatest_concat greatest
  · intro v
    exact if_pos (exact.above v)
  · exact stdMax_num exact
  · exact filled

/-- The least value, from infinity downwards. -/
theorem foldl_stdMin (filled : values ≠ []) : ∃ low, IsLeast {x | x ∈ values} low ∧
    (values.map exact.num).foldl stdMin Reading.infinity = exact.num low := by
  apply foldl_extreme exact (fun values low => IsLeast {x | x ∈ values} low) min
  · intro v
    simp
  · intro values m v least
    exact isLeast_concat least
  · intro v
    exact if_pos (exact.below v)
  · exact stdMin_num exact
  · exact filled

theorem foldl_sum (values : List R) : (values.map exact.num).foldl (· + ·) 0 = exact.num values.sum := by
  induction values using List.reverseRecOn with
  | nil => exact exact.zero
  | append_singleton values v ih =>
    rw [List.map_append, List.map_singleton, List.foldl_concat, ih, exact.add, List.sum_append, List.sum_singleton]

variable [IsStrictOrderedRing R]

/-- A mean lies between the least and the greatest value. -/
theorem mean_bounds {low high : R} (filled : values ≠ []) (least : IsLeast {x | x ∈ values} low)
    (greatest : IsGreatest {x | x ∈ values} high) :
    low ≤ values.sum / values.length ∧ values.sum / values.length ≤ high := by
  have many : (0 : R) < values.length := Nat.cast_pos.mpr (List.length_pos_iff.mpr filled)
  have bottom := List.card_nsmul_le_sum values low fun x member => least.2 member
  have top := List.sum_le_card_nsmul values high fun x member => greatest.2 member
  rw [nsmul_eq_mul] at bottom top
  exact ⟨(le_div_iff₀ many).mpr (by rwa [mul_comm]), (div_le_iff₀ many).mpr (by rwa [mul_comm])⟩

end Folds

/-- The record of a window is exact when its count can hold the number of its samples. -/
theorem exactRecord_iff [IsStrictOrderedRing R] (pointId : UInt32) (win : Nat) {samples : List (Sample R)}
    (filled : samples ≠ []) :
    ExactRecord exact (DownSampler.summary pointId win ((readingsOf samples).map exact.num)) samples ↔
      samples.length < 65536 := by
  have same : (UInt32.ofNat ((readingsOf samples).map exact.num).length).toUInt16.toNat = samples.length % 65536 := by
    rw [List.length_map, readingsOf, List.length_map, UInt32.toNat_toUInt16, UInt32.toNat_ofNat',
      Nat.mod_mod_of_dvd _ (by decide)]
  constructor
  · rintro ⟨-, count⟩
    have bound := Nat.mod_lt samples.length (show 0 < 65536 by decide)
    rwa [same.symm.trans count] at bound
  · intro few
    have some : readingsOf samples ≠ [] := by simpa [readingsOf] using filled
    obtain ⟨low, least, bottom⟩ := foldl_stdMin exact some
    obtain ⟨high, greatest, top⟩ := foldl_stdMax exact some
    obtain ⟨above, below⟩ := mean_bounds some least greatest
    have length : (readingsOf samples).length = samples.length := List.length_map ..
    have number : (samples.length : R) ≠ 0 := Nat.cast_ne_zero.mpr (List.length_pos_iff.mpr filled).ne'
    have counted : (UInt32.ofNat samples.length).toNat = samples.length := by
      rw [UInt32.toNat_ofNat']
      exact Nat.mod_eq_of_lt (by omega)
    have nonzero : UInt32.ofNat samples.length ≠ 0 := by
      intro zero
      rw [zero] at counted
      exact filled (List.length_eq_zero_iff.mp counted.symm)
    rw [length] at above below
    refine ⟨⟨low, high, (readingsOf samples).sum / samples.length, least, greatest,
      div_mul_cancel₀ _ number, above, below, bottom, ?_, top⟩, ?_⟩
    · simp only [DownSampler.summary, List.length_map, length, if_neg nonzero, foldl_sum, counted,
        exact.natCast, exact.div _ _ number]
    · exact same.trans (Nat.mod_eq_of_lt few)

end Exactness

section Books
variable {gran : HistoryGranularity} {books : SampleBooks R K} {pointId p : UInt32} {win : Nat} {s : Sample R}
  {records : List (DownSampledSample K)}

namespace SampleBooks

/-- A sample with a time stamp is put to the account of its point and window. -/
def feed (books : SampleBooks R K) (gran : HistoryGranularity) (pointId : UInt32) (s : Sample R) : SampleBooks R K :=
  { books with
    fed := books.fed ++ [(pointId, s)]
    opened := fun p win =>
      if s.timestamp ≠ 0 ∧ p = pointId ∧ win = DownSampler.alignToWindow s.timestamp gran
      then books.opened p win ++ [s] else books.opened p win }

/-- Each record settles the account that it names. -/
def settle (books : SampleBooks R K) (records : List (DownSampledSample K)) : SampleBooks R K :=
  { books with
    opened := fun p win => if (p, win) ∈ records.map DownSampledSample.key then [] else books.opened p win
    settled := books.settled ++ records.map fun r => (r, books.opened r.pointId r.timestamp) }

end SampleBooks

/-- Every sample with a time stamp is on one account, which is that of its point and window. -/
structure Balanced [DecidableEq R] (gran : HistoryGranularity) (books : SampleBooks R K) : Prop where
  opened : ∀ p win, ∀ s ∈ books.opened p win, s.timestamp ≠ 0 ∧ DownSampler.alignToWindow s.timestamp gran = win
  settled : ∀ a ∈ books.settled, ∀ s ∈ a.2,
    s.timestamp ≠ 0 ∧ DownSampler.alignToWindow s.timestamp gran = a.1.timestamp
  once : ∀ p s, s.timestamp ≠ 0 → books.fed.count (p, s) =
    (books.settled.map fun a => if a.1.pointId = p then a.2.count s else 0).sum +
      (books.opened p (DownSampler.alignToWindow s.timestamp gran)).count s

variable [DecidableEq R]

theorem balanced_fresh : Balanced gran ({} : SampleBooks R K) :=
  ⟨fun _ _ _ none => (List.not_mem_nil none).elim, fun _ none => (List.not_mem_nil none).elim, fun _ _ _ => rfl⟩

theorem Balanced.feed (balanced : Balanced gran books) (pointId : UInt32) (s : Sample R) :
    Balanced gran (books.feed gran pointId s) := by
  refine ⟨fun p win t member => ?_, balanced.settled, fun p t dated => ?_⟩
  · simp only [SampleBooks.feed] at member
    split at member
    · rename_i own
      rcases List.mem_append.mp member with old | new
      · exact balanced.opened p win t old
      · rw [List.mem_singleton.mp new]
        exact ⟨own.1, own.2.2.symm⟩
    · exact balanced.opened p win t member
  · simp only [SampleBooks.feed]
    rw [List.count_append, List.count_singleton, balanced.once p t dated, Nat.add_assoc]
    congr 1
    by_cases own : s.timestamp ≠ 0 ∧ p = pointId ∧
        DownSampler.alignToWindow t.timestamp gran = DownSampler.alignToWindow s.timestamp gran
    · rw [if_pos own, List.count_append, List.count_singleton]
      simp [own.2.1]
    · have other : (pointId, s) ≠ (p, t) := by
        intro same
        obtain ⟨rfl, rfl⟩ := Prod.mk.inj same
        exact own ⟨dated, rfl, rfl⟩
      rw [if_neg own, if_neg (by simpa using other), Nat.add_zero]

/-- Of the accounts that are settled only that of its own window holds a sample. -/
theorem Balanced.settled_count (balanced : Balanced gran books)
    (unique : (records.map DownSampledSample.key).Nodup) (p : UInt32) (s : Sample R) :
    (records.map fun r => if r.pointId = p then (books.opened r.pointId r.timestamp).count s else 0).sum =
      if (p, DownSampler.alignToWindow s.timestamp gran) ∈ records.map DownSampledSample.key
      then (books.opened p (DownSampler.alignToWindow s.timestamp gran)).count s else 0 := by
  let own : UInt32 × Nat := (p, DownSampler.alignToWindow s.timestamp gran)
  let share : UInt32 × Nat → Nat := fun k => if k.1 = p then (books.opened k.1 k.2).count s else 0
  have elsewhere : ∀ k ≠ own, k ∈ records.map DownSampledSample.key → share k = 0 := by
    intro k other _
    by_cases point : k.1 = p
    · have absent : s ∉ books.opened k.1 k.2 := by
        intro member
        exact other (Prod.ext point (balanced.opened _ _ s member).2.symm)
      exact (if_pos point).trans (List.count_eq_zero.mpr absent)
    · exact if_neg point
  have total := List.sum_map_eq_nsmul_single own share elsewhere
  rw [List.map_map] at total
  refine Eq.trans total ?_
  by_cases settled : own ∈ records.map DownSampledSample.key
  · rw [@List.count_eq_one_of_mem _ instBEqOfDecidableEq _ _ _ unique settled, one_nsmul, if_pos settled]
    exact if_pos rfl
  · rw [@List.count_eq_zero_of_not_mem _ instBEqOfDecidableEq _ _ _ settled, zero_nsmul, if_neg settled]

theorem Balanced.settle (balanced : Balanced gran books) (unique : (records.map DownSampledSample.key).Nodup) :
    Balanced gran (books.settle records) := by
  refine ⟨fun p win t member => ?_, fun a settled t member => ?_, fun p t dated => ?_⟩
  · simp only [SampleBooks.settle] at member
    split at member
    · exact (List.not_mem_nil member).elim
    · exact balanced.opened p win t member
  · rcases List.mem_append.mp settled with old | new
    · exact balanced.settled a old t member
    · obtain ⟨r, _, rfl⟩ := List.mem_map.mp new
      exact balanced.opened _ _ t member
  · simp only [SampleBooks.settle]
    rw [List.map_append, List.sum_append, List.map_map, balanced.once p t dated, Nat.add_assoc]
    congr 1
    refine Eq.trans ?_ (congrArg₂ (· + ·) (balanced.settled_count unique p t).symm rfl)
    split
    · rw [List.count_nil, Nat.add_zero]
    · rw [Nat.zero_add]

end Books

section Accounts
variable [Reading K]

/-- One call at a granularity; the readings come as the values that stand for them. -/
def sampling (num : R → K) (gran : HistoryGranularity) :
    Runs.Step (DownSampler K) (SamplerCall R K) (DownSampledSample K)
  | ds, .feed pointId s => (ds.feed pointId (s.valued num) gran, [])
  | ds, .rollUp order clock pointId nowMs => ds.rollUp order clock pointId gran nowMs

def keepBooks (gran : HistoryGranularity) (_ : DownSampler K) (books : SampleBooks R K) (call : SamplerCall R K)
    (records : List (DownSampledSample K)) : SampleBooks R K :=
  match call with
  | .feed pointId s => books.feed gran pointId s
  | .rollUp .. => books.settle records

def audited (num : R → K) (gran : HistoryGranularity) :
    Runs.Step (DownSampler K × SampleBooks R K) (SamplerCall R K) (DownSampledSample K) :=
  Runs.watch (sampling num gran) (keepBooks gran)

/-- A window as the sampler keeps it, from the samples on its account. -/
def bucketFor (num : R → K) (win : Nat) (samples : List (Sample R)) : Option (Bucket K) :=
  if samples = [] then none else some (DownSampler.bucketOf win ((readingsOf samples).map num))

/-- The windows are those of the open accounts, and the records those of the settled ones. -/
structure Booked (num : R → K) (ds : DownSampler K) (books : SampleBooks R K) : Prop where
  buckets : ∀ p win, (ds.buckets p).lookup win = bucketFor num win (books.opened p win)
  records : ∀ a ∈ books.settled, a.2 ≠ [] ∧
    a.1 = DownSampler.summary a.1.pointId a.1.timestamp ((readingsOf a.2).map num)

variable {num : R → K} {gran : HistoryGranularity} {ds : DownSampler K} {books : SampleBooks R K}
  {pointId p : UInt32} {win : Nat} {s : Sample R} {samples : List (Sample R)}

/-- One more sample in a window. -/
theorem bucketFor_concat : bucketFor num win (samples ++ [s]) =
    some (((bucketFor num win samples).getD {}).add win (num s.value)) := by
  have before : (bucketFor num win samples).getD {} =
      DownSampler.bucketOf win ((readingsOf samples).map num) := by
    unfold bucketFor
    split
    · rename_i none
      rw [none]
      rfl
    · rfl
  rw [before, bucketFor, if_neg (by simp), readingsOf, List.map_append, List.map_append, List.map_singleton,
    List.map_singleton, DownSampler.bucketOf_concat]
  rfl

theorem Booked.feed (booked : Booked num ds books) (pointId : UInt32) (s : Sample R) :
    Booked num (ds.feed pointId (s.valued num) gran) (books.feed gran pointId s) := by
  refine ⟨fun p win => ?_, booked.records⟩
  simp only [SampleBooks.feed]
  by_cases stamped : s.timestamp = 0
  · have same : ds.feed pointId (s.valued num) gran = ds := if_pos stamped
    rw [same, if_neg (fun both => both.1 stamped)]
    exact booked.buckets p win
  · have looked : ((ds.feed pointId (s.valued num) gran).buckets p).lookup win =
        if p = pointId ∧ win = DownSampler.alignToWindow s.timestamp gran then
          some ((((ds.buckets p).lookup win).getD {}).add win (num s.value))
        else (ds.buckets p).lookup win := DownSampler.lookup_feed stamped
    rw [looked]
    by_cases own : p = pointId ∧ win = DownSampler.alignToWindow s.timestamp gran
    · rw [if_pos own, if_pos ⟨stamped, own⟩, bucketFor_concat, ← booked.buckets]
    · rw [if_neg own, if_neg (fun both => own both.2)]
      exact booked.buckets p win

theorem bucketFor_eq_some {b : Bucket K} (found : bucketFor num win samples = some b) :
    samples ≠ [] ∧ b = DownSampler.bucketOf win ((readingsOf samples).map num) := by
  unfold bucketFor at found
  split at found
  · cases found
  · rename_i filled
    exact ⟨filled, (Option.some.inj found).symm⟩

theorem Booked.isSome_iff (booked : Booked num ds books) (p : UInt32) (win : Nat) :
    ((ds.buckets p).lookup win).isSome = true ↔ books.opened p win ≠ [] := by
  rw [booked.buckets, bucketFor]
  split
  · rename_i empty
    exact iff_of_false (by simp) (fun filled => filled empty)
  · rename_i filled
    exact iff_of_true rfl filled

section RollUp
variable {order : HashOrder (Sigma fun _ : Nat => Bucket K)} {clock nowMs : Nat} {r : DownSampledSample K}

/-- A record of a roll-up is made of the open account that it names. -/
theorem Booked.closed (booked : Booked num ds books) (member : r ∈ (ds.rollUp order clock pointId gran nowMs).2) :
    r.pointId = pointId ∧ r.timestamp < DownSampler.alignToWindow (DownSampler.rollTime clock nowMs) gran ∧
      books.opened r.pointId r.timestamp ≠ [] ∧
      r = DownSampler.summary r.pointId r.timestamp
        ((readingsOf (books.opened r.pointId r.timestamp)).map num) := by
  obtain ⟨win, b, found, ended, rfl⟩ := DownSampler.mem_rollUp.mp member
  rw [booked.buckets] at found
  obtain ⟨filled, rfl⟩ := bucketFor_eq_some found
  have some : (readingsOf (books.opened pointId win)).map num ≠ [] := by simpa [readingsOf] using filled
  rw [DownSampler.close_bucketOf some]
  exact ⟨rfl, ended, filled, rfl⟩

/-- All open accounts of the point whose windows are over are settled. -/
theorem Booked.mem_keys (booked : Booked num ds books) :
    (p, win) ∈ (ds.rollUp order clock pointId gran nowMs).2.map DownSampledSample.key ↔
      (p = pointId ∧ win < DownSampler.alignToWindow (DownSampler.rollTime clock nowMs) gran) ∧
        books.opened p win ≠ [] := by
  constructor
  · intro member
    obtain ⟨r, closed, key⟩ := List.mem_map.mp member
    obtain ⟨point, ended, filled, -⟩ := booked.closed closed
    obtain ⟨rfl, rfl⟩ := Prod.mk.inj key
    exact ⟨⟨point, ended⟩, filled⟩
  · rintro ⟨⟨rfl, ended⟩, filled⟩
    have found : (ds.buckets p).lookup win =
        some (DownSampler.bucketOf win ((readingsOf (books.opened p win)).map num)) := by
      rw [booked.buckets]
      exact if_neg filled
    have some : (readingsOf (books.opened p win)).map num ≠ [] := by simpa [readingsOf] using filled
    refine List.mem_map.mpr ⟨_, DownSampler.mem_rollUp.mpr ⟨win, _, found, ended, rfl⟩, ?_⟩
    rw [DownSampler.close_bucketOf some]
    rfl

theorem Booked.rollUp (booked : Booked num ds books) :
    Booked num (ds.rollUp order clock pointId gran nowMs).1
      (books.settle (ds.rollUp order clock pointId gran nowMs).2) := by
  refine ⟨fun p win => ?_, fun a settled => ?_⟩
  · rw [DownSampler.lookup_rollUp]
    simp only [SampleBooks.settle, booked.mem_keys]
    by_cases ended : p = pointId ∧ win < DownSampler.alignToWindow (DownSampler.rollTime clock nowMs) gran
    · rw [if_pos ended]
      by_cases empty : books.opened p win = []
      · rw [if_neg (fun both => both.2 empty), empty]
        rfl
      · rw [if_pos ⟨ended, empty⟩]
        rfl
    · rw [if_neg ended, if_neg (fun both => ended both.1)]
      exact booked.buckets p win
  · rcases List.mem_append.mp settled with old | new
    · exact booked.records a old
    · obtain ⟨r, closed, rfl⟩ := List.mem_map.mp new
      exact (booked.closed closed).2.2

/-- A roll-up names no account twice. -/
theorem Booked.nodup_keys (booked : Booked num ds books) (order : HashOrder (Sigma fun _ : Nat => Bucket K))
    (clock : Nat) (pointId : UInt32) (gran : HistoryGranularity) (nowMs : Nat) :
    ((ds.rollUp order clock pointId gran nowMs).2.map DownSampledSample.key).Nodup := by
  have starts : ∀ win b, (ds.buckets pointId).lookup win = some b → b.windowStart = win := by
    intro win b found
    rw [booked.buckets] at found
    obtain ⟨filled, rfl⟩ := bucketFor_eq_some found
    exact DownSampler.windowStart_bucketOf (by simpa [readingsOf] using filled)
  have stamps := DownSampler.nodup_rollUp order clock nowMs gran starts
  apply List.Nodup.of_map Prod.snd
  rwa [List.map_map]

end RollUp

/-- Every call keeps the books in balance with the sampler. -/
theorem audited_step [DecidableEq R] (call : SamplerCall R K) {x : DownSampler K × SampleBooks R K}
    (kept : Booked num x.1 x.2 ∧ Balanced gran x.2) :
    Booked num (audited num gran x call).1.1 (audited num gran x call).1.2 ∧
      Balanced gran (audited num gran x call).1.2 := by
  obtain ⟨booked, balanced⟩ := kept
  cases call with
  | feed pointId s => exact ⟨booked.feed pointId s, balanced.feed pointId s⟩
  | rollUp order clock pointId nowMs =>
    exact ⟨booked.rollUp, balanced.settle (booked.nodup_keys order clock pointId gran nowMs)⟩

theorem audited_run [DecidableEq R] (num : R → K) (gran : HistoryGranularity) (calls : List (SamplerCall R K)) :
    ∀ t ∈ Runs.reached (audited num gran) ({}, {}) calls, Booked num t.1 t.2 ∧ Balanced gran t.2 :=
  Runs.reached_always (audited num gran) calls
    (I := fun x => Booked num x.1 x.2 ∧ Balanced gran x.2)
    ⟨⟨fun _ _ => rfl, fun _ none => (List.not_mem_nil none).elim⟩, balanced_fresh⟩
    (fun _ call kept => audited_step call kept)

end Accounts

section Conservation
variable [Field R] [LinearOrder R] [Reading K]

/-- What is asked of the sampler after some calls: each sample with a time stamp is in one record or open
window, which covers its time stamp, and the records are exact. -/
structure Conserved (exact : ExactNumbers R K) (gran : HistoryGranularity) (ds : DownSampler K)
    (books : SampleBooks R K) : Prop where
  once : ∀ p s, s.timestamp ≠ 0 → books.fed.count (p, s) =
    (books.settled.map fun a => if a.1.pointId = p then a.2.count s else 0).sum +
      (books.opened p (DownSampler.alignToWindow s.timestamp gran)).count s
  windows : ∀ p win, ((ds.buckets p).lookup win).isSome = true ↔ books.opened p win ≠ []
  opened : ∀ p win, ∀ s ∈ books.opened p win, win ≤ s.timestamp ∧ s.timestamp < win + DownSampler.windowMs gran
  settled : ∀ a ∈ books.settled, ∀ s ∈ a.2,
    a.1.timestamp ≤ s.timestamp ∧ s.timestamp < a.1.timestamp + DownSampler.windowMs gran
  records : ∀ a ∈ books.settled, ExactRecord exact a.1 a.2

variable {exact : ExactNumbers R K} {gran : HistoryGranularity} {ds : DownSampler K} {books : SampleBooks R K}

variable [IsStrictOrderedRing R]

/-- Nothing is lost in any case; the records are exact when no window has more samples than its count holds. -/
theorem conserved_iff_small (booked : Booked exact.num ds books) (balanced : Balanced gran books) :
    Conserved exact gran ds books ↔ ∀ a ∈ books.settled, a.2.length < 65536 := by
  have exactly : ∀ a ∈ books.settled, ExactRecord exact a.1 a.2 ↔ a.2.length < 65536 := by
    intro a settled
    obtain ⟨filled, record⟩ := booked.records a settled
    have counted := exactRecord_iff exact a.1.pointId a.1.timestamp filled
    rwa [← record] at counted
  constructor
  · exact fun conserved a settled => (exactly a settled).mp (conserved.records a settled)
  · intro small
    refine ⟨balanced.once, booked.isSome_iff, fun p win s member => ?_, fun a settled s member => ?_,
      fun a settled => (exactly a settled).mpr (small a settled)⟩
    · obtain ⟨-, rfl⟩ := balanced.opened p win s member
      exact DownSampler.alignToWindow_bounds
    · rw [← (balanced.settled a settled s member).2]
      exact DownSampler.alignToWindow_bounds

/-- Samples are conserved throughout a run exactly when no record stands for 65536 samples or more. -/
theorem conserved_iff (exact : ExactNumbers R K) (gran : HistoryGranularity) (calls : List (SamplerCall R K)) :
    (∀ t ∈ Runs.reached (audited exact.num gran) ({}, {}) calls, Conserved exact gran t.1 t.2) ↔
      ∀ t ∈ Runs.reached (audited exact.num gran) ({}, {}) calls, ∀ a ∈ t.2.settled, a.2.length < 65536 := by
  refine forall₂_congr fun t reached => ?_
  obtain ⟨booked, balanced⟩ := audited_run exact.num gran calls t reached
  exact conserved_iff_small booked balanced

end Conservation

section Numbers
variable [Field R] [LinearOrder R]

/-- The numbers of an ordered field and the two infinities. -/
inductive Extended (R : Type*) where
  | negInfinity
  | num (x : R)
  | infinity

namespace Extended

def less : Extended R → Extended R → Prop
  | negInfinity, negInfinity => False
  | negInfinity, _ => True
  | num x, num y => x < y
  | num _, infinity => True
  | _, _ => False

instance : DecidableRel (less (R := R)) := fun x y => by
  cases x <;> cases y <;> unfold less <;> infer_instance

/-- Arithmetic among the numbers; an infinity stays what it is. -/
def lift (op : R → R → R) : Extended R → Extended R → Extended R
  | num x, num y => num (op x y)
  | num _, y => y
  | x, _ => x

instance : Reading (Extended R) where
  zero := num 0
  add := lift (· + ·)
  div := lift (· / ·)
  natCast n := num n
  lt := less
  infinity := infinity
  negInfinity := negInfinity
  isNaN _ := false
  decidableLT := inferInstanceAs (DecidableRel less)

def numbers : ExactNumbers R (Extended R) where
  num := num
  lt _ _ := Iff.rfl
  zero := rfl
  add _ _ := rfl
  div _ _ _ := rfl
  natCast _ := rfl
  above _ := trivial
  below _ := trivial

end Extended
end Numbers

section Dense
open Extended

def reading : Sample ℚ := ⟨1000, 7, 5⟩

/-- The same reading so many times, and a roll-up in the next second. -/
def dense (n : Nat) : List (SamplerCall ℚ (Extended ℚ)) :=
  List.replicate n (.feed 7 reading) ++ [.rollUp (HashOrder.insertion _) 0 7 2000]

/-- Two samples of a second are in one record. -/
theorem conserved_iff_pair : Conserved numbers .gran1s
    (Runs.run (audited (numbers (R := ℚ)).num .gran1s) ({}, {}) (dense 2)).1
    (Runs.run (audited (numbers (R := ℚ)).num .gran1s) ({}, {}) (dense 2)).2 :=
  (conserved_iff numbers .gran1s (dense 2)).mpr (by decide +kernel) _ Runs.run_mem_reached

theorem opened_dense (n : Nat) : (Runs.run (audited (numbers (R := ℚ)).num .gran1s) ({}, {})
    (List.replicate n (.feed 7 reading))).2.opened 7 1000 = List.replicate n reading := by
  induction n with
  | zero => rfl
  | succ n ih =>
    rw [List.replicate_succ', List.replicate_succ', Runs.run_concat, ← ih]
    rfl

/-- The roll-up makes one record of all of them. -/
theorem settled_dense {n : Nat} (some : 0 < n) : ∃ a ∈ (Runs.run (audited (numbers (R := ℚ)).num .gran1s) ({}, {})
    (dense n)).2.settled, a.2 = List.replicate n reading := by
  obtain ⟨booked, -⟩ := audited_run (numbers (R := ℚ)).num .gran1s (List.replicate n (.feed 7 reading)) _
    Runs.run_mem_reached
  have opened := opened_dense n
  rw [dense, Runs.run_concat]
  generalize Runs.run (audited (numbers (R := ℚ)).num .gran1s) ({}, {}) (List.replicate n (.feed 7 reading)) = x at *
  have filled : x.2.opened 7 1000 ≠ [] := by
    rw [opened]
    exact List.ne_nil_of_length_pos (by simpa using some)
  have ended : 1000 < DownSampler.alignToWindow (DownSampler.rollTime 0 2000) .gran1s := by decide
  have named : (7, 1000) ∈ (x.1.rollUp (HashOrder.insertion _) 0 7 .gran1s 2000).2.map DownSampledSample.key :=
    booked.mem_keys.mpr ⟨⟨rfl, ended⟩, filled⟩
  obtain ⟨r, member, key⟩ := List.mem_map.mp named
  obtain ⟨point, start⟩ := Prod.mk.inj key
  refine ⟨(r, x.2.opened r.pointId r.timestamp), List.mem_append_right _ (List.mem_map_of_mem member), ?_⟩
  rw [point, start]
  exact opened

/-- Of 65536 samples in a second the record says that there were none. -/
theorem conserved_fails : ¬∀ t ∈ Runs.reached (audited (numbers (R := ℚ)).num .gran1s) ({}, {}) (dense 65536),
    Conserved numbers .gran1s t.1 t.2 := by
  intro all
  obtain ⟨a, settled, samples⟩ := settled_dense (show 0 < 65536 by omega)
  have count := ((all _ Runs.run_mem_reached).records a settled).count
  rw [samples, List.length_replicate] at count
  exact absurd a.1.sampleCount.toNat_lt (by omega)

end Dense
end EnerSentry.Datahub
