import Mathlib.Data.List.AList
import Mathlib.Data.List.Induction
import Mathlib.Data.Nat.Cast.Defs
import Mathlib.Logic.Function.Basic

/-!
The down-sampling of samples into windows. Every point has its own table of open windows,
a hash keyed by window start; feeding a sample adds it to the window of its time stamp, and
rolling up takes out the windows before the one of a given time and turns each into a record.
-/

namespace EnerSentry.Datahub

/-- What the sampler asks of the values: arithmetic, a comparison and the two infinities. -/
class Reading (K : Type*) extends Zero K, Add K, Div K, NatCast K, LT K where
  infinity : K
  negInfinity : K
  isNaN : K → Bool
  decidableLT : DecidableLT K

instance instDecidableLTReading {K : Type*} [Reading K] : DecidableLT K := Reading.decidableLT

structure Sample (K : Type*) where
  timestamp : Nat
  pointId : UInt32
  value : K
  deriving DecidableEq, Repr

inductive HistoryGranularity where
  | gran100ms | gran1s | gran5s | gran1m
  deriving DecidableEq, Repr

structure DownSampledSample (K : Type*) where
  pointId : UInt32
  timestamp : Nat
  maxValue : K
  minValue : K
  avgValue : K
  sampleCount : UInt16
  deriving DecidableEq, Repr

/-- The order in which a hash visits its entries, which depends on its seed and its past. -/
structure HashOrder (α : Type*) where
  visit : List α → List α
  perm : ∀ l, (visit l).Perm l

def HashOrder.insertion (α : Type*) : HashOrder α := ⟨id, List.Perm.refl⟩

variable {K : Type*} [Reading K]

structure Bucket (K : Type*) [Reading K] where
  windowStart : Nat := 0
  maxV : K := Reading.negInfinity
  minV : K := Reading.infinity
  sumV : K := 0
  firstV : K := 0
  lastV : K := 0
  count : UInt32 := 0
  hasFirst : Bool := false

structure DownSampler (K : Type*) [Reading K] where
  buckets : UInt32 → AList (fun _ : Nat => Bucket K) := fun _ => ∅

def stdMax (a b : K) : K := if a < b then b else a

def stdMin (a b : K) : K := if b < a then b else a

namespace Bucket

/-- One sample added to the bucket of a window. -/
def add (win : Nat) (b : Bucket K) (value : K) : Bucket K where
  windowStart := if b.windowStart = 0 then win else b.windowStart
  maxV := stdMax b.maxV value
  minV := stdMin b.minV value
  sumV := b.sumV + value
  firstV := if b.hasFirst then b.firstV else value
  lastV := value
  count := b.count + 1
  hasFirst := true

/-- The record of a bucket. -/
def close (pointId : UInt32) (b : Bucket K) : DownSampledSample K where
  pointId := pointId
  timestamp := b.windowStart
  maxValue := b.maxV
  minValue := b.minV
  avgValue := if b.count = 0 then 0 else b.sumV / (b.count.toNat : K)
  sampleCount := b.count.toUInt16

end Bucket

namespace DownSampler

def windowMs : HistoryGranularity → Nat
  | .gran100ms => 100
  | .gran1s => 1000
  | .gran5s => 5000
  | .gran1m => 60000

def alignToWindow (ts : Nat) (gran : HistoryGranularity) : Nat := ts / windowMs gran * windowMs gran

def feed (ds : DownSampler K) (pointId : UInt32) (s : Sample K) (gran : HistoryGranularity) : DownSampler K :=
  if s.timestamp = 0 then ds
  else
    let win := alignToWindow s.timestamp gran
    let perPoint := ds.buckets pointId
    let b := (perPoint.lookup win).getD {}
    { buckets := Function.update ds.buckets pointId (perPoint.insert win (b.add win s.value)) }

/-- The windows of a table whose starts meet a condition. -/
def keep (p : Nat → Bool) (l : AList (fun _ : Nat => Bucket K)) : AList (fun _ : Nat => Bucket K) :=
  ⟨l.entries.filter (fun e => p e.1), l.nodupKeys.sublist List.filter_sublist⟩

/-- A `nowMs` of zero stands for the wall clock. -/
def rollUp (order : HashOrder (Sigma fun _ : Nat => Bucket K)) (clock : Nat) (ds : DownSampler K)
    (pointId : UInt32) (gran : HistoryGranularity) (nowMs : Nat) : DownSampler K × List (DownSampledSample K) :=
  let nowWin := alignToWindow (if nowMs = 0 then clock else nowMs) gran
  let perPoint := ds.buckets pointId
  let closed := (order.visit perPoint.entries).filter (fun e => e.1 < nowWin)
  ({ buckets := Function.update ds.buckets pointId (keep (fun win => !decide (win < nowWin)) perPoint) },
    closed.map (fun e => e.2.close pointId))

section Windows
variable {ts ts' : Nat} {gran : HistoryGranularity}

theorem windowMs_pos (gran : HistoryGranularity) : 0 < windowMs gran := by cases gran <;> decide

theorem alignToWindow_mono (ordered : ts ≤ ts') : alignToWindow ts gran ≤ alignToWindow ts' gran :=
  Nat.mul_le_mul_right _ (Nat.div_le_div_right ordered)

/-- A time stamp lies in the window it is aligned to. -/
theorem alignToWindow_bounds : alignToWindow ts gran ≤ ts ∧ ts < alignToWindow ts gran + windowMs gran := by
  have split := Nat.div_add_mod ts (windowMs gran)
  have part := Nat.mod_lt ts (windowMs_pos gran)
  rw [Nat.mul_comm] at split
  unfold alignToWindow
  omega

end Windows

section Tables
variable {ds : DownSampler K} {pointId q : UInt32} {s : Sample K} {gran : HistoryGranularity} {win : Nat}

theorem lookup_fresh : (({} : DownSampler K).buckets q).lookup win = none := rfl

theorem lookup_feed (stamped : s.timestamp ≠ 0) : ((ds.feed pointId s gran).buckets q).lookup win =
    if q = pointId ∧ win = alignToWindow s.timestamp gran then
      some ((((ds.buckets q).lookup win).getD {}).add win s.value)
    else (ds.buckets q).lookup win := by
  simp only [feed, if_neg stamped]
  by_cases point : q = pointId
  · subst point
    rw [Function.update_self]
    by_cases same : win = alignToWindow s.timestamp gran
    · subst same
      rw [AList.lookup_insert, if_pos ⟨rfl, rfl⟩]
    · rw [AList.lookup_insert_ne same, if_neg (fun both => same both.2)]
  · rw [Function.update_of_ne point, if_neg (fun both => point both.1)]

theorem lookup_keep (p : Nat → Bool) (l : AList (fun _ : Nat => Bucket K)) :
    (keep p l).lookup win = if p win then l.lookup win else none := by
  ext b
  rw [← Option.mem_def, ← Option.mem_def, AList.mem_lookup_iff, keep, List.mem_filter]
  split
  · rename_i kept
    rw [AList.mem_lookup_iff]
    exact ⟨And.left, fun member => ⟨member, kept⟩⟩
  · rename_i dropped
    exact ⟨fun both => absurd both.2 dropped, fun member => by cases member⟩

variable {order : HashOrder (Sigma fun _ : Nat => Bucket K)} {clock nowMs : Nat}

/-- The time that a roll-up goes by. -/
def rollTime (clock nowMs : Nat) : Nat := if nowMs = 0 then clock else nowMs

/-- A roll-up leaves the windows from the current one on. -/
theorem lookup_rollUp : ((ds.rollUp order clock pointId gran nowMs).1.buckets q).lookup win =
    if q = pointId ∧ win < alignToWindow (rollTime clock nowMs) gran then none
    else (ds.buckets q).lookup win := by
  unfold rollUp
  by_cases point : q = pointId
  · subst point
    simp only [Function.update_self, lookup_keep, true_and, Bool.not_eq_true', decide_eq_false_iff_not,
      rollTime]
    by_cases closed : win < alignToWindow (if nowMs = 0 then clock else nowMs) gran
    · rw [if_neg (not_not.mpr closed), if_pos closed]
    · rw [if_pos closed, if_neg closed]
  · simp only [Function.update_of_ne point, point, false_and, ↓reduceIte]

/-- The records of a roll-up are those of the windows that end. -/
theorem mem_rollUp {r : DownSampledSample K} : r ∈ (ds.rollUp order clock pointId gran nowMs).2 ↔
    ∃ win b, (ds.buckets pointId).lookup win = some b ∧
      win < alignToWindow (rollTime clock nowMs) gran ∧ r = b.close pointId := by
  simp only [rollUp, List.mem_map, List.mem_filter, (order.perm _).mem_iff, decide_eq_true_eq]
  constructor
  · rintro ⟨⟨win, b⟩, ⟨member, closed⟩, rfl⟩
    exact ⟨win, b, AList.mem_lookup_iff.mpr member, closed, rfl⟩
  · rintro ⟨win, b, open_, closed, rfl⟩
    exact ⟨⟨win, b⟩, ⟨AList.mem_lookup_iff.mp open_, closed⟩, rfl⟩

/-- They come one for each window, where every bucket knows the start of its window. -/
theorem nodup_rollUp (order : HashOrder (Sigma fun _ : Nat => Bucket K)) (clock nowMs : Nat)
    (gran : HistoryGranularity)
    (starts : ∀ win b, (ds.buckets pointId).lookup win = some b → b.windowStart = win) :
    ((ds.rollUp order clock pointId gran nowMs).2.map (·.timestamp)).Nodup := by
  have keys : ((order.visit (ds.buckets pointId).entries).map Sigma.fst).Nodup :=
    ((order.perm _).map _).nodup_iff.mpr (ds.buckets pointId).keys_nodup
  simp only [rollUp, List.map_map]
  have stamps : ((order.visit (ds.buckets pointId).entries).filter
      (fun e => e.1 < alignToWindow (rollTime clock nowMs) gran)).map
        ((fun r : DownSampledSample K => r.timestamp) ∘ fun e => e.2.close pointId) =
      ((order.visit (ds.buckets pointId).entries).filter
        (fun e => e.1 < alignToWindow (rollTime clock nowMs) gran)).map Sigma.fst := by
    apply List.map_congr_left
    intro e member
    have entry := (order.perm _).mem_iff.mp (List.mem_filter.mp member).1
    exact starts e.1 e.2 (AList.mem_lookup_iff.mpr entry)
  exact stamps ▸ keys.sublist (List.filter_sublist.map _)

end Tables

section Summaries
variable {pointId : UInt32} {win : Nat} {values : List K}

/-- What a record says of the values of its window. -/
def summary (pointId : UInt32) (win : Nat) (values : List K) : DownSampledSample K where
  pointId := pointId
  timestamp := win
  maxValue := values.foldl stdMax Reading.negInfinity
  minValue := values.foldl stdMin Reading.infinity
  avgValue :=
    if UInt32.ofNat values.length = 0 then 0
    else values.foldl (· + ·) 0 / ((UInt32.ofNat values.length).toNat : K)
  sampleCount := (UInt32.ofNat values.length).toUInt16

/-- The bucket that took these values one after the other. -/
def bucketOf (win : Nat) (values : List K) : Bucket K := values.foldl (Bucket.add win) {}

theorem bucketOf_concat (v : K) : bucketOf win (values ++ [v]) = (bucketOf win values).add win v :=
  List.foldl_concat ..

theorem windowStart_bucketOf (filled : values ≠ []) : (bucketOf win values).windowStart = win := by
  induction values using List.reverseRecOn with
  | nil => exact absurd rfl filled
  | append_singleton values v ih =>
    rw [bucketOf_concat]
    cases values with
    | nil => rfl
    | cons w values =>
      have before := ih (List.cons_ne_nil w values)
      simp only [Bucket.add, before]
      split
      · rfl
      · rfl

theorem count_bucketOf : (bucketOf win values).count = UInt32.ofNat values.length := by
  induction values using List.reverseRecOn with
  | nil => rfl
  | append_singleton values v ih =>
    rw [bucketOf_concat, List.length_append, List.length_singleton, UInt32.ofNat_add]
    exact congrArg (· + 1) ih

/-- Closing the bucket of some values gives their summary. -/
theorem close_bucketOf (filled : values ≠ []) :
    (bucketOf win values).close pointId = summary pointId win values := by
  have top : (bucketOf win values).maxV = values.foldl stdMax Reading.negInfinity :=
    (List.foldl_hom Bucket.maxV (fun _ _ => rfl)).symm
  have bottom : (bucketOf win values).minV = values.foldl stdMin Reading.infinity :=
    (List.foldl_hom Bucket.minV (fun _ _ => rfl)).symm
  have total : (bucketOf win values).sumV = values.foldl (· + ·) 0 :=
    (List.foldl_hom Bucket.sumV (fun _ _ => rfl)).symm
  simp only [Bucket.close, summary, windowStart_bucketOf filled, count_bucketOf, top, bottom, total]

end Summaries
end DownSampler
end EnerSentry.Datahub
