import Mathlib.Algebra.Order.Ring.Rat
import Mathlib.Data.List.MinMax
import EnerSentry.Lib.Sampling

/-!
The down-sampling of a series for drawing. The series is cut into buckets, and each gives its
lowest and its highest point as long as there is room. Coordinates are doubles without NaN,
but the scan of a bucket keeps the extremes it compares with as floats.
-/

namespace EnerSentry.Ui
open EnerSentry.Lib.Sampling

variable {K : Type*}

structure QPointF (K : Type*) where
  x : K
  y : K
  deriving DecidableEq

namespace RenderDownsampler

def bucketSize (length target : ℕ) : ℕ := max 1 (length / max 1 (target / 2))

def buckets (src : List (QPointF K)) (target : ℕ) : List (List (QPointF K)) :=
  stretches (bucketSize src.length target)
    ((src.length + bucketSize src.length target - 1) / bucketSize src.length target) src

theorem bucketSize_pos (length target : ℕ) : 0 < bucketSize length target :=
  Nat.lt_of_lt_of_le Nat.one_pos (Nat.le_max_left _ _)

theorem flatten_buckets (src : List (QPointF K)) (target : ℕ) : (buckets src target).flatten = src :=
  flatten_stretches_all (bucketSize_pos _ _) src

theorem bucket_ne_nil {bucket : List (QPointF K)} (member : bucket ∈ buckets src target) : bucket ≠ [] :=
  stretches_ne_nil (bucketSize_pos _ _) member

/-- What the scan of a bucket has found, with the points at its two indices. -/
structure Scan (K : Type*) where
  minIdx : ℕ
  maxIdx : ℕ
  minY : K
  maxY : K
  lowest : QPointF K
  highest : QPointF K

section Source
variable [LinearOrder K] (toFloat : K → K)

def Scan.start (i : ℕ) (p : QPointF K) : Scan K :=
  { minIdx := i, maxIdx := i, minY := toFloat p.y, maxY := toFloat p.y, lowest := p, highest := p }

def Scan.next (s : Scan K) (j : ℕ) (p : QPointF K) : Scan K :=
  let s := if p.y < s.minY then { s with minY := toFloat p.y, minIdx := j, lowest := p } else s
  if s.maxY < p.y then { s with maxY := toFloat p.y, maxIdx := j, highest := p } else s

/-- The scan of the bucket from index `i` on. -/
def scan (i : ℕ) (first : QPointF K) (rest : List (QPointF K)) : Scan K :=
  (rest.zipIdx (i + 1)).foldl (fun s e => s.next toFloat e.2 e.1) (Scan.start toFloat i first)

/-- One round of the loop over the buckets, which ends when the output is full. -/
def addBucket (target i : ℕ) (out bucket : List (QPointF K)) : List (QPointF K) :=
  match bucket with
  | [] => out
  | first :: rest =>
      if out.length < target then
        let s := scan toFloat i first rest
        let out := out ++ [s.lowest]
        if s.maxIdx ≠ s.minIdx ∧ out.length < target then out ++ [s.highest] else out
      else out

/-- The last point of the series, where there is room and the last one drawn has another key. -/
def addLast (target : ℕ) (out src : List (QPointF K)) : List (QPointF K) :=
  match out.getLast?, src.getLast? with
  | some drawn, some last => if out.length < target ∧ drawn.x ≠ last.x then out ++ [last] else out
  | _, _ => out

def minMaxBucketDownSample (src : List (QPointF K)) (target : Int) : List (QPointF K) :=
  if target < 2 ∨ (src.length : Int) ≤ target then src
  else
    let size := bucketSize src.length target.toNat
    let starts := (List.range ((src.length + size - 1) / size)).map (· * size)
    let out := starts.foldl (fun out i => addBucket toFloat target.toNat i out ((src.drop i).take size)) []
    addLast target.toNat out src

end Source

variable [LinearOrder K]

/-- Rounding to a float keeps the order and leaves floats as they are. -/
structure Rounding (toFloat : K → K) : Prop where
  monotone : Monotone toFloat
  exact : ∀ v, toFloat (toFloat v) = toFloat v

/-- What a drawn series promises of the series it stands for. -/
structure Shape (src : List (QPointF K)) (target : Int) (out : List (QPointF K)) : Prop where
  within : (out.length : Int) ≤ target
  taken : ∀ p ∈ out, p ∈ src
  ordered : out.Pairwise fun p q => p.x ≤ q.x
  trough : src ≠ [] → ∃ p ∈ out, ∀ q ∈ src, p.y ≤ q.y
  peak : src ≠ [] → ∃ p ∈ out, ∀ q ∈ src, q.y ≤ p.y
  ending : ∀ p ∈ src.getLast?, p ∈ out
  unchanged : (src.length : Int) ≤ target → out = src

section Buckets
variable (toFloat : K → K)

/-- Below the other point as a float. -/
def Below (p q : QPointF K) : Prop := p.y < toFloat q.y

def Above (p q : QPointF K) : Prop := toFloat q.y < p.y

/-- All the later values are the first one as a float. -/
def Level (bucket : List (QPointF K)) : Prop := ∀ first ∈ bucket.head?, ∀ q ∈ bucket.tail, q.y = toFloat first.y

instance (bucket : List (QPointF K)) : Decidable (Level toFloat bucket) :=
  inferInstanceAs (Decidable (∀ first ∈ bucket.head?, ∀ q ∈ bucket.tail, q.y = toFloat first.y))

/-- The places of the budget a bucket takes. -/
def places (bucket : List (QPointF K)) : ℕ := if Level toFloat bucket then 1 else 2

/-- The buckets, each with the places that are taken before it. -/
def reached (src : List (QPointF K)) (target : ℕ) : List (ℕ × List (QPointF K)) :=
  charges (places toFloat) 0 (buckets src target)

/-- The low of a bucket reached with a place left, or the high of one reached with two. -/
def Shown (src : List (QPointF K)) (target : ℕ) (p : QPointF K) : Prop :=
  ∃ c ∈ reached toFloat src target, (c.1 < target ∧ ∃ i, Record (Below toFloat) c.2 i p) ∨
    (c.1 + 1 < target ∧ ∃ i, Record (Above toFloat) c.2 i p)

/-- The last point, where the buckets leave a place and show nothing at its key. -/
def Appended (src : List (QPointF K)) (target : ℕ) (last : QPointF K) : Prop :=
  src.getLast? = some last ∧ ((buckets src target).map (places toFloat)).sum < target ∧
    ∀ p, Shown toFloat src target p → p.x ≠ last.x

def Kept (src : List (QPointF K)) (target : ℕ) (p : QPointF K) : Prop :=
  Shown toFloat src target p ∨ Appended toFloat src target p

/-- The buckets that are reached show what matters, and each its low before its high. -/
structure BucketsTell (src : List (QPointF K)) (target : ℕ) : Prop where
  forward : ∀ c ∈ reached toFloat src target, c.1 + 1 < target → ∀ i low j high,
    Record (Below toFloat) c.2 i low → Record (Above toFloat) c.2 j high → low.x ≤ high.x
  trough : ∃ p, Kept toFloat src target p ∧ ∀ q ∈ src, p.y ≤ q.y
  peak : ∃ p, Kept toFloat src target p ∧ ∀ q ∈ src, q.y ≤ p.y
  ending : ∀ p ∈ src.getLast?, Kept toFloat src target p

end Buckets

section Scanning
variable {toFloat : K → K} {bucket : List (QPointF K)} {i j : ℕ} {low high : QPointF K}

theorem below_trans (rounding : Rounding toFloat) (p q r : QPointF K) (first : Below toFloat p q)
    (second : Below toFloat q r) : Below toFloat p r :=
  calc p.y < toFloat q.y := first
    _ ≤ toFloat (toFloat r.y) := rounding.monotone second.le
    _ = toFloat r.y := rounding.exact r.y

theorem below_cotrans (rounding : Rounding toFloat) (p q r : QPointF K) (first : Below toFloat p q)
    (second : ¬Below toFloat r q) : Below toFloat p r :=
  calc p.y < toFloat q.y := first
    _ = toFloat (toFloat q.y) := (rounding.exact q.y).symm
    _ ≤ toFloat r.y := rounding.monotone (not_lt.mp second)

theorem above_trans (rounding : Rounding toFloat) (p q r : QPointF K) (first : Above toFloat p q)
    (second : Above toFloat q r) : Above toFloat p r :=
  calc toFloat r.y = toFloat (toFloat r.y) := (rounding.exact r.y).symm
    _ ≤ toFloat q.y := rounding.monotone second.le
    _ < p.y := first

theorem above_cotrans (rounding : Rounding toFloat) (p q r : QPointF K) (first : Above toFloat p q)
    (second : ¬Above toFloat r q) : Above toFloat p r :=
  calc toFloat r.y ≤ toFloat (toFloat q.y) := rounding.monotone (not_lt.mp second)
    _ = toFloat q.y := rounding.exact q.y
    _ < p.y := first

/-- What a scan knows of the bucket it has gone through. -/
structure Scan.Finds (toFloat : K → K) (start : ℕ) (bucket : List (QPointF K)) (s : Scan K) : Prop where
  low : ∃ i, s.minIdx = start + i ∧ Record (Below toFloat) bucket i s.lowest
  minY : s.minY = toFloat s.lowest.y
  high : ∃ i, s.maxIdx = start + i ∧ Record (Above toFloat) bucket i s.highest
  maxY : s.maxY = toFloat s.highest.y

theorem next_finds (rounding : Rounding toFloat) {start : ℕ} {s : Scan K} (finds : s.Finds toFloat start bucket)
    (p : QPointF K) : (s.next toFloat (start + bucket.length) p).Finds toFloat start (bucket ++ [p]) := by
  obtain ⟨i, least, low⟩ := finds.low
  obtain ⟨j, most, high⟩ := finds.high
  have under : p.y < s.minY ↔ Below toFloat p s.lowest := by rw [finds.minY, Below]
  have beyond : s.maxY < p.y ↔ Above toFloat p s.highest := by rw [finds.maxY, Above]
  have lower : Below toFloat p s.lowest → Record (Below toFloat) (bucket ++ [p]) bucket.length p :=
    low.concat_take (below_trans rounding) (below_cotrans rounding)
  have higher : Above toFloat p s.highest → Record (Above toFloat) (bucket ++ [p]) bucket.length p :=
    high.concat_take (above_trans rounding) (above_cotrans rounding)
  by_cases dips : p.y < s.minY <;> by_cases rises : s.maxY < p.y
  · simp only [Scan.next, if_pos dips, if_pos rises]
    exact ⟨⟨_, rfl, lower (under.mp dips)⟩, rfl, ⟨_, rfl, higher (beyond.mp rises)⟩, rfl⟩
  · simp only [Scan.next, if_pos dips, if_neg rises]
    exact ⟨⟨_, rfl, lower (under.mp dips)⟩, rfl, ⟨j, most, high.concat_keep (mt beyond.mpr rises)⟩, finds.maxY⟩
  · simp only [Scan.next, if_neg dips, if_pos rises]
    exact ⟨⟨i, least, low.concat_keep (mt under.mpr dips)⟩, finds.minY, ⟨_, rfl, higher (beyond.mp rises)⟩, rfl⟩
  · simp only [Scan.next, if_neg dips, if_neg rises]
    exact ⟨⟨i, least, low.concat_keep (mt under.mpr dips)⟩, finds.minY,
      ⟨j, most, high.concat_keep (mt beyond.mpr rises)⟩, finds.maxY⟩

/-- A scan finds the records of its bucket. -/
theorem scan_finds (rounding : Rounding toFloat) (start : ℕ) (first : QPointF K) (rest : List (QPointF K)) :
    (scan toFloat start first rest).Finds toFloat start (first :: rest) := by
  induction rest using List.reverseRecOn with
  | nil =>
    constructor
    · exact ⟨0, rfl, Record.single _ first⟩
    · rfl
    · exact ⟨0, rfl, Record.single _ first⟩
    · rfl
  | append_singleton rest p ih =>
    have scanned : scan toFloat start first (rest ++ [p]) =
        (scan toFloat start first rest).next toFloat (start + (first :: rest).length) p := by
      rw [scan, List.zipIdx_append, List.foldl_append, ← scan, List.length_cons, Nat.add_assoc, Nat.add_comm 1]
      rfl
    rw [scanned, ← List.cons_append]
    exact next_finds rounding ih p

/-- The low and the high of a bucket are one point if the bucket is level. -/
theorem same_iff_level (lowest : Record (Below toFloat) bucket i low) (highest : Record (Above toFloat) bucket j high) :
    i = j ↔ Level toFloat bucket := by
  obtain ⟨first, rest, rfl⟩ := List.exists_cons_of_ne_nil (List.ne_nil_of_mem lowest.mem)
  have head : first ∈ (first :: rest).head? := rfl
  constructor
  · intro same
    have point : low = high := lowest.eq_of_place highest same
    have start : i = 0 := by
      by_contra further
      have under := lowest.before 0 first (Nat.pos_of_ne_zero further) rfl
      have beyond := highest.before 0 first (same ▸ Nat.pos_of_ne_zero further) rfl
      rw [← point] at beyond
      exact lt_asymm under beyond
    subst same start
    have here : first = low := Option.some.inj lowest.here
    subst here point
    intro p head q later
    rw [← Option.some.inj head]
    apply le_antisymm
    · exact not_lt.mp (Record.head_iff.mp highest q later)
    · exact not_lt.mp (Record.head_iff.mp lowest q later)
  · intro level
    have lowestFirst : Record (Below toFloat) (first :: rest) 0 first := by
      rw [Record.head_iff]
      intro q later
      exact (level first head q later).not_lt
    have highestFirst : Record (Above toFloat) (first :: rest) 0 first := by
      rw [Record.head_iff]
      intro q later
      exact (level first head q later).not_gt
    exact (lowest.unique lowestFirst).1.trans (highest.unique highestFirst).1.symm

end Scanning

/-- What a bucket gives when there is room for all of it. -/
def share (toFloat : K → K) (bucket : List (QPointF K)) : List (QPointF K) := addBucket toFloat 2 0 [] bucket

section Shares
variable {toFloat : K → K} {bucket : List (QPointF K)} {p : QPointF K}

/-- The points of a bucket that are drawn where there is room. -/
theorem addBucket_eq (rounding : Rounding toFloat) (target i : ℕ) (out bucket : List (QPointF K)) :
    addBucket toFloat target i out bucket = out ++ (share toFloat bucket).take (target - out.length) := by
  cases bucket with
  | nil =>
    rw [share, addBucket, addBucket, List.take_nil, List.append_nil]
  | cons first rest =>
    obtain ⟨a, least, low⟩ := (scan_finds rounding i first rest).low
    obtain ⟨b, most, high⟩ := (scan_finds rounding i first rest).high
    obtain ⟨c, least', low'⟩ := (scan_finds rounding 0 first rest).low
    obtain ⟨d, most', high'⟩ := (scan_finds rounding 0 first rest).high
    obtain ⟨sameLow, lowest⟩ := low.unique low'
    obtain ⟨sameHigh, highest⟩ := high.unique high'
    have apart : (scan toFloat 0 first rest).maxIdx ≠ (scan toFloat 0 first rest).minIdx ↔
        (scan toFloat i first rest).maxIdx ≠ (scan toFloat i first rest).minIdx := by omega
    by_cases room : out.length < target
    · obtain ⟨left, place⟩ : ∃ left, target - out.length = left + 1 := ⟨target - out.length - 1, by omega⟩
      by_cases two : (scan toFloat i first rest).maxIdx ≠ (scan toFloat i first rest).minIdx
      · by_cases more : out.length + 1 < target
        · obtain ⟨beyond, second⟩ : ∃ beyond, left = beyond + 1 := ⟨left - 1, by omega⟩
          simp [share, addBucket, room, two, apart.mpr two, more, lowest, highest, place, second]
        · have full : left = 0 := by omega
          simp [share, addBucket, room, two, apart.mpr two, more, lowest, place, full]
      · simp [share, addBucket, room, two, mt apart.mp two, lowest, place]
    · have full : target - out.length = 0 := by omega
      simp [addBucket, room, full]

/-- The low of a bucket, and behind it the high where that is another point. -/
theorem share_spec (rounding : Rounding toFloat) (some : bucket ≠ []) :
    ∃ i low j high, Record (Below toFloat) bucket i low ∧ Record (Above toFloat) bucket j high ∧
      share toFloat bucket = if Level toFloat bucket then [low] else [low, high] := by
  obtain ⟨first, rest, rfl⟩ := List.exists_cons_of_ne_nil some
  obtain ⟨i, least, low⟩ := (scan_finds rounding 0 first rest).low
  obtain ⟨j, most, high⟩ := (scan_finds rounding 0 first rest).high
  exists i, _, j, _, low, high
  have level := same_iff_level low high
  by_cases same : i = j
  · have single : ¬(scan toFloat 0 first rest).maxIdx ≠ (scan toFloat 0 first rest).minIdx := by omega
    simp [share, addBucket, single, level.mp same]
  · have two : (scan toFloat 0 first rest).maxIdx ≠ (scan toFloat 0 first rest).minIdx := by omega
    simp [share, addBucket, two, mt level.mpr same]

theorem length_share (rounding : Rounding toFloat) (some : bucket ≠ []) :
    (share toFloat bucket).length = places toFloat bucket := by
  obtain ⟨i, low, j, high, -, -, shares⟩ := share_spec rounding some
  rw [shares, places]
  split
  · rfl
  · rfl

theorem mem_of_mem_share (rounding : Rounding toFloat) (member : p ∈ share toFloat bucket) : p ∈ bucket := by
  have some : bucket ≠ [] := by
    intro none
    rw [none] at member
    exact absurd member List.not_mem_nil
  obtain ⟨i, low, j, high, lowest, highest, shares⟩ := share_spec rounding some
  have either : p = low ∨ p = high := by
    rw [shares] at member
    split at member
    · exact Or.inl (List.mem_singleton.mp member)
    · exact List.mem_pair.mp member
  cases either with
  | inl same => exact same ▸ lowest.mem
  | inr same => exact same ▸ highest.mem

/-- With one place left the low is drawn, with two the high. -/
theorem mem_take_share (rounding : Rounding toFloat) (some : bucket ≠ []) (used target : ℕ) :
    p ∈ (share toFloat bucket).take (target - used) ↔
      (used < target ∧ ∃ i, Record (Below toFloat) bucket i p) ∨
        (used + 1 < target ∧ ∃ i, Record (Above toFloat) bucket i p) := by
  obtain ⟨i, low, j, high, lowest, highest, shares⟩ := share_spec rounding some
  rw [shares, lowest.exists_iff, highest.exists_iff]
  by_cases level : Level toFloat bucket
  · have point : low = high := lowest.eq_of_place highest ((same_iff_level lowest highest).mpr level)
    rw [if_pos level, point]
    by_cases room : used < target
    · rw [List.take_of_length_le (by rw [List.length_singleton]; omega), List.mem_singleton]
      tauto
    · rw [Nat.sub_eq_zero_of_le (by omega), List.take_zero]
      simp [room, show ¬used + 1 < target by omega]
  · rw [if_neg level]
    by_cases more : used + 1 < target
    · rw [List.take_of_length_le (by rw [List.length_cons, List.length_singleton]; omega), List.mem_pair]
      simp [more, show used < target by omega]
    · by_cases room : used < target
      · have one : target - used = 1 := by omega
        simp [one, room, more]
      · rw [Nat.sub_eq_zero_of_le (by omega), List.take_zero]
        simp [room, more]

/-- What is drawn of a bucket is in order if the low comes first, or alone. -/
theorem ordered_take_share (rounding : Rounding toFloat) (some : bucket ≠ []) (used target : ℕ) :
    ((share toFloat bucket).take (target - used)).Pairwise (fun p q => p.x ≤ q.x) ↔
      (used + 1 < target → ∀ i low j high, Record (Below toFloat) bucket i low → Record (Above toFloat) bucket j high →
        low.x ≤ high.x) := by
  obtain ⟨i, low, j, high, lowest, highest, shares⟩ := share_spec rounding some
  have these : (∀ i low j high, Record (Below toFloat) bucket i low → Record (Above toFloat) bucket j high →
      low.x ≤ high.x) ↔ low.x ≤ high.x := by
    constructor
    · intro all
      exact all i low j high lowest highest
    · intro ordered k p l q first second
      rw [(first.unique lowest).2, (second.unique highest).2]
      exact ordered
  rw [shares, these]
  by_cases level : Level toFloat bucket
  · have point : low = high := lowest.eq_of_place highest ((same_iff_level lowest highest).mpr level)
    rw [if_pos level, point]
    exact ⟨fun _ _ => le_rfl, fun _ => List.Pairwise.take (List.pairwise_singleton _ _)⟩
  · rw [if_neg level]
    by_cases more : used + 1 < target
    · rw [List.take_of_length_le (by rw [List.length_cons, List.length_singleton]; omega), List.pairwise_pair]
      exact ⟨fun ordered _ => ordered, fun ordered => ordered more⟩
    · have short : [low, high].take (target - used) = [low].take (target - used) := by
        by_cases room : used < target
        · have one : target - used = 1 := by omega
          rw [one]
          rfl
        · rw [Nat.sub_eq_zero_of_le (by omega)]
          rfl
      rw [short]
      exact ⟨fun _ room => absurd room more, fun _ => List.Pairwise.take (List.pairwise_singleton _ _)⟩

end Shares

/-- What the buckets give before the last point is looked at. -/
def filled (toFloat : K → K) (src : List (QPointF K)) (target : ℕ) : List (QPointF K) :=
  ((buckets src target).flatMap (share toFloat)).take target

section Series
variable {toFloat : K → K} {src : List (QPointF K)} {target : ℕ} {p : QPointF K}

theorem minMaxBucketDownSample_short (toFloat : K → K) {src : List (QPointF K)} {target : Int}
    (short : (src.length : Int) ≤ target) : minMaxBucketDownSample toFloat src target = src := if_pos (Or.inr short)

/-- A series that is too long gives what fills the buckets' places, and its last point where one is left. -/
theorem minMaxBucketDownSample_long (rounding : Rounding toFloat) (enough : 2 ≤ target) (long : target < src.length) :
    minMaxBucketDownSample toFloat src target = addLast target (filled toFloat src target) src := by
  have sampled : ¬((target : Int) < 2 ∨ (src.length : Int) ≤ target) := by omega
  have round : (fun out i => addBucket toFloat target i out ((src.drop i).take (bucketSize src.length target))) =
      fun out i => out ++ (share toFloat ((src.drop i).take (bucketSize src.length target))).take
        (target - out.length) := by
    funext out i
    exact addBucket_eq rounding target i out _
  rw [minMaxBucketDownSample, if_neg sampled, Int.toNat_natCast]
  simp only []
  rw [round, List.foldl_map, filled]
  have fills := foldl_fill (share toFloat) target (buckets src target) [] (Nat.zero_le _)
  rw [List.nil_append, List.length_nil, Nat.sub_zero, buckets, stretches, List.foldl_map] at fills
  rw [fills, buckets, stretches]

theorem mem_filled (rounding : Rounding toFloat) : p ∈ filled toFloat src target ↔ Shown toFloat src target p := by
  have weighs : ∀ b ∈ buckets src target, (share toFloat b).length = places toFloat b := by
    intro b member
    exact length_share rounding (bucket_ne_nil member)
  have fills := mem_fill weighs target 0 (p := p)
  rw [Nat.sub_zero] at fills
  rw [filled, fills, Shown]
  apply exists_congr
  intro c
  apply and_congr_right
  intro charged
  exact mem_take_share rounding (bucket_ne_nil (mem_charges charged)) c.1 target

theorem length_filled (rounding : Rounding toFloat) (src : List (QPointF K)) (target : ℕ) :
    (filled toFloat src target).length = min target ((buckets src target).map (places toFloat)).sum := by
  rw [filled, List.length_take, length_fill]
  intro b member
  exact length_share rounding (bucket_ne_nil member)

theorem mem_of_mem_filled (rounding : Rounding toFloat) (member : p ∈ filled toFloat src target) : p ∈ src := by
  obtain ⟨bucket, among, shared⟩ := List.mem_flatMap.mp (List.mem_of_mem_take member)
  rw [← flatten_buckets src target]
  exact List.mem_flatten.mpr ⟨bucket, among, mem_of_mem_share rounding shared⟩

/-- The points that fill the places are in order if each bucket's are. -/
theorem ordered_filled (rounding : Rounding toFloat) (ascending : src.Pairwise fun p q => p.x ≤ q.x) :
    (filled toFloat src target).Pairwise (fun p q => p.x ≤ q.x) ↔
      ∀ c ∈ reached toFloat src target, c.1 + 1 < target → ∀ i low j high,
        Record (Below toFloat) c.2 i low → Record (Above toFloat) c.2 j high → low.x ≤ high.x := by
  have weighs : ∀ b ∈ buckets src target, (share toFloat b).length = places toFloat b := by
    intro b member
    exact length_share rounding (bucket_ne_nil member)
  have apart : (buckets src target).Pairwise fun a b => ∀ p ∈ share toFloat a, ∀ q ∈ share toFloat b, p.x ≤ q.x := by
    rw [← flatten_buckets src target, List.pairwise_flatten] at ascending
    apply ascending.2.imp
    intro a b across p first q second
    exact across p (mem_of_mem_share rounding first) q (mem_of_mem_share rounding second)
  have fills := pairwise_fill weighs apart target 0
  rw [Nat.sub_zero] at fills
  rw [filled, fills]
  apply forall_congr'
  intro c
  apply imp_congr_right
  intro charged
  exact ordered_take_share rounding (bucket_ne_nil (mem_charges charged)) c.1 target

end Series

section Law
variable {toFloat : K → K} {src : List (QPointF K)} {target : ℕ} {p drawn last : QPointF K}

/-- In an ascending series the last point has the greatest key. -/
theorem le_last (ascending : src.Pairwise fun p q => p.x ≤ q.x) (ending : src.getLast? = some last) :
    ∀ p ∈ src, p.x ≤ last.x := by
  intro p member
  obtain ⟨before, rfl⟩ := List.getLast?_eq_some_iff.mp ending
  cases List.mem_append.mp member with
  | inl sooner => exact (List.pairwise_append.mp ascending).2.2 p sooner last List.mem_cons_self
  | inr same => exact (congrArg QPointF.x (List.mem_singleton.mp same)).le

theorem filled_ne_nil (rounding : Rounding toFloat) (enough : 2 ≤ target) (some : src ≠ []) :
    filled toFloat src target ≠ [] := by
  apply List.ne_nil_of_length_pos
  rw [length_filled rounding]
  have whole := flatten_buckets src target
  cases cut : buckets src target with
  | nil =>
    rw [cut] at whole
    exact absurd whole.symm some
  | cons bucket rest =>
    have place : 1 ≤ places toFloat bucket := by
      rw [places]
      split
      · exact le_rfl
      · exact Nat.le_succ 1
    rw [List.map_cons, List.sum_cons]
    omega

/-- Where the points drawn so far are in order, the last of them tells whether the end is missing. -/
theorem appended_iff (rounding : Rounding toFloat) (ascending : src.Pairwise fun p q => p.x ≤ q.x)
    (ordered : (filled toFloat src target).Pairwise fun p q => p.x ≤ q.x)
    (drew : (filled toFloat src target).getLast? = some drawn) (ending : src.getLast? = some last) :
    Appended toFloat src target p ↔ p = last ∧ (filled toFloat src target).length < target ∧ drawn.x ≠ last.x := by
  have among : drawn ∈ filled toFloat src target := List.mem_of_getLast? drew
  rw [Appended, ending, length_filled rounding, Option.some.injEq]
  constructor
  · intro appended
    obtain ⟨rfl, room, missing⟩ := appended
    exact ⟨rfl, by omega, missing drawn ((mem_filled rounding).mp among)⟩
  · intro apart
    obtain ⟨rfl, room, missing⟩ := apart
    refine ⟨rfl, by omega, fun q shown same => missing ?_⟩
    apply le_antisymm
    · exact le_last ascending ending drawn (mem_of_mem_filled rounding among)
    · calc p.x = q.x := same.symm
        _ ≤ drawn.x := le_last ordered drew q ((mem_filled rounding).mpr shown)

/-- What is drawn of a series that is too long, where the points of its buckets are in order. -/
theorem mem_minMaxBucketDownSample (rounding : Rounding toFloat) (enough : 2 ≤ target) (long : target < src.length)
    (ascending : src.Pairwise fun p q => p.x ≤ q.x)
    (ordered : (filled toFloat src target).Pairwise fun p q => p.x ≤ q.x) :
    p ∈ minMaxBucketDownSample toFloat src target ↔ Kept toFloat src target p := by
  have some : src ≠ [] := List.ne_nil_of_length_pos (by omega)
  have drew := List.getLast?_eq_some_getLast (filled_ne_nil rounding enough some)
  have ending := List.getLast?_eq_some_getLast some
  rw [minMaxBucketDownSample_long rounding enough long, Kept, appended_iff rounding ascending ordered drew ending,
    ← mem_filled rounding, addLast, drew, ending]
  simp only []
  split
  · rename_i missing
    rw [List.mem_append, List.mem_singleton, and_iff_left missing]
  · rename_i present
    rw [or_iff_left fun appended => present appended.2]

/-- The points of the buckets come first. -/
theorem filled_begins (rounding : Rounding toFloat) (enough : 2 ≤ target) (long : target < src.length) :
    filled toFloat src target <+: minMaxBucketDownSample toFloat src target := by
  rw [minMaxBucketDownSample_long rounding enough long, addLast]
  split
  · split
    · exact List.prefix_append _ _
    · exact List.prefix_refl _
  · exact List.prefix_refl _

theorem length_minMaxBucketDownSample (rounding : Rounding toFloat) (enough : 2 ≤ target) (long : target < src.length) :
    (minMaxBucketDownSample toFloat src target).length ≤ target := by
  have short := length_filled rounding src target
  rw [minMaxBucketDownSample_long rounding enough long, addLast]
  split
  · split
    · rename_i room
      rw [List.length_append, List.length_singleton]
      exact room.1
    · omega
  · omega

/-- Points in order stay so with the last of the series behind them. -/
theorem ordered_addLast (rounding : Rounding toFloat) (ascending : src.Pairwise fun p q => p.x ≤ q.x)
    (ordered : (filled toFloat src target).Pairwise fun p q => p.x ≤ q.x) :
    (addLast target (filled toFloat src target) src).Pairwise fun p q => p.x ≤ q.x := by
  rw [addLast]
  split
  · rename_i drawn last drew ending
    split
    · rw [List.pairwise_append]
      refine ⟨ordered, List.pairwise_singleton _ _, fun p earlier q same => ?_⟩
      rw [List.mem_singleton.mp same]
      exact le_last ascending ending p (mem_of_mem_filled rounding earlier)
    · exact ordered
  · exact ordered

theorem mem_of_mem_addLast (rounding : Rounding toFloat) (member : p ∈ addLast target (filled toFloat src target) src) :
    p ∈ src := by
  rw [addLast] at member
  split at member
  · rename_i drawn last drew ending
    split at member
    · cases List.mem_append.mp member with
      | inl earlier => exact mem_of_mem_filled rounding earlier
      | inr same => exact List.mem_singleton.mp same ▸ List.mem_of_getLast? ending
    · exact mem_of_mem_filled rounding member
  · exact mem_of_mem_filled rounding member

/-- A series that is drawn as it is keeps its shape. -/
theorem shape_self {target : Int} (ascending : src.Pairwise fun p q => p.x ≤ q.x)
    (short : (src.length : Int) ≤ target) : Shape src target src := by
  constructor
  · exact short
  · intro p member
    exact member
  · exact ascending
  · intro some
    cases least : src.argmin QPointF.y with
    | none => exact absurd (List.argmin_eq_none.mp least) some
    | some p => exact ⟨p, List.argmin_mem least, fun q member => List.le_of_mem_argmin member least⟩
  · intro some
    cases greatest : src.argmax QPointF.y with
    | none => exact absurd (List.argmax_eq_none.mp greatest) some
    | some p => exact ⟨p, List.argmax_mem greatest, fun q member => List.le_of_mem_argmax member greatest⟩
  · intro p ending
    exact List.mem_of_getLast? ending
  · intro _
    rfl

theorem bucketsTell_of_shape (rounding : Rounding toFloat) (enough : 2 ≤ target) (long : target < src.length)
    (ascending : src.Pairwise fun p q => p.x ≤ q.x)
    (shape : Shape src target (minMaxBucketDownSample toFloat src target)) : BucketsTell toFloat src target := by
  have some : src ≠ [] := List.ne_nil_of_length_pos (by omega)
  have ordered := shape.ordered.sublist (filled_begins rounding enough long).sublist
  have drawn : ∀ p, p ∈ minMaxBucketDownSample toFloat src target ↔ Kept toFloat src target p :=
    fun p => mem_minMaxBucketDownSample rounding enough long ascending ordered
  constructor
  · exact (ordered_filled rounding ascending).mp ordered
  · obtain ⟨p, member, least⟩ := shape.trough some
    exact ⟨p, (drawn p).mp member, least⟩
  · obtain ⟨p, member, greatest⟩ := shape.peak some
    exact ⟨p, (drawn p).mp member, greatest⟩
  · intro p ending
    exact (drawn p).mp (shape.ending p ending)

theorem shape_of_bucketsTell (rounding : Rounding toFloat) (enough : 2 ≤ target) (long : target < src.length)
    (ascending : src.Pairwise fun p q => p.x ≤ q.x) (tell : BucketsTell toFloat src target) :
    Shape src target (minMaxBucketDownSample toFloat src target) := by
  have ordered := (ordered_filled rounding ascending).mpr tell.forward
  have drawn : ∀ p, p ∈ minMaxBucketDownSample toFloat src target ↔ Kept toFloat src target p :=
    fun p => mem_minMaxBucketDownSample rounding enough long ascending ordered
  have whole := minMaxBucketDownSample_long rounding enough long
  constructor
  · exact Int.ofNat_le.mpr (length_minMaxBucketDownSample rounding enough long)
  · intro p member
    rw [whole] at member
    exact mem_of_mem_addLast rounding member
  · rw [whole]
    exact ordered_addLast rounding ascending ordered
  · intro _
    obtain ⟨p, kept, least⟩ := tell.trough
    exact ⟨p, (drawn p).mpr kept, least⟩
  · intro _
    obtain ⟨p, kept, greatest⟩ := tell.peak
    exact ⟨p, (drawn p).mpr kept, greatest⟩
  · intro p ending
    exact (drawn p).mpr (tell.ending p ending)
  · intro within
    exact absurd (Int.ofNat_le.mp within) (not_le.mpr long)

/-- The drawn series keeps the shape of the whole one if that is short enough, or its buckets
tell it: each that is reached its low before its high, and all together a lowest and a
highest point and the last one. -/
theorem shape_iff_bucketsTell (rounding : Rounding toFloat) {target : Int} (enough : 2 ≤ target)
    (ascending : src.Pairwise fun p q => p.x ≤ q.x) :
    Shape src target (minMaxBucketDownSample toFloat src target) ↔
      (src.length : Int) ≤ target ∨ target.toNat < src.length ∧ BucketsTell toFloat src target.toNat := by
  by_cases short : (src.length : Int) ≤ target
  · rw [minMaxBucketDownSample_short toFloat short]
    exact ⟨fun _ => Or.inl short, fun _ => shape_self ascending short⟩
  · rw [or_iff_right short, and_iff_right (show target.toNat < src.length by omega)]
    lift target to ℕ using by omega
    rw [Int.toNat_natCast]
    have enough : 2 ≤ target := by omega
    have long : target < src.length := by omega
    exact ⟨bucketsTell_of_shape rounding enough long ascending, shape_of_bucketsTell rounding enough long ascending⟩

end Law

end RenderDownsampler
end EnerSentry.Ui
