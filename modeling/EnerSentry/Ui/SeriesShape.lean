import EnerSentry.Ui.RenderDownsampler

/-!
Which series keep their shape when they are down-sampled for drawing, by the places of their
extremes. The series falls into stretches of as many points as half the target goes into its
length, and two points of the target are meant for each. What is over when the length is
divided lies behind them, so that it is drawn only as far as level stretches have saved.
-/

namespace EnerSentry.Ui
open EnerSentry.Lib.Sampling

variable {K : Type*}

namespace RenderDownsampler

def width (length target : ℕ) : ℕ := length / (target / 2)

def stretch (src : List (QPointF K)) (target k : ℕ) : List (QPointF K) :=
  (src.drop (k * width src.length target)).take (width src.length target)

/-- The places before the remainder, and a stretch more for every two points that are saved. -/
def reach (length target saved : ℕ) : ℕ := length - length % (target / 2) + width length target * (saved / 2)

section Reach
variable {src : List (QPointF K)} {target i n : ℕ} {p : QPointF K}

theorem width_pos (enough : 2 ≤ target) (long : target < n) : 0 < width n target :=
  Nat.div_pos (by omega) (by omega)

theorem bucketSize_eq (enough : 2 ≤ target) (long : target < n) : bucketSize n target = width n target := by
  have half : max 1 (target / 2) = target / 2 := Nat.max_eq_right (by omega)
  rw [bucketSize, half]
  exact Nat.max_eq_right (width_pos enough long)

theorem lt_reach_iff (enough : 2 ≤ target) (long : target < n) (saved : ℕ) :
    i < reach n target saved ↔ i / width n target < target / 2 + saved / 2 := by
  have whole : n - n % (target / 2) = width n target * (target / 2) := by
    have split := Nat.div_add_mod n (target / 2)
    rw [width, Nat.mul_comm]
    omega
  rw [reach, whole, ← Nat.mul_add, Nat.mul_comm, Nat.div_lt_iff_lt_mul (width_pos enough long)]

theorem buckets_eq (enough : 2 ≤ target) (long : target < src.length) :
    buckets src target = (List.range ((src.length + width src.length target - 1) / width src.length target)).map
      (stretch src target) := by
  rw [buckets, bucketSize_eq enough long]
  rfl

/-- A place of the series is in one of the stretches. -/
theorem stretch_lt (enough : 2 ≤ target) (long : target < src.length) (here : src[i]? = some p) :
    i / width src.length target < (src.length + width src.length target - 1) / width src.length target := by
  have inside := (List.getElem?_eq_some_iff.mp here).1
  have positive := width_pos enough long
  have next : i / width src.length target + 1 = (i + width src.length target) / width src.length target :=
    (Nat.add_div_right i positive).symm
  have ahead : (i + width src.length target) / width src.length target ≤
      (src.length + width src.length target - 1) / width src.length target := Nat.div_le_div_right (by omega)
  omega

end Reach

variable [LinearOrder K]

section Places
variable (toFloat : K → K)

/-- How many of the first stretches are level. -/
def levels (src : List (QPointF K)) (target count : ℕ) : ℕ :=
  (List.range count).countP fun k => Level toFloat (stretch src target k)

/-- The points saved before the stretch of a place: the odd one, and one for each level stretch. -/
def saved (src : List (QPointF K)) (target i : ℕ) : ℕ :=
  target % 2 + levels toFloat src target (i / width src.length target)

/-- Below all points before it in its stretch as floats, and none behind it there is below it. -/
def Low (src : List (QPointF K)) (target i : ℕ) (p : QPointF K) : Prop :=
  StretchRecord (Below toFloat) (width src.length target) src i p

def High (src : List (QPointF K)) (target i : ℕ) (p : QPointF K) : Prop :=
  StretchRecord (Above toFloat) (width src.length target) src i p

/-- The low of a stretch within reach with a point to spare, or the high of one within reach. -/
def InSight (src : List (QPointF K)) (target i : ℕ) (p : QPointF K) : Prop :=
  i < reach src.length target (saved toFloat src target i + 1) ∧ Low toFloat src target i p ∨
    i < reach src.length target (saved toFloat src target i) ∧ High toFloat src target i p

/-- The last point, if a stretch more would be within reach and no point in sight has its key. -/
def Added (src : List (QPointF K)) (target : ℕ) (last : QPointF K) : Prop :=
  src.getLast? = some last ∧
    src.length + width src.length target ≤
      reach src.length target (saved toFloat src target (src.length + width src.length target - 1) + 1) ∧
    ∀ i p, InSight toFloat src target i p → p.x ≠ last.x

/-- In each stretch within reach the low comes before the high; a lowest point of the series, a
highest and the last one are in sight or added. -/
structure Telling (src : List (QPointF K)) (target : ℕ) : Prop where
  forward : ∀ i low j high, Low toFloat src target i low → High toFloat src target j high →
    i / width src.length target = j / width src.length target →
      j < reach src.length target (saved toFloat src target j) → low.x ≤ high.x
  trough : ∃ p, (∀ q ∈ src, p.y ≤ q.y) ∧ ((∃ i, InSight toFloat src target i p) ∨ Added toFloat src target p)
  peak : ∃ p, (∀ q ∈ src, q.y ≤ p.y) ∧ ((∃ i, InSight toFloat src target i p) ∨ Added toFloat src target p)
  ending : ∀ p ∈ src.getLast?, (∃ i, InSight toFloat src target i p) ∨ Added toFloat src target p

end Places

section Sight
variable {toFloat : K → K} {src : List (QPointF K)} {target i k : ℕ} {p : QPointF K}

/-- What the first stretches take of the target, two points each but one where they are level. -/
theorem spent (toFloat : K → K) (src : List (QPointF K)) (target k : ℕ) :
    ((List.range k).map fun j => places toFloat (stretch src target j)).sum + levels toFloat src target k = 2 * k := by
  induction k with
  | zero => rfl
  | succ k ih =>
    have one : places toFloat (stretch src target k) +
        [k].countP (fun j => Level toFloat (stretch src target j)) = 2 := by
      by_cases level : Level toFloat (stretch src target k)
      · simp [places, level]
      · simp [places, level]
    rw [levels] at ih
    rw [levels, List.range_succ, List.map_append, List.sum_append, List.countP_append, List.map_singleton,
      List.sum_singleton]
    omega

theorem mem_reached_iff (enough : 2 ≤ target) (long : target < src.length) {c : ℕ × List (QPointF K)} :
    c ∈ reached toFloat src target ↔
      ∃ k < (src.length + width src.length target - 1) / width src.length target,
        c = (((List.range k).map fun j => places toFloat (stretch src target j)).sum, stretch src target k) := by
  rw [reached, buckets_eq enough long]
  exact mem_charges_range

/-- The target has room for the high of a stretch if the stretch is within reach. -/
theorem room_high (enough : 2 ≤ target) (long : target < src.length) :
    ((List.range (i / width src.length target)).map fun j => places toFloat (stretch src target j)).sum + 1 < target ↔
      i < reach src.length target (saved toFloat src target i) := by
  have taken := spent toFloat src target (i / width src.length target)
  rw [lt_reach_iff enough long, saved]
  omega

/-- For the low a point to spare will do. -/
theorem room_low (enough : 2 ≤ target) (long : target < src.length) :
    ((List.range (i / width src.length target)).map fun j => places toFloat (stretch src target j)).sum < target ↔
      i < reach src.length target (saved toFloat src target i + 1) := by
  have taken := spent toFloat src target (i / width src.length target)
  rw [lt_reach_iff enough long, saved]
  omega

/-- The points that the buckets show are those in sight. -/
theorem shown_iff (enough : 2 ≤ target) (long : target < src.length) :
    Shown toFloat src target p ↔ ∃ i, InSight toFloat src target i p := by
  have positive := width_pos enough long
  constructor
  · intro ⟨c, charged, shown⟩
    obtain ⟨k, -, rfl⟩ := (mem_reached_iff enough long).mp charged
    rcases shown with ⟨room, record⟩ | ⟨room, record⟩
    · obtain ⟨i, rfl, low⟩ := (exists_record_iff positive).mp record
      exact ⟨i, Or.inl ⟨(room_low enough long).mp room, low⟩⟩
    · obtain ⟨i, rfl, high⟩ := (exists_record_iff positive).mp record
      exact ⟨i, Or.inr ⟨(room_high enough long).mp room, high⟩⟩
  · intro ⟨i, sight⟩
    rcases sight with ⟨room, low⟩ | ⟨room, high⟩
    · refine ⟨_, (mem_reached_iff enough long).mpr ⟨_, stretch_lt enough long low.here, rfl⟩, Or.inl ⟨?_, ?_⟩⟩
      · exact (room_low enough long).mpr room
      · exact (exists_record_iff positive).mpr ⟨i, rfl, low⟩
    · refine ⟨_, (mem_reached_iff enough long).mpr ⟨_, stretch_lt enough long high.here, rfl⟩, Or.inr ⟨?_, ?_⟩⟩
      · exact (room_high enough long).mpr room
      · exact (exists_record_iff positive).mpr ⟨i, rfl, high⟩

theorem appended_iff_added (enough : 2 ≤ target) (long : target < src.length) :
    Appended toFloat src target p ↔ Added toFloat src target p := by
  have positive := width_pos enough long
  have room : ((buckets src target).map (places toFloat)).sum < target ↔
      src.length + width src.length target ≤
        reach src.length target (saved toFloat src target (src.length + width src.length target - 1) + 1) := by
    rw [buckets_eq enough long, List.map_map]
    refine (room_low enough long).trans ?_
    omega
  rw [Appended, Added, room]
  apply and_congr_right
  intro _
  apply and_congr_right
  intro _
  constructor
  · intro missing i q sight
    exact missing q ((shown_iff enough long).mpr ⟨i, sight⟩)
  · intro missing q shown
    obtain ⟨i, sight⟩ := (shown_iff enough long).mp shown
    exact missing i q sight

theorem kept_iff_inSight (enough : 2 ≤ target) (long : target < src.length) :
    Kept toFloat src target p ↔ (∃ i, InSight toFloat src target i p) ∨ Added toFloat src target p := by
  rw [Kept, shown_iff enough long, appended_iff_added enough long]

theorem bucketsTell_iff (enough : 2 ≤ target) (long : target < src.length) :
    BucketsTell toFloat src target ↔ Telling toFloat src target := by
  have positive := width_pos enough long
  constructor
  · intro tell
    constructor
    · intro i low j high lowest highest same room
      have charged : _ ∈ reached toFloat src target :=
        (mem_reached_iff enough long).mpr ⟨_, stretch_lt enough long highest.here, rfl⟩
      obtain ⟨a, first⟩ := (exists_record_iff positive).mpr ⟨i, same, lowest⟩
      obtain ⟨b, second⟩ := (exists_record_iff positive).mpr ⟨j, rfl, highest⟩
      exact tell.forward _ charged ((room_high enough long).mpr room) a low b high first second
    · obtain ⟨p, kept, least⟩ := tell.trough
      exact ⟨p, least, (kept_iff_inSight enough long).mp kept⟩
    · obtain ⟨p, kept, greatest⟩ := tell.peak
      exact ⟨p, greatest, (kept_iff_inSight enough long).mp kept⟩
    · intro p last
      exact (kept_iff_inSight enough long).mp (tell.ending p last)
  · intro telling
    constructor
    · intro c charged room a low b high first second
      obtain ⟨k, -, rfl⟩ := (mem_reached_iff enough long).mp charged
      obtain ⟨i, place, lowest⟩ := (exists_record_iff positive).mp ⟨a, first⟩
      obtain ⟨j, rfl, highest⟩ := (exists_record_iff positive).mp ⟨b, second⟩
      exact telling.forward i low j high lowest highest place ((room_high enough long).mp room)
    · obtain ⟨p, least, sight⟩ := telling.trough
      exact ⟨p, (kept_iff_inSight enough long).mpr sight, least⟩
    · obtain ⟨p, greatest, sight⟩ := telling.peak
      exact ⟨p, (kept_iff_inSight enough long).mpr sight, greatest⟩
    · intro p last
      exact (kept_iff_inSight enough long).mpr (telling.ending p last)

/-- The drawn series keeps the shape of the whole one if that is short enough, or its extremes
and its end lie where they are in sight, and each low before the high of its stretch. -/
theorem shape_iff_telling (rounding : Rounding toFloat) {target : Int} (enough : 2 ≤ target)
    (ascending : src.Pairwise fun p q => p.x ≤ q.x) :
    Shape src target (minMaxBucketDownSample toFloat src target) ↔
      (src.length : Int) ≤ target ∨ Telling toFloat src target.toNat := by
  rw [shape_iff_bucketsTell rounding enough ascending]
  by_cases short : (src.length : Int) ≤ target
  · rw [or_iff_left_of_imp fun _ => short, or_iff_left_of_imp fun _ => short]
  · rw [or_iff_right short, or_iff_right short, and_iff_right (by omega), bucketsTell_iff (by omega) (by omega)]

/-- Where no stretch before is level, the places before the remainder are within reach. -/
theorem reach_saved (uneven : levels toFloat src target (i / width src.length target) = 0) :
    reach src.length target (saved toFloat src target i) = src.length - src.length % (target / 2) := by
  have none : (target % 2 + 0) / 2 = 0 := by omega
  rw [reach, saved, uneven, none, Nat.mul_zero, Nat.add_zero]

/-- Of floats the low of a bucket is a lowest point. -/
theorem low_le {bucket : List (QPointF K)} {i : ℕ} {low : QPointF K} (floats : ∀ q ∈ bucket, toFloat q.y = q.y)
    (lowest : Record (Below toFloat) bucket i low) : ∀ q ∈ bucket, low.y ≤ q.y := by
  intro q member
  obtain ⟨j, there⟩ := List.mem_iff_getElem?.mp member
  rcases Nat.lt_trichotomy j i with sooner | same | later
  · have under := lowest.before j q sooner there
    rw [Below, floats q member] at under
    exact under.le
  · rw [same, lowest.here] at there
    exact (congrArg QPointF.y (Option.some.inj there)).le
  · have above := lowest.behind j q later there
    rw [Below, floats low lowest.mem] at above
    exact not_lt.mp above

/-- Of floats a lowest point is in sight if one lies within reach. -/
theorem trough_iff (rounding : Rounding toFloat) (enough : 2 ≤ target) (long : target < src.length)
    (floats : ∀ q ∈ src, toFloat q.y = q.y) :
    (∃ i p, (∀ q ∈ src, p.y ≤ q.y) ∧ InSight toFloat src target i p) ↔
      ∃ i p, (∀ q ∈ src, p.y ≤ q.y) ∧ src[i]? = some p ∧
        i < reach src.length target (saved toFloat src target i + 1) := by
  constructor
  · intro ⟨i, p, least, sight⟩
    rcases sight with ⟨room, low⟩ | ⟨room, high⟩
    · exact ⟨i, p, least, low.here, room⟩
    · refine ⟨i, p, least, high.here, ?_⟩
      rw [lt_reach_iff enough long] at room ⊢
      omega
  · intro ⟨i, p, least, here, room⟩
    have positive := width_pos enough long
    have inside := Nat.mod_lt i positive
    have place : i = i / width src.length target * width src.length target + i % width src.length target := by
      rw [Nat.mul_comm]
      exact (Nat.div_add_mod i _).symm
    have there : (stretch src target (i / width src.length target))[i % width src.length target]? = some p := by
      rw [stretch, getElem?_stretch, if_pos inside, ← place]
      exact here
    have member := List.mem_of_getElem? there
    obtain ⟨a, low, -, -, record, -, -⟩ := share_spec rounding (List.ne_nil_of_mem member)
    obtain ⟨j, same, lowest⟩ := (exists_record_iff positive).mp ⟨a, record⟩
    have lower : low.y ≤ p.y :=
      low_le (fun q among => floats q (List.mem_of_mem_drop (List.mem_of_mem_take among))) record p member
    refine ⟨j, low, fun q among => lower.trans (least q among), Or.inl ⟨?_, lowest⟩⟩
    rw [lt_reach_iff enough long, saved] at room ⊢
    rwa [same]

end Sight

/-- A series of floats at the keys 0, 1, 2 and so on. -/
def seriesOf (values : List ℚ) : List (QPointF ℚ) := values.zipIdx.map fun e => ⟨e.2, e.1⟩

theorem rounding_id : Rounding (id : ℚ → ℚ) := ⟨monotone_id, fun _ => rfl⟩

/-- Two buckets, each with its low first, and a place for the last point. -/
theorem shape_of_two_buckets :
    Telling id (seriesOf [0, 5, 3, 2, 9, 4]) 5 ∧
      minMaxBucketDownSample id (seriesOf [0, 5, 3, 2, 9, 4]) 5 = [⟨0, 0⟩, ⟨1, 5⟩, ⟨3, 2⟩, ⟨4, 9⟩, ⟨5, 4⟩] := by
  have drawn : minMaxBucketDownSample id (seriesOf [0, 5, 3, 2, 9, 4]) 5 =
      [⟨0, 0⟩, ⟨1, 5⟩, ⟨3, 2⟩, ⟨4, 9⟩, ⟨5, 4⟩] := by decide +kernel
  have shape : Shape (seriesOf [0, 5, 3, 2, 9, 4]) 5 (minMaxBucketDownSample id (seriesOf [0, 5, 3, 2, 9, 4]) 5) := by
    rw [drawn]
    constructor
    all_goals decide +kernel
  have telling := (shape_iff_telling rounding_id (by decide) (by decide +kernel)).mp shape
  exact ⟨telling.resolve_left (by decide), drawn⟩

/-- Of a falling series each high comes before its low, and the places are spent before the
lowest point, which is the last one. -/
theorem falling_series :
    (seriesOf [4, 3, 2, 1, 0]).Pairwise (fun p q => p.x < q.x) ∧
      minMaxBucketDownSample id (seriesOf [4, 3, 2, 1, 0]) 4 = [⟨1, 3⟩, ⟨0, 4⟩, ⟨3, 1⟩, ⟨2, 2⟩] ∧
      (seriesOf [4, 3, 2, 1, 0]).getLast? = some ⟨4, 0⟩ ∧
      ¬Shape (seriesOf [4, 3, 2, 1, 0]) 4 (minMaxBucketDownSample id (seriesOf [4, 3, 2, 1, 0]) 4) := by
  have drawn : minMaxBucketDownSample id (seriesOf [4, 3, 2, 1, 0]) 4 = [⟨1, 3⟩, ⟨0, 4⟩, ⟨3, 1⟩, ⟨2, 2⟩] := by
    decide +kernel
  refine ⟨by decide +kernel, drawn, by decide +kernel, fun shape => ?_⟩
  have ending := shape.ending ⟨4, 0⟩ (by decide +kernel)
  rw [drawn] at ending
  revert ending
  decide +kernel

end RenderDownsampler
end EnerSentry.Ui
