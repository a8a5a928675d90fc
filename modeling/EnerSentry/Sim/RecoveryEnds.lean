import Mathlib.Data.Rat.Floor
import EnerSentry.Lib.FloatingValues
import EnerSentry.Sim.RecoveryRamp

/-!
How a recovery ends: after a number of ticks that the distance and the ramp rate bound. A
rate of zero, which stands for an instantaneous recovery, takes no way at all instead, and
no way is enough where the value or the target is infinite: a scenario file may ask for a
value beyond the largest single-precision one. Values are compared and added up as the
floating-point unit does it with its special ones, and exactly where they are finite.
-/

namespace EnerSentry.Sim
open EnerSentry.Lib

namespace FaultSession

section Ending
variable {K : Type*} [Zero K]

/-- The session is over, and no register shows its value any more. -/
def Over (s : FaultSession K) : Prop := s.state = .idle ∧ ∀ slave reg, s.covers slave reg = false

theorem over_of_idle {s : FaultSession K} (idle : s.state = .idle) : s.Over := by
  apply And.intro idle
  intro slave reg
  rw [covers, live, idle]
  rfl

theorem over_iff {s : FaultSession K} : s.Over ↔ s.state = .idle := ⟨And.left, over_of_idle⟩

theorem not_over {s : FaultSession K} (recovering : s.state = .recovering) : ¬s.Over := by
  intro ended
  rw [ended.1] at recovering
  exact FaultState.noConfusion recovering

variable [Add K] [Sub K] [Neg K] [Mul K] [Div K] [IntCast K] [LT K] [DecidableLT K]

/-- However they are spaced, this many ticks from the start of the recovery on end it. -/
def EndsWithin (s : FaultSession K) (n : ℕ) : Prop :=
  ∀ times : List Int, times.Pairwise (· < ·) → (∀ t ∈ times, s.recoverSinceMs ≤ t) → n ≤ times.length →
    (s.ticked times).Over

theorem not_endsWithin {s : FaultSession K} (stays : ∀ times, (s.ticked times).state = .recovering) (n : ℕ) :
    ¬s.EndsWithin n := by
  intro ends
  -- A tick every millisecond, n of them.
  have ended : (s.ticked ((List.range n).map fun k : ℕ => s.recoverSinceMs + k)).Over := by
    apply ends
    · apply List.Pairwise.map _ _ List.pairwise_lt_range
      intro a b less
      omega
    · intro t member
      obtain ⟨k, -, rfl⟩ := List.mem_map.mp member
      omega
    · rw [List.length_map, List.length_range]
  exact not_over (stays _) ended

theorem ticked_idle {s : FaultSession K} (idle : s.state = .idle) (times : List Int) : s.ticked times = s := by
  induction times with
  | nil => rfl
  | cons t times ih =>
    calc s.ticked (t :: times) = (s.tick t t).ticked times := rfl
      _ = s := by rw [tick_idle idle, ih]

end Ending

variable {K : Type*} [Field K] [LinearOrder K]

/-- Ticks that are enough: a tick moves by a millisecond's way at least, but one at the very
start by none. -/
def ticksFor [FloorSemiring K] (distance rampRate : K) : ℕ := ⌈distance / (rampRate / (1000 : ℕ))⌉₊ + 2

/-- Only the first of the ticks can come at the very start of the recovery. -/
theorem length_le_later {since : Int} {times : List Int} (increasing : times.Pairwise (· < ·))
    (started : ∀ t ∈ times, since ≤ t) : times.length ≤ (times.filter (since < ·)).length + 1 := by
  cases times with
  | nil => exact Nat.zero_le _
  | cons first rest =>
    have behind : rest.filter (since < ·) = rest := by
      apply List.filter_eq_self.mpr
      intro t member
      have start := started first List.mem_cons_self
      have after := List.rel_of_pairwise_cons increasing member
      exact decide_eq_true (lt_of_le_of_lt start after)
    have kept : (rest.filter (since < ·)).length ≤ ((first :: rest).filter (since < ·)).length :=
      List.Sublist.length_le (List.Sublist.filter _ (List.sublist_cons_self first rest))
    rw [behind] at kept
    rw [List.length_cons]
    exact Nat.succ_le_succ kept

section Ends
variable [IsStrictOrderedRing K] {s : FaultSession K} {times : List Int}

/-- A tick later than the start moves by the way of a millisecond at least. -/
theorem millisecond_le_travel (ramp : 0 ≤ s.spec.rampRate) {t : Int} (later : s.recoverSinceMs < t) :
    s.spec.rampRate / 1000 ≤ s.travel t := by
  have elapsed : (1 : K) ≤ ((t - s.recoverSinceMs : Int) : K) := by
    rw [← Int.cast_one]
    exact Int.cast_le.mpr (by omega)
  calc s.spec.rampRate / 1000 = s.spec.rampRate * (1 / 1000) := div_eq_mul_one_div _ _
    _ ≤ s.spec.rampRate * (((t - s.recoverSinceMs : Int) : K) / 1000) := by
        apply mul_le_mul_of_nonneg_left _ ramp
        exact div_le_div_of_nonneg_right elapsed (by norm_num)

/-- So many ticks move by as many milliseconds' ways at least. -/
theorem milliseconds_le_travels (ramp : 0 ≤ s.spec.rampRate) (later : ∀ t ∈ times, s.recoverSinceMs < t) :
    times.length * (s.spec.rampRate / 1000) ≤ (times.map s.travel).sum := by
  have least : ∀ way ∈ times.map s.travel, s.spec.rampRate / 1000 ≤ way := by
    intro way member
    obtain ⟨t, among, rfl⟩ := List.mem_map.mp member
    exact millisecond_le_travel ramp (later t among)
  have total := List.card_nsmul_le_sum _ _ least
  rwa [List.length_map, nsmul_eq_mul] at total

/-- The ramp has caught up when the ticks' least way exceeds the distance. -/
theorem ticked_over (recovering : s.state = .recovering) (ramp : 0 ≤ s.spec.rampRate)
    (later : ∀ t ∈ times, s.recoverSinceMs < t) (some : times ≠ [])
    (enough : s.gap < recoverEpsilon + times.length * (s.spec.rampRate / 1000)) : (s.ticked times).Over := by
  have ways := milliseconds_le_travels ramp later
  have near : s.gap < recoverEpsilon + (times.map s.travel).sum := by linarith
  rw [ticked_later recovering ramp later some, settled_near near]
  exact over_of_idle rfl

/-- At a rate of zero, out of reach of the target, a tick changes nothing. -/
theorem ticked_standing (recovering : s.state = .recovering) (standing : s.spec.rampRate = 0)
    (far : ¬s.gap < recoverEpsilon) (times : List Int) : s.ticked times = s := by
  rw [ticked_filter recovering]
  by_cases none : times.filter (s.recoverSinceMs < ·) = []
  · rw [none]
    rfl
  have later : ∀ t ∈ times.filter (s.recoverSinceMs < ·), s.recoverSinceMs < t := by
    intro t member
    exact of_decide_eq_true (List.mem_filter.mp member).2
  have still : ((times.filter (s.recoverSinceMs < ·)).map s.travel).sum = 0 := by
    apply List.sum_eq_zero
    intro way member
    obtain ⟨t, -, rfl⟩ := List.mem_map.mp member
    rw [travel, standing, zero_mul]
  rw [ticked_later recovering standing.ge later none, still, settled_far (by rwa [add_zero]),
    Lib.Approach.approach_zero]
  rfl

theorem endsWithin_ticksFor [FloorSemiring K] (recovering : s.state = .recovering) (ramp : 0 ≤ s.spec.rampRate)
    (ending : 0 < s.spec.rampRate ∨ s.gap < recoverEpsilon) : s.EndsWithin (ticksFor s.gap s.spec.rampRate) := by
  intro times increasing started many
  have counted := length_le_later increasing started
  have later : ∀ t ∈ times.filter (s.recoverSinceMs < ·), s.recoverSinceMs < t := by
    intro t member
    exact of_decide_eq_true (List.mem_filter.mp member).2
  rw [ticksFor, Nat.cast_ofNat] at many
  have some : times.filter (s.recoverSinceMs < ·) ≠ [] := by
    apply List.ne_nil_of_length_pos
    omega
  rw [ticked_filter recovering]
  apply ticked_over recovering ramp later some
  have forward : 0 ≤ s.spec.rampRate / 1000 := div_nonneg ramp (by norm_num)
  cases ending with
  | inl onward =>
    have way : 0 < s.spec.rampRate / 1000 := div_pos onward (by norm_num)
    have reached : s.gap ≤ ⌈s.gap / (s.spec.rampRate / 1000)⌉₊ * (s.spec.rampRate / 1000) :=
      (div_le_iff₀ way).mp (Nat.le_ceil _)
    have lasting : (⌈s.gap / (s.spec.rampRate / 1000)⌉₊ : K) ≤ (times.filter (s.recoverSinceMs < ·)).length :=
      Nat.cast_le.mpr (by omega)
    calc s.gap ≤ ⌈s.gap / (s.spec.rampRate / 1000)⌉₊ * (s.spec.rampRate / 1000) := reached
      _ ≤ (times.filter (s.recoverSinceMs < ·)).length * (s.spec.rampRate / 1000) :=
          mul_le_mul_of_nonneg_right lasting forward
      _ < recoverEpsilon + (times.filter (s.recoverSinceMs < ·)).length * (s.spec.rampRate / 1000) :=
          lt_add_of_pos_left _ recoverEpsilon_pos
  | inr near =>
    calc s.gap < recoverEpsilon := near
      _ ≤ recoverEpsilon + (times.filter (s.recoverSinceMs < ·)).length * (s.spec.rampRate / 1000) :=
          le_add_of_nonneg_right (mul_nonneg (Nat.cast_nonneg _) forward)

/-- A finite recovery ends, and within the ticks that its distance and its rate allow, unless
its rate is zero and its value is out of reach of the target; then no number of ticks ends it. -/
theorem finite_ends_iff [FloorSemiring K] (recovering : s.state = .recovering) (ramp : 0 ≤ s.spec.rampRate) :
    (s.EndsWithin (ticksFor s.gap s.spec.rampRate) ↔ 0 < s.spec.rampRate ∨ s.gap < recoverEpsilon) ∧
      ((∃ n, s.EndsWithin n) ↔ 0 < s.spec.rampRate ∨ s.gap < recoverEpsilon) := by
  have needed : (∃ n, s.EndsWithin n) → 0 < s.spec.rampRate ∨ s.gap < recoverEpsilon := by
    intro ⟨n, ends⟩
    by_contra neither
    rw [not_or] at neither
    have standing : s.spec.rampRate = 0 := le_antisymm (not_lt.mp neither.1) ramp
    apply not_endsWithin _ n ends
    intro times
    rw [ticked_standing recovering standing neither.2]
    exact recovering
  have enough := endsWithin_ticksFor (s := s) recovering ramp
  constructor
  · exact ⟨fun ends => needed ⟨_, ends⟩, enough⟩
  · exact ⟨needed, fun ending => ⟨_, enough ending⟩⟩

end Ends

/-- The session with floating-point values has the finite values of the other one. -/
structure Shows (s : FaultSession (Floating K)) (plain : FaultSession K) : Prop where
  state : s.state = plain.state
  since : s.recoverSinceMs = plain.recoverSinceMs
  rate : s.spec.rampRate = .num plain.spec.rampRate
  value : s.currentValue = .num plain.currentValue
  target : s.recoverTarget = .num plain.recoverTarget

/-- A session of finite values by itself, with the fields that a recovery reads. -/
def plain (s : FaultSession (Floating K)) (rate value target : K) : FaultSession K :=
  { spec := { rampRate := rate }, state := s.state, recoverSinceMs := s.recoverSinceMs, currentValue := value,
    recoverTarget := target }

/-- How far the value is from the target. -/
def distance (s : FaultSession (Floating K)) : Floating K := (s.currentValue - s.recoverTarget).magnitude

/-- Ticks that are enough for a distance; at an infinite rate the second is one behind the start. -/
def ticksWithin [FloorSemiring K] : Floating K → Floating K → ℕ
  | .num distance, .num rampRate => ticksFor distance rampRate
  | _, _ => 2

/-- The target is finite, and so is the value, with a rate that takes it there unless it is
there already; or the rate is infinite, and the value is a number or infinite. -/
def Reaches (s : FaultSession (Floating K)) : Prop :=
  s.recoverTarget.Finite ∧
    (s.currentValue.Finite ∧ (0 < s.spec.rampRate ∨ s.distance < recoverEpsilon) ∨
      s.spec.rampRate = .infinity ∧ s.currentValue ≠ .nan)

/-- A session with a special value or target that it cannot leave. -/
def Lost (s : FaultSession (Floating K)) : Prop :=
  ¬s.recoverTarget.Finite ∨ ¬s.currentValue.Finite ∧ (s.spec.rampRate.Finite ∨ s.currentValue = .nan)

theorem not_reaches {s : FaultSession (Floating K)} (lost : s.Lost) : ¬s.Reaches := by
  rintro ⟨aimed, ⟨finite, -⟩ | ⟨boundless, number⟩⟩
  · rcases lost with special | ⟨special, -⟩
    · exact special aimed
    · exact special finite
  · rcases lost with special | ⟨-, slow | none⟩
    · exact special aimed
    · rw [boundless] at slow
      exact slow
    · exact number none

theorem arrived_magnitude (value target : Floating K) :
    arrived value target = true ↔ (value - target).magnitude < recoverEpsilon := decide_eq_true_iff

section Special
variable [IsStrictOrderedRing K] {s : FaultSession (Floating K)} {p : FaultSession K} {dt : Int}

theorem thousand_ne_zero : ((1000 : Int) : K) ≠ 0 := by
  rw [Int.cast_ofNat]
  norm_num

theorem seconds_num (dt : Int) : (dt : Floating K) / (1000 : Int) = .num ((dt : K) / (1000 : Int)) :=
  Floating.num_div thousand_ne_zero

theorem recoverEpsilon_num : (recoverEpsilon : Floating K) = .num recoverEpsilon := seconds_num 1

theorem arrived_num (value target : K) : arrived (Floating.num value) (.num target) = arrived value target := by
  have same : arrived (Floating.num value) (.num target) = true ↔ arrived value target = true := by
    rw [arrived_magnitude, Floating.num_sub, Floating.magnitude_num, recoverEpsilon_num, Floating.num_lt, arrived_iff]
  exact Bool.eq_iff_iff.mpr same

theorem not_arrived_special {value target : Floating K} (special : ¬value.Finite ∨ ¬target.Finite) :
    arrived value target = false := by
  rw [← Bool.not_eq_true, arrived_magnitude, recoverEpsilon_num]
  exact Floating.magnitude_not_lt (Floating.not_finite_sub special)

theorem ramped_shows (shows : s.Shows p) (dt : Int) : s.ramped dt = .num (p.ramped dt) := by
  simp only [ramped, shows.rate, shows.value, shows.target, seconds_num, Floating.num_mul, Floating.num_sub,
    Floating.num_add, Floating.num_lt, apply_ite Floating.num]

theorem shows_tick (shows : s.Shows p) (waiting : p.state ≠ .active) (t clock : Int) :
    (s.tick t clock).Shows (p.tick t clock) := by
  simp only [tick, shows.state, shows.since, ramped_shows shows, shows.target, arrived_num]
  cases on : p.state with
  | active => exact absurd on waiting
  | recovering =>
    simp only
    split_ifs
    · exact shows
    · exact ⟨rfl, rfl, shows.rate, rfl, rfl⟩
    · exact ⟨rfl, rfl, shows.rate, rfl, rfl⟩
  | idle => exact shows
  | aborted => exact shows

theorem shows_ticked (shows : s.Shows p) (recovering : p.state = .recovering) (times : List Int) :
    (s.ticked times).Shows (p.ticked times) := by
  induction times using List.reverseRecOn with
  | nil => exact shows
  | append_singleton times t ih =>
    rw [ticked_concat, ticked_concat]
    apply shows_tick ih
    rcases (underway_ticked recovering times).state with on | ended
    · rw [on]
      exact FaultState.noConfusion
    · rw [ended]
      exact FaultState.noConfusion

theorem shows_endsWithin (shows : s.Shows p) (recovering : p.state = .recovering) (n : ℕ) :
    s.EndsWithin n ↔ p.EndsWithin n := by
  apply forall_congr'
  intro times
  rw [shows.since, over_iff, over_iff, (shows_ticked shows recovering times).state]

/-- Only an infinite rate moves an infinite value, and none moves what is no number. -/
theorem ramped_special {target : K} (aimed : s.recoverTarget = .num target) (special : ¬s.currentValue.Finite)
    (slow : s.spec.rampRate.Finite ∨ s.currentValue = .nan) (dt : Int) : s.ramped dt = s.currentValue := by
  cases value : s.currentValue with
  | num x =>
    rw [value] at special
    exact absurd trivial special
  | infinity =>
    have other : s.currentValue ≠ .nan := by simp [value]
    obtain ⟨rate, eq⟩ := Floating.exists_num (slow.resolve_right other)
    simp only [ramped, value, aimed, eq, seconds_num, Floating.num_mul]
    rfl
  | negInfinity =>
    have other : s.currentValue ≠ .nan := by simp [value]
    obtain ⟨rate, eq⟩ := Floating.exists_num (slow.resolve_right other)
    simp only [ramped, value, aimed, eq, seconds_num, Floating.num_mul]
    rfl
  | nan =>
    simp only [ramped, value, aimed]
    rfl

/-- At an infinite rate any time behind the start takes the value to the target. -/
theorem ramped_infinity {target : K} (aimed : s.recoverTarget = .num target)
    (boundless : s.spec.rampRate = .infinity) (number : s.currentValue ≠ .nan) (later : 0 < dt) :
    s.ramped dt = .num target := by
  have way : (Floating.infinity : Floating K) * ((dt : Floating K) / (1000 : Int)) = .infinity := by
    rw [seconds_num]
    apply Floating.infinity_mul
    exact div_pos (Int.cast_pos.mpr later) (by rw [Int.cast_ofNat]; norm_num)
  simp only [ramped, aimed, boundless, way]
  cases value : s.currentValue with
  | num x =>
    rcases lt_trichotomy target x with above | same | below
    · rw [if_pos (Floating.num_lt.mpr above)]
      rfl
    · have level : ¬(Floating.num x < .num x) := lt_irrefl x
      rw [same, if_neg level, if_neg level]
    · rw [if_neg (by rw [Floating.num_lt]; exact not_lt_of_gt below), if_pos (Floating.num_lt.mpr below)]
      rfl
  | infinity => rfl
  | negInfinity => rfl
  | nan => exact absurd value number

/-- A lost session recovers for ever, and its value is where it was if the target is a number. -/
theorem stays_recovering (recovering : s.state = .recovering) (lost : s.Lost) (times : List Int) :
    (s.ticked times).state = .recovering ∧
      (s.recoverTarget.Finite → (s.ticked times).currentValue = s.currentValue) := by
  induction times using List.reverseRecOn with
  | nil => exact ⟨recovering, fun _ => rfl⟩
  | append_singleton times t ih =>
    obtain ⟨on, kept⟩ := ih
    have underway := underway_ticked recovering times
    rw [ticked_concat]
    by_cases early : t ≤ (s.ticked times).recoverSinceMs
    · rw [tick_early on early]
      exact ⟨on, kept⟩
    have still : s.recoverTarget.Finite →
        (s.ticked times).ramped (t - (s.ticked times).recoverSinceMs) = s.currentValue := by
      intro finite
      obtain ⟨target, aimed⟩ := Floating.exists_num finite
      obtain ⟨far, slow⟩ := lost.resolve_left fun other => other finite
      rw [ramped_special (underway.target.trans aimed) (by rwa [kept finite])
        (by rwa [underway.spec, kept finite])]
      exact kept finite
    have far : arrived ((s.ticked times).ramped (t - (s.ticked times).recoverSinceMs)) (s.ticked times).recoverTarget =
        false := by
      apply not_arrived_special
      rw [underway.target]
      by_cases finite : s.recoverTarget.Finite
      · rw [still finite]
        exact Or.inl (lost.resolve_left fun other => other finite).1
      · exact Or.inr finite
    rw [tick, on]
    simp only [if_neg (show ¬t - (s.ticked times).recoverSinceMs ≤ 0 by omega), far, if_neg Bool.false_ne_true]
    exact ⟨trivial, still⟩

theorem ends_at_infinite_rate {target : K} (recovering : s.state = .recovering)
    (aimed : s.recoverTarget = .num target) (boundless : s.spec.rampRate = .infinity)
    (number : s.currentValue ≠ .nan) : s.EndsWithin 2 := by
  intro times increasing started many
  have counted := length_le_later increasing started
  rw [ticked_filter recovering]
  cases left : times.filter (s.recoverSinceMs < ·) with
  | nil =>
    rw [left, List.length_nil] at counted
    omega
  | cons first rest =>
    have later : s.recoverSinceMs < first := by
      have member : first ∈ times.filter (s.recoverSinceMs < ·) := left ▸ List.mem_cons_self
      exact of_decide_eq_true (List.mem_filter.mp member).2
    have arrives : arrived (s.ramped (first - s.recoverSinceMs)) s.recoverTarget = true := by
      rw [ramped_infinity aimed boundless number (by omega), aimed, arrived_num, arrived_iff, sub_self,
        abs_zero]
      exact recoverEpsilon_pos
    have ended : (s.tick first first).state = .idle := by
      rw [tick, recovering]
      simp only [if_neg (show ¬first - s.recoverSinceMs ≤ 0 by omega), if_pos arrives]
      rfl
    have run : s.ticked (first :: rest) = s.tick first first := ticked_idle ended rest
    rw [run]
    exact over_of_idle ended

/-- A session of finite values ends as it would in exact arithmetic. -/
theorem finite_reaches_iff [FloorSemiring K] {rate value target : K} (recovering : s.state = .recovering)
    (ramp : s.spec.rampRate = 0 ∨ 0 < s.spec.rampRate) (rateIs : s.spec.rampRate = .num rate)
    (valueIs : s.currentValue = .num value) (targetIs : s.recoverTarget = .num target) :
    (s.EndsWithin (ticksWithin s.distance s.spec.rampRate) ↔ s.Reaches) ∧ ((∃ n, s.EndsWithin n) ↔ s.Reaches) := by
  have shows : s.Shows (s.plain rate value target) := ⟨rfl, rfl, rateIs, valueIs, targetIs⟩
  have apart : s.distance = .num (s.plain rate value target).gap := by
    rw [distance, valueIs, targetIs, Floating.num_sub, Floating.magnitude_num]
    rfl
  have forward : 0 ≤ rate := by
    rcases ramp with standing | onward
    · rw [rateIs] at standing
      exact (Floating.num.inj standing).ge
    · rw [rateIs] at onward
      exact (Floating.num_lt.mp onward).le
  have reaches : s.Reaches ↔ 0 < rate ∨ (s.plain rate value target).gap < recoverEpsilon := by
    rw [Reaches, rateIs, valueIs, targetIs, apart, recoverEpsilon_num, Floating.num_lt]
    constructor
    · rintro ⟨-, ⟨-, ending⟩ | ⟨boundless, -⟩⟩
      · exact ending
      · simp at boundless
    · intro ending
      exact ⟨trivial, Or.inl ⟨trivial, ending⟩⟩
  have ends := finite_ends_iff (s := s.plain rate value target) recovering forward
  rw [reaches, apart, rateIs, ticksWithin]
  simp only [shows_endsWithin shows recovering]
  exact ends

/-- A recovery ends, and within the ticks that its distance and its rate allow, where it
reaches its target; elsewhere no number of ticks ends it. -/
theorem recovery_ends_iff [FloorSemiring K] (recovering : s.state = .recovering)
    (ramp : s.spec.rampRate = 0 ∨ 0 < s.spec.rampRate) :
    (s.EndsWithin (ticksWithin s.distance s.spec.rampRate) ↔ s.Reaches) ∧ ((∃ n, s.EndsWithin n) ↔ s.Reaches) := by
  by_cases lost : s.Lost
  · have never : ∀ n, ¬s.EndsWithin n := not_endsWithin fun times => (stays_recovering recovering lost times).1
    have misses : ¬s.Reaches := not_reaches lost
    constructor
    · exact iff_of_false (never _) misses
    · exact iff_of_false (fun ⟨n, ends⟩ => never n ends) misses
  rw [Lost, not_or, not_not, not_and_or, not_not, not_or] at lost
  obtain ⟨aimed, movable⟩ := lost
  obtain ⟨target, targetIs⟩ := Floating.exists_num aimed
  rcases Floating.finite_or_infinity ramp with ⟨rate, rateIs⟩ | boundless
  · have finite : s.currentValue.Finite := movable.resolve_right fun fast => fast.1 (rateIs ▸ trivial)
    obtain ⟨value, valueIs⟩ := Floating.exists_num finite
    exact finite_reaches_iff recovering ramp rateIs valueIs targetIs
  · have number : s.currentValue ≠ .nan := by
      rcases movable with finite | fast
      · intro none
        rw [none] at finite
        exact finite
      · exact fast.2
    have ends := ends_at_infinite_rate recovering targetIs boundless number
    have reaches : s.Reaches := ⟨aimed, Or.inr ⟨boundless, number⟩⟩
    have two : ticksWithin s.distance s.spec.rampRate = 2 := by
      rw [boundless]
      cases s.distance <;> rfl
    rw [two]
    constructor
    · exact iff_of_true ends reaches
    · exact iff_of_true ⟨2, ends⟩ reaches

end Special

/-- A fault at 10 that recovers to 0 from the time 0 on, by 1 a second. -/
def coolingDown : FaultSession (Floating ℚ) :=
  ((FaultSession.start 1 { targetValue := .num 10, rampRate := .num 1 } 0).toActive 0).toRecovering 0

theorem cooling_ends : coolingDown.EndsWithin (ticksWithin coolingDown.distance coolingDown.spec.rampRate) :=
  (recovery_ends_iff rfl (Or.inr (by decide +kernel))).1.mpr
    ⟨trivial, Or.inl ⟨trivial, Or.inl (by decide +kernel)⟩⟩

/-- The same fault with a value that a scenario file gives as 1e39: no number of ticks ends it. -/
example (n : ℕ) : ¬{ coolingDown with currentValue := .infinity }.EndsWithin n := by
  have lost : Lost { coolingDown with currentValue := .infinity } := Or.inr ⟨id, Or.inl trivial⟩
  exact not_endsWithin (fun times => (stays_recovering rfl lost times).1) n

/-- A fault at 10 that is to recover to 0 at once. -/
def instantaneous : FaultSession (Floating ℚ) :=
  ((FaultSession.start 1 { targetValue := .num 10, rampRate := .num 0 } 0).toActive 0).toRecovering 0

/-- It stays at 10 and covers its register, however often and for however long it is ticked. -/
theorem instantaneous_stays :
    instantaneous.state = .recovering ∧ instantaneous.spec.rampRate = 0 ∧ (∀ n, ¬instantaneous.EndsWithin n) ∧
      ∀ times, (instantaneous.ticked times).covers 0 0 = true ∧
        (instantaneous.ticked times).currentValue = .num 10 := by
  have shows : instantaneous.Shows (instantaneous.plain 0 10 0) := ⟨rfl, rfl, rfl, rfl, rfl⟩
  have far : ¬(instantaneous.plain 0 10 0).gap < recoverEpsilon := by decide +kernel
  have stands : ∀ times, (instantaneous.ticked times).Shows (instantaneous.plain 0 10 0) := by
    intro times
    have run := shows_ticked shows rfl times
    rwa [ticked_standing rfl rfl far] at run
  refine ⟨rfl, rfl, not_endsWithin fun times => (stands times).state, fun times => ?_⟩
  constructor
  · rw [covers, live, (stands times).state, (underway_ticked rfl times).spec]
    rfl
  · exact (stands times).value

end FaultSession
end EnerSentry.Sim
