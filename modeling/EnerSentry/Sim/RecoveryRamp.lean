import Mathlib.Algebra.Order.BigOperators.Group.List
import EnerSentry.Lib.Approach
import EnerSentry.Sim.FaultInjector

/-!
The ramp of a recovering session over a schedule of ticks, in exact arithmetic. A tick moves
the value by the way since the recovery began, not by the way since the tick before.
-/

namespace EnerSentry.Sim
open EnerSentry.Lib.Approach

namespace FaultSession

section Idling
variable {K : Type*} [Zero K] [Add K] [Sub K] [Neg K] [Mul K] [Div K] [IntCast K] [LT K] [DecidableLT K]

/-- A session after ticks at these times; one that recovers makes no reading of its own. -/
def ticked (s : FaultSession K) (times : List Int) : FaultSession K := times.foldl (fun s t => s.tick t t) s

/-- What becomes of a recovering session: it recovers on the same ramp, or is over. -/
structure Underway (s s' : FaultSession K) : Prop where
  since : s'.recoverSinceMs = s.recoverSinceMs
  spec : s'.spec = s.spec
  target : s'.recoverTarget = s.recoverTarget
  state : s'.state = .recovering ∨ s'.state = .idle

variable {s : FaultSession K} {t : Int}

/-- A tick before the recovery began, or when it is over, does nothing. -/
theorem tick_early (recovering : s.state = .recovering) (early : t ≤ s.recoverSinceMs) (clock : Int) :
    s.tick t clock = s := by
  rw [tick, recovering]
  exact if_pos (by omega)

theorem tick_idle (idle : s.state = .idle) (clock : Int) : s.tick t clock = s := by
  rw [tick, idle]

theorem underway_tick {s' : FaultSession K} (underway : s.Underway s') (clock : Int) :
    s.Underway (s'.tick t clock) := by
  rcases underway.state with on | ended
  · simp only [tick, on]
    split_ifs
    · exact underway
    · exact ⟨underway.since, underway.spec, underway.target, Or.inr rfl⟩
    · exact ⟨underway.since, underway.spec, underway.target, Or.inl rfl⟩
  · rw [tick_idle ended]
    exact underway

theorem ticked_concat (s : FaultSession K) (times : List Int) (t : Int) :
    s.ticked (times ++ [t]) = (s.ticked times).tick t t := List.foldl_concat ..

theorem underway_ticked (recovering : s.state = .recovering) (times : List Int) : s.Underway (s.ticked times) := by
  induction times using List.reverseRecOn with
  | nil => exact ⟨rfl, rfl, rfl, Or.inl recovering⟩
  | append_singleton times t ih =>
    rw [ticked_concat]
    exact underway_tick ih t

/-- The ticks up to the start of the recovery may be left out. -/
theorem ticked_filter (recovering : s.state = .recovering) (times : List Int) :
    s.ticked times = s.ticked (times.filter (s.recoverSinceMs < ·)) := by
  induction times using List.reverseRecOn with
  | nil => rfl
  | append_singleton times t ih =>
    rw [List.filter_append, ticked_concat, ih]
    by_cases later : s.recoverSinceMs < t
    · have last : [t].filter (s.recoverSinceMs < ·) = [t] := List.filter_eq_self.mpr (by simpa using later)
      rw [last, ticked_concat]
    · have underway := underway_ticked recovering (times.filter (s.recoverSinceMs < ·))
      have last : [t].filter (s.recoverSinceMs < ·) = [] := List.filter_eq_nil_iff.mpr (by simpa using later)
      rw [last, List.append_nil]
      rcases underway.state with on | ended
      · exact tick_early on (by rw [underway.since]; exact Int.not_lt.mp later) t
      · exact tick_idle ended t

/-- A tick of a sequence in order comes after all before it. -/
theorem upTo_of_increasing {times earlier : List Int} (increasing : times.Pairwise (· ≤ ·))
    (visited : earlier ++ [t] <+: times) : ∀ u ∈ earlier, u ≤ t := by
  intro u member
  have ordered := List.Pairwise.sublist visited.sublist increasing
  exact (List.pairwise_append.mp ordered).2.2 u member t List.mem_cons_self

/-- Ticks up to the start of the recovery leave the session as it is. -/
theorem ticked_early {times earlier : List Int} (recovering : s.state = .recovering)
    (increasing : times.Pairwise (· ≤ ·)) (visited : earlier ++ [t] <+: times) (early : t ≤ s.recoverSinceMs) :
    s.ticked (earlier ++ [t]) = s := by
  have none : (earlier ++ [t]).filter (s.recoverSinceMs < ·) = [] := by
    apply List.filter_eq_nil_iff.mpr
    intro u member
    have sooner : u ≤ t := by
      rcases List.mem_append.mp member with among | last
      · exact upTo_of_increasing increasing visited u among
      · exact (List.mem_singleton.mp last).le
    simp only [decide_eq_true_iff]
    omega
  rw [ticked_filter recovering, none]
  rfl

end Idling

variable {K : Type*} [Field K] [LinearOrder K]

/-- How far the ramp reaches at a time, counted from the start of the recovery. -/
def travel (s : FaultSession K) (t : Int) : K := s.spec.rampRate * (((t - s.recoverSinceMs : Int) : K) / 1000)

/-- What is left to the target. -/
def gap (s : FaultSession K) : K := |s.currentValue - s.recoverTarget|

def withValue (s : FaultSession K) (value : K) : FaultSession K := { s with currentValue := value }

/-- A session that has been moved on by some travel, and is over if that took it to its target. -/
def settled (s : FaultSession K) (way : K) : FaultSession K :=
  if s.gap < recoverEpsilon + way then s.toIdle else s.withValue (approach s.recoverTarget s.currentValue way)

/-- A tick finds the session where its ramp would be by then, however the time before was
divided into ticks. A session that is over has no value, so sessions are compared. -/
structure FreeOfSchedule (s : FaultSession K) (times : List Int) : Prop where
  law : ∀ earlier t, earlier ++ [t] <+: times → s.recoverSinceMs ≤ t →
    (s.ticked (earlier ++ [t])).state = .recovering →
      (s.ticked (earlier ++ [t])).currentValue =
        movedTowards s.recoverTarget s.currentValue (min s.gap (s.travel t))
  alone : ∀ earlier t, earlier ++ [t] <+: times → s.ticked (earlier ++ [t]) = s.ticked [t]

section Settled
variable {s : FaultSession K} {t : Int}

theorem settled_near {way : K} (near : s.gap < recoverEpsilon + way) : s.settled way = s.toIdle := if_pos near

theorem settled_far {way : K} (far : ¬s.gap < recoverEpsilon + way) :
    s.settled way = s.withValue (approach s.recoverTarget s.currentValue way) := if_neg far

theorem ramped_eq (s : FaultSession K) (t : Int) :
    s.ramped (t - s.recoverSinceMs) = approach s.recoverTarget s.currentValue (s.travel t) := by
  have way : s.spec.rampRate * (((t - s.recoverSinceMs : Int) : K) / ((1000 : Int) : K)) = s.travel t := by
    rw [travel, Int.cast_ofNat]
  simp only [ramped, way, approach, max_def_lt, min_comm s.recoverTarget, min_def_lt]

end Settled

section Ticks
variable [IsStrictOrderedRing K] {s : FaultSession K} {t : Int} {times : List Int}

theorem recoverEpsilon_pos : (0 : K) < recoverEpsilon := by
  rw [recoverEpsilon, Int.cast_one]
  exact div_pos one_pos (by norm_num)

theorem arrived_iff (value target : K) : arrived value target = true ↔ |value - target| < recoverEpsilon := by
  rw [arrived, decide_eq_true_iff]
  by_cases negative : value - target < 0
  · rw [if_pos negative, abs_of_neg negative]
  · rw [if_neg negative, abs_of_nonneg (not_lt.mp negative)]

theorem travel_nonneg (ramp : 0 ≤ s.spec.rampRate) (since : s.recoverSinceMs ≤ t) : 0 ≤ s.travel t := by
  apply mul_nonneg ramp
  apply div_nonneg _ (by norm_num)
  exact Int.cast_nonneg (by omega)

/-- A later tick moves the value by the whole way since the recovery began. -/
theorem tick_later (recovering : s.state = .recovering) (forward : 0 ≤ s.travel t)
    (later : s.recoverSinceMs < t) (clock : Int) :
    s.tick t clock = s.settled (s.travel t) := by
  have positive : ¬t - s.recoverSinceMs ≤ 0 := by omega
  have arrives : arrived (s.ramped (t - s.recoverSinceMs)) s.recoverTarget = true ↔
      s.gap < recoverEpsilon + s.travel t := by
    rw [arrived_iff, ramped_eq, abs_approach forward, max_lt_iff, gap]
    constructor
    · intro both
      linarith [both.2]
    · intro near
      exact ⟨recoverEpsilon_pos, by linarith⟩
  rw [tick, recovering]
  simp only [if_neg positive]
  by_cases near : s.gap < recoverEpsilon + s.travel t
  · rw [if_pos (arrives.mpr near), settled_near near]
    rfl
  · rw [if_neg fun arrived => near (arrives.mp arrived), settled_far near, ramped_eq, ← recovering]
    rfl

theorem tick_settled {way : K} (recovering : s.state = .recovering) (ramp : 0 ≤ s.spec.rampRate) (onward : 0 ≤ way)
    (later : s.recoverSinceMs < t) (clock : Int) :
    (s.settled way).tick t clock = s.settled (way + s.travel t) := by
  have forward := travel_nonneg ramp later.le
  by_cases near : s.gap < recoverEpsilon + way
  · rw [settled_near near, settled_near (by linarith)]
    exact tick_idle rfl clock
  · have moved : (s.withValue (approach s.recoverTarget s.currentValue way)).gap = max 0 (s.gap - way) :=
      abs_approach onward
    have reaches : max 0 (s.gap - way) < recoverEpsilon + s.travel t ↔ s.gap < recoverEpsilon + (way + s.travel t) := by
      rw [max_lt_iff]
      constructor
      · intro both
        linarith [both.2]
      · intro near
        exact ⟨add_pos_of_pos_of_nonneg recoverEpsilon_pos forward, by linarith⟩
    have next : (s.withValue (approach s.recoverTarget s.currentValue way)).tick t clock =
        (s.withValue (approach s.recoverTarget s.currentValue way)).settled (s.travel t) :=
      tick_later (s := s.withValue (approach s.recoverTarget s.currentValue way)) recovering forward later clock
    calc (s.settled way).tick t clock
        = (s.withValue (approach s.recoverTarget s.currentValue way)).tick t clock := by rw [settled_far near]
      _ = (s.withValue (approach s.recoverTarget s.currentValue way)).settled (s.travel t) := next
      _ = if s.gap < recoverEpsilon + (way + s.travel t) then s.toIdle
          else s.withValue (approach s.recoverTarget (approach s.recoverTarget s.currentValue way) (s.travel t)) := by
          simp only [settled, moved, reaches]
          rfl
      _ = s.settled (way + s.travel t) := by rw [approach_approach onward forward, settled]

/-- Ticks after the recovery began move the session by the sum of their ways. -/
theorem ticked_later (recovering : s.state = .recovering) (ramp : 0 ≤ s.spec.rampRate)
    (later : ∀ t ∈ times, s.recoverSinceMs < t) (some : times ≠ []) :
    s.ticked times = s.settled (times.map s.travel).sum := by
  induction times using List.reverseRecOn with
  | nil => exact absurd rfl some
  | append_singleton times t ih =>
    rw [List.forall_mem_append, List.forall_mem_singleton] at later
    rw [ticked_concat, List.map_append, List.sum_append, List.map_singleton, List.sum_singleton]
    by_cases first : times = []
    · subst first
      rw [List.map_nil, List.sum_nil, zero_add]
      exact tick_later recovering (travel_nonneg ramp later.2.le) later.2 t
    · have onward : 0 ≤ (times.map s.travel).sum := by
        apply List.sum_nonneg
        intro way member
        obtain ⟨u, earlier, rfl⟩ := List.mem_map.mp member
        exact travel_nonneg ramp (later.1 u earlier).le
      rw [ih later.1 first, tick_settled recovering ramp onward later.2]

/-- Two ways that leave the session recovering leave it at two values. -/
theorem settled_ne {way more : K} (onward : 0 ≤ way) (extra : 0 < more) (recovering : s.state = .recovering)
    (far : ¬s.gap < recoverEpsilon + way) : s.settled (more + way) ≠ s.settled way := by
  intro same
  have epsilon := recoverEpsilon_pos (K := K)
  rw [settled_far far] at same
  by_cases near : s.gap < recoverEpsilon + (more + way)
  · rw [settled_near near] at same
    have idle : FaultState.idle = s.state := congrArg FaultSession.state same
    rw [recovering] at idle
    exact FaultState.noConfusion idle
  · rw [settled_far near] at same
    have values : approach s.recoverTarget s.currentValue (more + way) = approach s.recoverTarget s.currentValue way :=
      congrArg FaultSession.currentValue same
    have left : max 0 (s.gap - (more + way)) = max 0 (s.gap - way) :=
      calc max 0 (s.gap - (more + way))
          = |approach s.recoverTarget s.currentValue (more + way) - s.recoverTarget| :=
            (abs_approach (by linarith)).symm
        _ = |approach s.recoverTarget s.currentValue way - s.recoverTarget| := by rw [values]
        _ = max 0 (s.gap - way) := abs_approach onward
    rw [max_eq_right (by linarith), max_eq_right (by linarith)] at left
    linarith

/-- One tick after the start of the recovery takes the ramp where it should be. -/
theorem settled_law {way : K} (onward : 0 ≤ way) (recovering : (s.settled way).state = .recovering) :
    (s.settled way).currentValue = movedTowards s.recoverTarget s.currentValue (min s.gap way) := by
  by_cases near : s.gap < recoverEpsilon + way
  · rw [settled_near near] at recovering
    exact FaultState.noConfusion recovering
  · rw [settled_far near]
    exact approach_eq_movedTowards onward

/-- The way to a tick that comes no later is no longer. -/
theorem travel_mono {u : Int} (ramp : 0 ≤ s.spec.rampRate) (sooner : u ≤ t) : s.travel u ≤ s.travel t := by
  apply mul_le_mul_of_nonneg_left _ ramp
  apply div_le_div_of_nonneg_right _ (by norm_num)
  exact Int.cast_le.mpr (by omega)

/-- With a tick in between that counts, the tick at `t` alone must end the recovery. -/
theorem ticked_concat_settled (recovering : s.state = .recovering) (ramp : 0 ≤ s.spec.rampRate)
    (later : s.recoverSinceMs < t)
    (closing : times.filter (s.recoverSinceMs < ·) ≠ [] → s.gap < recoverEpsilon + s.travel t) :
    s.ticked (times ++ [t]) = s.settled (s.travel t) := by
  have counted : (times ++ [t]).filter (s.recoverSinceMs < ·) = times.filter (s.recoverSinceMs < ·) ++ [t] := by
    rw [List.filter_append]
    congr 1
    exact List.filter_eq_self.mpr (by simpa using later)
  have beyond : ∀ u ∈ times.filter (s.recoverSinceMs < ·), s.recoverSinceMs < u := by
    intro u member
    exact of_decide_eq_true (List.mem_filter.mp member).2
  have all : ∀ u ∈ times.filter (s.recoverSinceMs < ·) ++ [t], s.recoverSinceMs < u := by
    rw [List.forall_mem_append, List.forall_mem_singleton]
    exact ⟨beyond, later⟩
  rw [ticked_filter recovering, counted, ticked_later recovering ramp all (by simp), List.map_append,
    List.sum_append, List.map_singleton, List.sum_singleton]
  by_cases first : times.filter (s.recoverSinceMs < ·) = []
  · rw [first, List.map_nil, List.sum_nil, zero_add]
  · have near := closing first
    have onward : 0 ≤ ((times.filter (s.recoverSinceMs < ·)).map s.travel).sum := by
      apply List.sum_nonneg
      intro way member
      obtain ⟨u, earlier, rfl⟩ := List.mem_map.mp member
      exact travel_nonneg ramp (beyond u earlier).le
    rw [settled_near near, settled_near (by linarith)]

/-- A second tick that finds something left of the ramp shows the schedule. -/
theorem schedule_shows {first second : Int} {rest : List Int} (recovering : s.state = .recovering)
    (ramp : 0 < s.spec.rampRate) (later : times.filter (s.recoverSinceMs < ·) = first :: second :: rest)
    (far : ¬s.gap < recoverEpsilon + s.travel second) :
    ∃ earlier, earlier ++ [second] <+: times ∧ s.ticked (earlier ++ [second]) ≠ s.ticked [second] := by
  obtain ⟨before, tail, rfl, early, after, later⟩ := List.filter_eq_cons_iff.mp later
  obtain ⟨between, more, rfl, still, beyond, -⟩ := List.filter_eq_cons_iff.mp later
  have start : s.recoverSinceMs < first := of_decide_eq_true after
  have onward : s.recoverSinceMs < second := of_decide_eq_true beyond
  have counted : ((before ++ first :: between) ++ [second]).filter (s.recoverSinceMs < ·) = [first, second] := by
    simp [List.filter_append, List.filter_eq_nil_iff.mpr early, List.filter_eq_nil_iff.mpr still, after, beyond]
  have twice : s.ticked ((before ++ first :: between) ++ [second]) = s.settled (s.travel first + s.travel second) := by
    rw [ticked_filter recovering, counted, ticked_later recovering ramp.le (by simp [start, onward]) (by simp)]
    simp
  have once : s.ticked [second] = s.settled (s.travel second) := tick_later recovering
    (travel_nonneg ramp.le onward.le) onward second
  have way : 0 < s.travel first := mul_pos ramp (div_pos (Int.cast_pos.mpr (by omega)) (by norm_num))
  exists before ++ first :: between
  constructor
  · exact ⟨more, by simp⟩
  · rw [twice, once]
    exact settled_ne (travel_nonneg ramp.le onward.le) way recovering far

/-- The second tick that counts comes no later than any tick behind another one. -/
theorem near_of_closing (ramp : 0 ≤ s.spec.rampRate) (increasing : times.Pairwise (· ≤ ·))
    (closing : ∀ first second rest, times.filter (s.recoverSinceMs < ·) = first :: second :: rest →
      s.gap < recoverEpsilon + s.travel second)
    {earlier : List Int} (visited : earlier ++ [t] <+: times) (later : s.recoverSinceMs < t)
    (some : earlier.filter (s.recoverSinceMs < ·) ≠ []) : s.gap < recoverEpsilon + s.travel t := by
  obtain ⟨first, more, counted⟩ := List.exists_cons_of_ne_nil some
  obtain ⟨rest, whole⟩ := List.IsPrefix.filter (s.recoverSinceMs < ·) visited
  rw [List.filter_append, counted, List.filter_eq_self.mpr (by simpa using later)] at whole
  obtain ⟨second, others, following⟩ : ∃ second others, more ++ [t] = second :: others :=
    List.exists_cons_of_ne_nil (by simp)
  have sooner : second ≤ t := by
    have member : second ∈ more ++ [t] := following ▸ List.mem_cons_self
    rcases List.mem_append.mp member with among | last
    · apply upTo_of_increasing increasing visited second
      apply List.mem_of_mem_filter
      rw [counted]
      exact List.mem_cons_of_mem first among
    · exact (List.mem_singleton.mp last).le
  have near : s.gap < recoverEpsilon + s.travel second := by
    apply closing first second (others ++ rest)
    rw [← whole, List.cons_append, List.cons_append, following, List.cons_append]
  linarith [travel_mono ramp sooner]

/-- The ramp is free of the schedule as long as one tick later than its start takes part, or
the second of them would end the recovery by itself: each tick moves the value by the whole
way since the start, and not by the way since the tick before. -/
theorem free_of_schedule_iff (recovering : s.state = .recovering) (ramp : 0 < s.spec.rampRate)
    (increasing : times.Pairwise (· ≤ ·)) :
    s.FreeOfSchedule times ↔ ∀ first second rest, times.filter (s.recoverSinceMs < ·) = first :: second :: rest →
      s.gap < recoverEpsilon + s.travel second := by
  constructor
  · intro free first second rest later
    by_contra far
    obtain ⟨earlier, visited, differ⟩ := schedule_shows recovering ramp later far
    exact differ (free.alone earlier second visited)
  intro closing
  have settles : ∀ earlier t, earlier ++ [t] <+: times → s.recoverSinceMs < t →
      s.ticked (earlier ++ [t]) = s.settled (s.travel t) := by
    intro earlier t visited later
    apply ticked_concat_settled recovering ramp.le later
    exact near_of_closing ramp.le increasing closing visited later
  constructor
  · intro earlier t visited since on
    by_cases later : s.recoverSinceMs < t
    · rw [settles earlier t visited later] at on ⊢
      exact settled_law (travel_nonneg ramp.le since) on
    · have now : t = s.recoverSinceMs := by omega
      have still : s.travel t = 0 := by rw [travel, now, sub_self, Int.cast_zero, zero_div, mul_zero]
      rw [ticked_early recovering increasing visited now.le, still, min_eq_right (abs_nonneg _), movedTowards,
        sub_zero, add_zero, ite_self]
  · intro earlier t visited
    by_cases later : s.recoverSinceMs < t
    · calc s.ticked (earlier ++ [t]) = s.settled (s.travel t) := settles earlier t visited later
        _ = s.ticked [t] := (tick_later recovering (travel_nonneg ramp.le later.le) later t).symm
    · have early : t ≤ s.recoverSinceMs := not_lt.mp later
      calc s.ticked (earlier ++ [t]) = s := ticked_early recovering increasing visited early
        _ = s.ticked [t] := (tick_early recovering early t).symm

end Ticks

/-- A fault at 10 that recovers to 0 from the time 0 on, by 1 a second. -/
def cooling : FaultSession ℚ :=
  ((FaultSession.start 1 ({ targetValue := 10, rampRate := 1 } : FaultOverride ℚ) 0).toActive 0).toRecovering 0

theorem cooling_free : cooling.FreeOfSchedule [0, 5000, 10000] := by
  apply (free_of_schedule_iff rfl (by decide +kernel) (by decide)).mpr
  intro first second rest later
  have counted : [0, 5000, 10000].filter (cooling.recoverSinceMs < ·) = [5000, 10000] := by decide +kernel
  rw [counted] at later
  injection later with _ later
  injection later with second
  rw [← second]
  decide +kernel

/-- After two seconds 8 should be left: two ticks leave 7, or 6 when both come at that time. -/
theorem cooling_twice :
    (cooling.state = .recovering ∧ cooling.currentValue = 10 ∧ cooling.recoverTarget = 0 ∧ cooling.recoverSinceMs = 0) ∧
      (cooling.ticked [2000]).currentValue = 8 ∧ (cooling.ticked [1000, 2000]).currentValue = 7 ∧
      (cooling.ticked [2000, 2000]).currentValue = 6 ∧
      movedTowards cooling.recoverTarget cooling.currentValue (min cooling.gap (cooling.travel 2000)) = 8 ∧
      (cooling.ticked [1000, 2000]).state = .recovering ∧ ¬cooling.FreeOfSchedule [1000, 2000] := by
  have once : (cooling.ticked [2000]).currentValue = 8 := by decide +kernel
  have twice : (cooling.ticked [1000, 2000]).currentValue = 7 := by decide +kernel
  refine ⟨by decide +kernel, once, twice, by decide +kernel, by decide +kernel, by decide +kernel, fun free => ?_⟩
  have same := congrArg FaultSession.currentValue (free.alone [1000] 2000 (List.prefix_refl _))
  rw [List.singleton_append, once, twice] at same
  norm_num at same

end FaultSession
end EnerSentry.Sim
