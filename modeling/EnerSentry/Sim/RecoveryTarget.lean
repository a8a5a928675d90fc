import Mathlib.Algebra.Order.Archimedean.Basic
import EnerSentry.Sim.RecoveryRamp
import EnerSentry.Sim.ScenarioScript

/-!
Where a recovery ends. The target that `recover` is asked for is set, and is overwritten by
the one of the injection in the next call; the ramp goes there.
-/

namespace EnerSentry.Sim
open EnerSentry.Lib.Approach

variable {K : Type} [Field K]

/-- What `recover` makes of a session. -/
def FaultSession.recovered (s : FaultSession K) (rv : K) (clock : Int) : FaultSession K :=
  (s.setRecoverTarget rv).toRecovering clock

namespace FaultInjector
variable {f : FaultInjector K} {i : Nat} {s : FaultSession K}

/-- What becomes of the session at a place in a call of `recover`. -/
theorem place_recover (here : f.sessions[i]? = some s) (h : FaultHandle) (rv : K) (clock : Int) :
    (f.recover h rv clock).1.sessions[i]? = some s ∨
      s.state = .active ∧ (f.recover h rv clock).1.sessions[i]? = some (s.recovered rv clock) := by
  rw [recover, changeFirst]
  split
  case h_1 k found =>
    change (f.sessions.modify k _)[i]? = _ ∨ _ ∧ (f.sessions.modify k _)[i]? = _
    rw [List.getElem?_modify, here]
    by_cases same : k = i
    · right
      obtain ⟨inside, picked, -⟩ := List.findIdx?_eq_some_iff_getElem.mp found
      subst same
      rw [List.getElem?_eq_getElem inside, Option.some_inj] at here
      rw [here, Bool.and_eq_true, beq_iff_eq, beq_iff_eq] at picked
      exact ⟨picked.2, congrArg some (if_pos rfl)⟩
    · exact Or.inl (congrArg some (if_neg same))
  case h_2 => exact Or.inl here

theorem place_recoverAll (handles : List FaultHandle) (rv : K) :
    ∀ ti : TimedInjector K, ti.fi.sessions[i]? = some s →
      let ti' := handles.foldl (fun ti h => (ti.recover h rv).1) ti
      ti'.fi.sessions[i]? = some s ∨
        s.state = .active ∧ ∃ clock, ti'.fi.sessions[i]? = some (s.recovered rv clock) := by
  intro ti here
  induction handles using List.reverseRecOn with
  | nil => exact Or.inl here
  | append_singleton handles h ih =>
    rw [List.foldl_concat]
    generalize handles.foldl (fun ti h => (ti.recover h rv).1) ti = mid at ih
    rcases ih with same | ⟨active, clock, recovered⟩
    · rcases place_recover same h rv (mid.readings 0) with still | ⟨active, now⟩
      · exact Or.inl still
      · exact Or.inr ⟨active, _, now⟩
    · rcases place_recover recovered h rv (mid.readings 0) with still | ⟨again, -⟩
      · exact Or.inr ⟨active, clock, still⟩
      · exact FaultState.noConfusion again

theorem place_fireRecover [ToString K] {ti : TimedInjector K} (here : ti.fi.sessions[i]? = some s)
    (sc : ScenarioScript K) (step : ScenarioStep K) :
    (sc.fireRecover step ti).2.fi.sessions[i]? = some s ∨
      s.state = .active ∧
        ∃ clock, (sc.fireRecover step ti).2.fi.sessions[i]? = some (s.recovered step.targetValue clock) := by
  rw [ScenarioScript.fireRecover]
  split
  · exact Or.inl here
  case h_2 h rest waiting =>
    split
    · exact place_recoverAll (h :: rest) step.targetValue ti here
    · exact place_recoverAll [h] step.targetValue ti here

end FaultInjector

variable [LinearOrder K]

namespace FaultSession

/-- A session whose ramp has arrived, before it becomes idle. -/
def arriving (s : FaultSession K) : FaultSession K := { s with currentValue := s.recoverTarget }

/-- One tick of a recovery heads for a value: it does not move away from it or past it, and
the last value of the recovery is that one. -/
structure Heads (rv : K) (before after : FaultSession K) : Prop where
  moves : after.state = .recovering →
    min before.currentValue rv ≤ after.currentValue ∧ after.currentValue ≤ max before.currentValue rv
  ends : before.state = .recovering → after.state = .idle → |before.arriving.currentValue - rv| < recoverEpsilon

/-- The recovery of a session can end at a value only, or does not end. -/
def EndsAt (s : FaultSession K) (rv : K) : Prop :=
  |s.spec.recoverValue - rv| < recoverEpsilon ∧ (0 ≤ s.spec.rampRate ∨ s.currentValue = s.spec.recoverValue) ∨
    s.spec.rampRate = 0 ∧ recoverEpsilon ≤ |s.currentValue - s.spec.recoverValue|

theorem Heads.still (rv : K) (s : FaultSession K) : Heads rv s s := by
  constructor
  · intro _
    exact ⟨min_le_left _ _, le_max_left _ _⟩
  · intro recovering idle
    rw [recovering] at idle
    exact FaultState.noConfusion idle

section Ticks
variable [IsStrictOrderedRing K] {s : FaultSession K} {rv : K} {t clock : Int}

/-- A later tick either ends the recovery at its target or takes the ramp on. -/
theorem tick_arrives (recovering : s.state = .recovering) (later : s.recoverSinceMs < t) (clock : Int)
    (near : |approach s.recoverTarget s.currentValue (s.travel t) - s.recoverTarget| < recoverEpsilon) :
    s.tick t clock = s.arriving.toIdle := by
  have positive : ¬t - s.recoverSinceMs ≤ 0 := by omega
  rw [tick, recovering]
  simp only [if_neg positive]
  rw [ramped_eq, if_pos ((arrived_iff _ _).mpr near)]
  rfl

theorem tick_goes_on (recovering : s.state = .recovering) (later : s.recoverSinceMs < t) (clock : Int)
    (far : ¬|approach s.recoverTarget s.currentValue (s.travel t) - s.recoverTarget| < recoverEpsilon) :
    s.tick t clock = s.withValue (approach s.recoverTarget s.currentValue (s.travel t)) := by
  have positive : ¬t - s.recoverSinceMs ≤ 0 := by omega
  rw [tick, recovering]
  simp only [if_neg positive]
  rw [ramped_eq, if_neg fun arrived => far ((arrived_iff _ _).mp arrived), ← recovering]
  rfl

/-- A tick of a session that recovers or is over. -/
theorem tick_cases (state : s.state = .recovering ∨ s.state = .idle) (t clock : Int) :
    s.tick t clock = s ∨
      s.state = .recovering ∧ s.recoverSinceMs < t ∧
        ((|approach s.recoverTarget s.currentValue (s.travel t) - s.recoverTarget| < recoverEpsilon ∧
            s.tick t clock = s.arriving.toIdle) ∨
          (recoverEpsilon ≤ |approach s.recoverTarget s.currentValue (s.travel t) - s.recoverTarget| ∧
            s.tick t clock = s.withValue (approach s.recoverTarget s.currentValue (s.travel t)))) := by
  rcases state with recovering | idle
  · by_cases later : s.recoverSinceMs < t
    · right
      refine ⟨recovering, later, ?_⟩
      by_cases near : |approach s.recoverTarget s.currentValue (s.travel t) - s.recoverTarget| < recoverEpsilon
      · exact Or.inl ⟨near, tick_arrives recovering later clock near⟩
      · exact Or.inr ⟨not_lt.mp near, tick_goes_on recovering later clock near⟩
    · exact Or.inl (tick_early recovering (not_lt.mp later) clock)
  · exact Or.inl (tick_idle idle clock)

/-- A ramp that does not run backwards heads for every value near its target. -/
theorem heads_of_near (state : s.state = .recovering ∨ s.state = .idle) (ramp : 0 ≤ s.spec.rampRate)
    (near : |s.recoverTarget - rv| < recoverEpsilon) (t clock : Int) : Heads rv s (s.tick t clock) := by
  rcases tick_cases state t clock with same | ⟨recovering, later, ⟨-, ended⟩ | ⟨far, onward⟩⟩
  · rw [same]
    exact Heads.still rv s
  · rw [ended]
    exact ⟨fun on => FaultState.noConfusion on, fun _ _ => near⟩
  · rw [onward]
    constructor
    · intro _
      have between : min s.currentValue s.recoverTarget ≤ approach s.recoverTarget s.currentValue (s.travel t) ∧
          approach s.recoverTarget s.currentValue (s.travel t) ≤ max s.currentValue s.recoverTarget :=
        approach_between (travel_nonneg ramp later.le)
      obtain ⟨low, high⟩ := abs_lt.mp near
      change min s.currentValue rv ≤ approach _ _ _ ∧ approach _ _ _ ≤ max s.currentValue rv
      rcases le_total s.currentValue s.recoverTarget with below | above
      · rw [min_eq_left below, max_eq_right below] at between
        rw [abs_of_nonpos (by linarith [between.2])] at far
        exact ⟨min_le_of_left_le between.1, le_max_of_le_right (by linarith)⟩
      · rw [min_eq_right above, max_eq_left above] at between
        rw [abs_of_nonneg (by linarith [between.1])] at far
        exact ⟨min_le_of_right_le (by linarith), le_max_of_le_left between.2⟩
    · intro _ idle
      exact FaultState.noConfusion (recovering.symm.trans idle)

/-- A ramp that does not move the value heads for every value near its target if it is there. -/
theorem heads_of_parked (state : s.state = .recovering ∨ s.state = .idle)
    (parked : approach s.recoverTarget s.currentValue (s.travel t) = s.currentValue)
    (near : |s.currentValue - s.recoverTarget| < recoverEpsilon → |s.recoverTarget - rv| < recoverEpsilon)
    (clock : Int) :
    Heads rv s (s.tick t clock) := by
  rcases tick_cases state t clock with same | ⟨recovering, later, ⟨there, ended⟩ | ⟨far, onward⟩⟩
  · rw [same]
    exact Heads.still rv s
  · rw [parked] at there
    rw [ended]
    exact ⟨fun on => FaultState.noConfusion on, fun _ _ => near there⟩
  · rw [onward, parked]
    exact Heads.still rv s

/-- A session whose ramp does not move it stays as it is until it is over. -/
theorem ticked_parked (recovering : s.state = .recovering)
    (parked : ∀ t, approach s.recoverTarget s.currentValue (s.travel t) = s.currentValue) (times : List Int) :
    s.ticked times = s ∨ (s.ticked times).state = .idle := by
  induction times using List.reverseRecOn with
  | nil => exact Or.inl rfl
  | append_singleton times t ih =>
    rw [ticked_concat]
    rcases ih with same | ended
    · rw [same]
      rcases tick_cases (Or.inl recovering) t t with same | ⟨-, -, ⟨-, ended⟩ | ⟨-, onward⟩⟩
      · exact Or.inl same
      · exact Or.inr (congrArg FaultSession.state ended)
      · rw [onward, parked]
        exact Or.inl rfl
    · rw [tick_idle ended]
      exact Or.inr ended

/-- A pace of some units a second goes beyond any bound. -/
theorem exists_way_ge [Archimedean K] {pace : K} (forward : 0 < pace) (s : FaultSession K) (bound : K) :
    ∃ t, s.recoverSinceMs < t ∧ bound ≤ pace * (((t - s.recoverSinceMs : Int) : K) / 1000) := by
  obtain ⟨n, reaches⟩ := Archimedean.arch bound forward
  exists s.recoverSinceMs + 1000 * (n + 1 : Nat)
  have way : pace * (((s.recoverSinceMs + 1000 * (n + 1 : Nat) - s.recoverSinceMs : Int) : K) / 1000) =
      (n + 1 : Nat) • pace := by
    rw [add_sub_cancel_left, nsmul_eq_mul]
    push_cast
    ring
  constructor
  · omega
  · rw [way, succ_nsmul]
    linarith

/-- A tick at which the ramp is at its target shows where the recovery ends. -/
theorem near_of_arrival (recovering : s.state = .recovering) (later : s.recoverSinceMs < t)
    (near : |approach s.recoverTarget s.currentValue (s.travel t) - s.recoverTarget| < recoverEpsilon)
    (heads : Heads rv s (s.tick t clock)) : |s.recoverTarget - rv| < recoverEpsilon := by
  rw [tick_arrives recovering later clock near] at heads
  exact heads.ends recovering rfl

/-- A ramp that runs backwards heads for no value, unless it starts at its target. -/
theorem leaves_of_backward [Archimedean K] (recovering : s.state = .recovering) (ramp : s.spec.rampRate < 0)
    (apart : s.currentValue ≠ s.recoverTarget) : ∃ t, ¬Heads rv s (s.tick t t) := by
  obtain ⟨t, later, reaches⟩ := exists_way_ge (neg_pos.mpr ramp) s (recoverEpsilon + |s.currentValue - rv|)
  have back : recoverEpsilon + |s.currentValue - rv| ≤ -s.travel t := by
    rw [travel, ← neg_mul]
    exact reaches
  have epsilon := recoverEpsilon_pos (K := K)
  have distance := abs_nonneg (s.currentValue - rv)
  obtain ⟨low, high⟩ := abs_le.mp (le_refl |s.currentValue - rv|)
  have moved : approach s.recoverTarget s.currentValue (s.travel t) =
      movedTowards s.recoverTarget s.currentValue (s.travel t) :=
    approach_far (le_trans (by linarith) (abs_nonneg _)) apart
  exists t
  intro heads
  rcases lt_or_gt_of_ne apart with below | above
  · rw [movedTowards, if_neg (not_lt_of_gt below)] at moved
    have far : ¬|approach s.recoverTarget s.currentValue (s.travel t) - s.recoverTarget| < recoverEpsilon := by
      rw [moved, abs_of_nonpos (by linarith)]
      linarith
    rw [tick_goes_on recovering later t far, moved] at heads
    have bound : min s.currentValue rv ≤ s.currentValue + s.travel t := (heads.moves recovering).1
    rcases min_le_iff.mp bound with own | other
    · linarith
    · linarith
  · rw [movedTowards, if_pos above] at moved
    have far : ¬|approach s.recoverTarget s.currentValue (s.travel t) - s.recoverTarget| < recoverEpsilon := by
      rw [moved, abs_of_nonneg (by linarith)]
      linarith
    rw [tick_goes_on recovering later t far, moved] at heads
    have bound : s.currentValue - s.travel t ≤ max s.currentValue rv := (heads.moves recovering).2
    rcases le_max_iff.mp bound with own | other
    · linarith
    · linarith

/-- What the first ticks show of a recovery that heads for a value. -/
theorem endsAt_of_heads [Archimedean K] (recovering : s.state = .recovering)
    (target : s.recoverTarget = s.spec.recoverValue) (heads : ∀ t, Heads rv s (s.tick t t)) : s.EndsAt rv := by
  have next : s.recoverSinceMs < s.recoverSinceMs + 1 := by omega
  have epsilon := recoverEpsilon_pos (K := K)
  rw [EndsAt, ← target]
  rcases lt_trichotomy s.spec.rampRate 0 with backward | still | forward
  · by_cases there : s.currentValue = s.recoverTarget
    · left
      refine ⟨near_of_arrival recovering next ?_ (heads _), Or.inr there⟩
      rw [there, approach_self, sub_self, abs_zero]
      exact epsilon
    · obtain ⟨t, leaves⟩ : ∃ t, ¬Heads rv s (s.tick t t) := leaves_of_backward recovering backward there
      exact absurd (heads t) leaves
  · by_cases near : |s.currentValue - s.recoverTarget| < recoverEpsilon
    · left
      refine ⟨near_of_arrival recovering next ?_ (heads _), Or.inl still.ge⟩
      rw [travel, still, zero_mul, approach_zero]
      exact near
    · exact Or.inr ⟨still, not_lt.mp near⟩
  · left
    obtain ⟨t, later, reaches⟩ := exists_way_ge forward s |s.currentValue - s.recoverTarget|
    refine ⟨near_of_arrival recovering later ?_ (heads t), Or.inl forward.le⟩
    have arrives : approach s.recoverTarget s.currentValue (s.travel t) = s.recoverTarget := approach_near reaches
    rw [arrives, sub_self, abs_zero]
    exact epsilon

/-- The recovery heads for a value whatever the ticks, exactly when it can end there only. -/
theorem heads_iff [Archimedean K] (recovering : s.state = .recovering)
    (target : s.recoverTarget = s.spec.recoverValue) :
    (∀ earlier t clock, Heads rv (s.ticked earlier) ((s.ticked earlier).tick t clock)) ↔ s.EndsAt rv := by
  constructor
  · intro heads
    exact endsAt_of_heads recovering target fun t => heads [] t t
  intro ends earlier t clock
  have underway := underway_ticked recovering earlier
  rw [EndsAt, ← target] at ends
  have kept (parked : ∀ t, approach s.recoverTarget s.currentValue (s.travel t) = s.currentValue)
      (near : |s.currentValue - s.recoverTarget| < recoverEpsilon → |s.recoverTarget - rv| < recoverEpsilon) :
      Heads rv (s.ticked earlier) ((s.ticked earlier).tick t clock) := by
    rcases ticked_parked recovering parked earlier with same | ended
    · rw [same]
      exact heads_of_parked (Or.inl recovering) (parked t) near clock
    · rw [tick_idle ended]
      exact Heads.still rv _
  rcases ends with ⟨near, forward | there⟩ | ⟨still, far⟩
  · apply heads_of_near underway.state
    · rw [underway.spec]
      exact forward
    · rw [underway.target]
      exact near
  · apply kept _ fun _ => near
    intro t
    rw [there, approach_self]
  · apply kept _ fun near => absurd near (not_lt.mpr far)
    intro t
    rw [travel, still, zero_mul, approach_zero]

end Ticks
end FaultSession

namespace FaultInjector
open FaultSession

/-- A tick of all sessions: its length, its time and the readings of the sessions. -/
abbrev Tick := UInt32 × Int × (Nat → Int)

def later (f : FaultInjector K) (ticks : List Tick) : FaultInjector K :=
  ticks.foldl (fun f t => f.tickSessions t.1 t.2.1 t.2.2) f

/-- The recovery of the session at a place heads for a value, at every tick there can be. -/
def HeadsFor (f : FaultInjector K) (i : Nat) (rv : K) : Prop :=
  ∀ earlier t before after, (f.later earlier).sessions[i]? = some before →
    (f.later (earlier ++ [t])).sessions[i]? = some after → Heads rv before after

section Places
variable {f : FaultInjector K} {i : Nat} {s : FaultSession K}

theorem sessions_tickSessions (f : FaultInjector K) (dtMs : UInt32) (nowMonoMs : Int) (clock : Nat → Int) :
    (f.tickSessions dtMs nowMonoMs clock).sessions = f.sessions.mapIdx fun i s => s.tick nowMonoMs (clock i) := by
  rw [tickSessions]
  split <;> rfl

theorem getElem?_tickSessions (dtMs : UInt32) (nowMonoMs : Int) (clock : Nat → Int) :
    (f.tickSessions dtMs nowMonoMs clock).sessions[i]? = f.sessions[i]?.map fun s => s.tick nowMonoMs (clock i) := by
  rw [sessions_tickSessions, List.getElem?_mapIdx]

/-- Only an active session needs a reading of its own. -/
theorem tick_reading (running : s.state ≠ .active) (t clock clock' : Int) : s.tick t clock = s.tick t clock' := by
  unfold tick
  split
  · exact absurd ‹_› running
  · rfl
  · rfl

theorem later_concat (f : FaultInjector K) (ticks : List Tick) (t : Tick) :
    f.later (ticks ++ [t]) = (f.later ticks).tickSessions t.1 t.2.1 t.2.2 := List.foldl_concat ..

/-- A recovering session goes its way by the times of the ticks alone. -/
theorem getElem?_later (here : f.sessions[i]? = some s) (recovering : s.state = .recovering) (ticks : List Tick) :
    (f.later ticks).sessions[i]? = some (s.ticked (ticks.map (·.2.1))) := by
  induction ticks using List.reverseRecOn with
  | nil => exact here
  | append_singleton ticks t ih =>
    have running : (s.ticked (ticks.map (·.2.1))).state ≠ .active := by
      rcases (underway_ticked recovering (ticks.map (·.2.1))).state with on | ended
      · rw [on]
        exact FaultState.noConfusion
      · rw [ended]
        exact FaultState.noConfusion
    rw [later_concat, getElem?_tickSessions, ih, List.map_append, List.map_singleton, ticked_concat, Option.map_some]
    exact congrArg some (tick_reading running ..)

variable [IsStrictOrderedRing K] [Archimedean K]

/-- A session that has just been asked to recover ends at the value of its injection. -/
theorem headsFor_recovered {f : FaultInjector K} {rv : K} {clock : Int}
    (here : f.sessions[i]? = some (s.recovered rv clock)) : f.HeadsFor i rv ↔ s.EndsAt rv := by
  rw [show s.EndsAt rv ↔ (s.recovered rv clock).EndsAt rv from Iff.rfl, ← heads_iff rfl rfl]
  constructor
  · intro heads earlier t reading
    have times : (earlier.map fun u => ((0, u, fun _ => u) : Tick)).map (·.2.1) = earlier := by
      rw [List.map_map]
      exact List.map_id earlier
    have before := getElem?_later here rfl (earlier.map fun u => (0, u, fun _ => u))
    rw [times] at before
    apply heads (earlier.map fun u => (0, u, fun _ => u)) (0, t, fun _ => reading) _ _ before
    rw [later_concat, getElem?_tickSessions, before]
    rfl
  · intro heads earlier t before after was now
    have mid := getElem?_later here rfl earlier
    rw [later_concat, getElem?_tickSessions, mid] at now
    rw [mid] at was
    rw [← Option.some.inj was, ← Option.some.inj now]
    exact heads ..

/-- A recovery heads for the target it was asked for, by a call or by a step of a script,
exactly when the injection carries that target, or nearly: what is asked for is overwritten. -/
theorem recover_heads_iff [ToString K] :
    (∀ (f : FaultInjector K) (h : FaultHandle) (rv : K) (clock : Int), (f.recover h rv clock).2 = true →
      ∃ i s, f.sessions[i]? = some s ∧ s.handle = h ∧ s.state = .active ∧
        (f.recover h rv clock).1.sessions[i]? = some (s.recovered rv clock) ∧
        ((f.recover h rv clock).1.HeadsFor i rv ↔ s.EndsAt rv)) ∧
    ∀ (sc : ScenarioScript K) (step : ScenarioStep K) (ti : TimedInjector K) (i : Nat) (s : FaultSession K),
      ti.fi.sessions[i]? = some s → (sc.fireRecover step ti).2.fi.sessions[i]? ≠ some s →
        ((sc.fireRecover step ti).2.fi.HeadsFor i step.targetValue ↔ s.EndsAt step.targetValue) := by
  constructor
  · intro f h rv clock ok
    cases found : f.sessions.findIdx? fun s => s.handle == h && s.state == .active with
    | none =>
      rw [recover, changeFirst, found] at ok
      exact Bool.noConfusion ok
    | some i =>
      obtain ⟨inside, picked, -⟩ := List.findIdx?_eq_some_iff_getElem.mp found
      rw [Bool.and_eq_true, beq_iff_eq, beq_iff_eq] at picked
      have here := List.getElem?_eq_getElem inside
      have changed : (f.recover h rv clock).1.sessions[i]? = some (f.sessions[i].recovered rv clock) := by
        rw [recover, changeFirst, found]
        change (f.sessions.modify i _)[i]? = _
        rw [List.getElem?_modify, here]
        exact congrArg some (if_pos rfl)
      exact ⟨i, f.sessions[i], here, picked.1, picked.2, changed, headsFor_recovered changed⟩
  · intro sc step ti i s here other
    rcases place_fireRecover here sc step with same | ⟨-, clock, changed⟩
    · exact absurd same other
    · exact headsFor_recovered changed

end Places

section Drills

/-- A slave with a temperature. -/
def oneRack : SimPointTable ℚ where
  bySlave := [(1, [{ pointName := "Rack-01_MaxTemp", registerAddr := 10, scaleFactor := 1, offset := 0 }])]

/-- A step of the drill of overheating: up to 65 and back to 35. -/
def overheat (action : String) (targetValue : ℚ) : ScenarioStep ℚ :=
  { action, fault := "FR-SIM-05a", scope := "cluster", slaveSpec := "1", regName := "MaxTemp", targetValue,
    rampRate := 1 }

/-- The script and the injector when the rack has been driven to 65. -/
def heated : ScenarioScript ℚ × TimedInjector ℚ :=
  ScenarioScript.fireInject {} (overheat "INJECT" 65) {} oneRack

/-- The drill lets the rack go at 35: its value falls past that, and ends at 0. -/
theorem overheat_past_target :
    ((heated.2.fi.sessions.map fun s => (s.state, s.currentValue)) = [(.active, 65)]) ∧
      let f := (heated.1.fireRecover (overheat "RECOVER" 35) heated.2).2.fi
      (f.sessions.map fun s => (s.state, s.currentValue, s.recoverTarget)) = [(.recovering, 65, 0)] ∧
      ((f.later [(200, 31000, fun _ => 0)]).sessions.map fun s => (s.state, s.currentValue)) = [(.recovering, 34)] ∧
      ((f.later [(200, 65000, fun _ => 0)]).sessions.map (·.state)) = [.idle] ∧
      ¬f.HeadsFor 0 35 := by
  have begun : ((heated.1.fireRecover (overheat "RECOVER" 35) heated.2).2.fi.sessions.map fun s =>
      (s.state, s.currentValue, s.recoverTarget)) = [(.recovering, 65, 0)] := by decide +kernel
  have past : (((heated.1.fireRecover (overheat "RECOVER" 35) heated.2).2.fi.later
      [(200, 31000, fun _ => 0)]).sessions.map fun s => (s.state, s.currentValue)) = [(.recovering, 34)] := by
    decide +kernel
  refine ⟨by decide +kernel, begun, past, by decide +kernel, fun heads => ?_⟩
  obtain ⟨before, others, was, start, -⟩ := List.map_eq_cons_iff.mp begun
  obtain ⟨after, rest, now, moved, -⟩ := List.map_eq_cons_iff.mp past
  injection start with _ start
  injection start with start _
  injection moved with recovering moved
  have low := ((heads [] (200, 31000, fun _ => 0) before after (congrArg (·[0]?) was) (congrArg (·[0]?) now)).moves
    recovering).1
  rw [start, moved] at low
  norm_num at low

/-- A fault whose injection names the value 4 to recover to. -/
def carried : FaultInjector ℚ :=
  (FaultInjector.trigger {} ({ targetValue := 10, rampRate := 1, recoverValue := 4 } : FaultOverride ℚ) 0 0).1

/-- An injection of a script names no value to recover to. -/
theorem heated_spec : (heated.2.fi.sessions.map fun s => (s.spec.recoverValue, s.spec.rampRate)) = [(0, 1)] := by
  decide +kernel

theorem carried_heads :
    (∃ i s, carried.sessions[i]? = some s ∧ s.handle = 1 ∧ s.state = .active ∧
      (carried.recover 1 4 0).1.sessions[i]? = some (s.recovered 4 0) ∧
      ((carried.recover 1 4 0).1.HeadsFor i 4 ↔ s.EndsAt 4)) ∧
    (heated.1.fireRecover (overheat "RECOVER" 0) heated.2).2.fi.HeadsFor 0 0 := by
  constructor
  · exact recover_heads_iff.1 carried 1 4 0 (by decide +kernel)
  · obtain ⟨s, others, sessions, spec, -⟩ := List.map_eq_cons_iff.mp heated_spec
    injection spec with value ramp
    have here : heated.2.fi.sessions[0]? = some s := congrArg (·[0]?) sessions
    have changed : (heated.1.fireRecover (overheat "RECOVER" 0) heated.2).2.fi.sessions[0]? ≠ some s := by
      intro same
      rw [← here] at same
      exact absurd (congrArg (Option.map (·.state)) same) (by decide +kernel)
    apply (recover_heads_iff.2 heated.1 (overheat "RECOVER" 0) heated.2 0 s here changed).mpr
    left
    rw [value, ramp]
    exact ⟨by decide +kernel, Or.inl (by decide)⟩

end Drills
end FaultInjector
end EnerSentry.Sim
