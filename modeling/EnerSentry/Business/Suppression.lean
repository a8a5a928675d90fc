import EnerSentry.Business.AlarmTransitions

/-!
Points under maintenance. The engine keeps the set of suppressed points and no expiry times:
the expiry of a call is compared with the clock once, when the call arrives. A monitor keeps
the latest call for each point, and a sample is rightly ignored as long as that call lasts.
-/

namespace EnerSentry.Business
open EnerSentry.Lib

inductive SuppressCall where
  | suppress (expireTimeEpoch nowEpoch : Nat)
  | unsuppress
  deriving DecidableEq, Repr

namespace SuppressCall

/-- The call keeps its point under maintenance at this time. -/
def Lasts (t : Nat) : SuppressCall → Prop
  | suppress expireTimeEpoch _ => t < expireTimeEpoch
  | unsuppress => False

/-- The call came in time to have an effect. -/
def Takes : SuppressCall → Prop
  | suppress expireTimeEpoch nowEpoch => nowEpoch < expireTimeEpoch
  | unsuppress => False

end SuppressCall

namespace AlarmEngine
variable {K : Type*} [Zero K]

/-- The latest suppress call of each point. -/
def trackCalls (calls : UInt32 → Option SuppressCall) : AlarmInput K → UInt32 → Option SuppressCall
  | .suppressPoint pointId expireTimeEpoch nowEpoch =>
      Function.update calls pointId (some (.suppress expireTimeEpoch nowEpoch))
  | .unsuppressPoint pointId => Function.update calls pointId (some .unsuppress)
  | _ => calls

/-- The rule of the point is not applied to its samples, although there is one. -/
def Ignores (e : AlarmEngine K) (pid : UInt32) : Prop := (e.rules pid).isSome = true ∧ ∀ r, ¬e.Watches pid r

/-- The latest call has an effect exactly when it lasts to the sample. -/
def Timely (e : AlarmEngine K) (calls : UInt32 → Option SuppressCall) : AlarmInput K → Prop
  | .dataUpdated pid _ _ nowEpoch =>
      (e.rules pid).isSome = true → ∀ expires arrived, calls pid = some (.suppress expires arrived) →
        (arrived < expires ↔ nowEpoch < expires)
  | _ => True

/-- The set of suppressed points is what the latest calls made of it. -/
def Suppresses (s : AlarmEngine K × (UInt32 → Option SuppressCall)) : Prop :=
  ∀ pid, s.1.suppressedPoints pid = true ↔ ∃ c, s.2 pid = some c ∧ c.Takes

section Ignored
variable {e : AlarmEngine K} {pid : UInt32}

theorem ignores_iff (ruled : (e.rules pid).isSome = true) : e.Ignores pid ↔ e.suppressedPoints pid = true := by
  obtain ⟨r, found⟩ := Option.isSome_iff_exists.mp ruled
  constructor
  · rintro ⟨-, unwatched⟩
    by_contra open_
    exact unwatched r ⟨found, by simpa using open_⟩
  · intro suppressed
    refine ⟨ruled, fun r' watches => ?_⟩
    exact absurd (suppressed.symm.trans watches.2) (by decide)

variable [LT K] [DecidableLT K] [ToString K]

/-- An ignored sample leaves no trace. -/
theorem Ignores.evaluate (ignores : e.Ignores pid) (value : K) (nowMono : Int) (nowEpoch : Nat) :
    e.evaluate pid value nowMono nowEpoch = (e, []) := by
  obtain ⟨r, found⟩ := Option.isSome_iff_exists.mp ignores.1
  simp only [AlarmEngine.evaluate, found, (ignores_iff ignores.1).mp ignores, if_true]

/-- Any other sample of a point with a rule is at least noted. -/
theorem noted_of_not_ignores (ruled : (e.rules pid).isSome = true) (heard : ¬e.Ignores pid) (value : K) (nowMono : Int)
    (nowEpoch : Nat) : ((e.evaluate pid value nowMono nowEpoch).1.stateOf pid).pointId = pid ∧
      ((e.evaluate pid value nowMono nowEpoch).1.stateOf pid).lastRaw = value := by
  have seen : (e.seen pid value).pointId = pid ∧ (e.seen pid value).lastRaw = value := ⟨rfl, rfl⟩
  have on : ((e.seen pid value).awaitOn nowMono).pointId = pid ∧
      ((e.seen pid value).awaitOn nowMono).lastRaw = value := by
    unfold PointAlarmState.awaitOn
    split <;> exact seen
  have off : ((e.seen pid value).awaitOff nowMono).pointId = pid ∧
      ((e.seen pid value).awaitOff nowMono).lastRaw = value := by
    unfold PointAlarmState.awaitOff
    split <;> exact seen
  have effect := evaluated (e := e) pid value nowMono nowEpoch
  cases effect with
  | ignored unwatched same silent => exact absurd ⟨ruled, unwatched⟩ heard
  | waitsOn r watches on' moves early quiet => rw [moves.own]; exact on
  | swallows r due window moves quiet => rw [moves.own]; exact on
  | raises r due window moves seq queue published => rw [moves.own]; exact on
  | waitsOff r watches on' off' early moves quiet => rw [moves.own]; exact off
  | calms r watches on' off' elapsed idle moves quiet => rw [moves.own]; exact off
  | recovers r watches on' off' elapsed alarming moves seq queue told => rw [moves.own]; exact off
  | between r watches on' off' moves quiet => rw [moves.own]; exact seen

/-- A sample of a point with a rule leaves no trace as long as the latest call lasts, and is
evaluated otherwise. -/
def Honours (e : AlarmEngine K) (calls : UInt32 → Option SuppressCall) : AlarmInput K → Prop
  | .dataUpdated pid value nowMono nowEpoch =>
      (e.rules pid).isSome = true →
        ((∃ c, calls pid = some c ∧ c.Lasts nowEpoch) →
          e.Ignores pid ∧ e.evaluate pid value nowMono nowEpoch = (e, [])) ∧
        ((¬∃ c, calls pid = some c ∧ c.Lasts nowEpoch) →
          ¬e.Ignores pid ∧ ((e.evaluate pid value nowMono nowEpoch).1.stateOf pid).pointId = pid ∧
            ((e.evaluate pid value nowMono nowEpoch).1.stateOf pid).lastRaw = value)
  | _ => True

/-- Suppression honours its expiry at an input exactly when the latest call is timely there. -/
theorem Suppresses.honours_iff {s : AlarmEngine K × (UInt32 → Option SuppressCall)} (holds : Suppresses s)
    (input : AlarmInput K) : s.1.Honours s.2 input ↔ s.1.Timely s.2 input := by
  cases input with
  | dataUpdated pid value nowMono nowEpoch =>
    refine forall_congr' fun ruled => ?_
    have ignored : s.1.Ignores pid ↔ ∃ c, s.2 pid = some c ∧ c.Takes := (ignores_iff ruled).trans (holds pid)
    constructor
    · rintro ⟨silent, heard⟩ expires arrived latest
      constructor
      · intro takes
        by_contra ended
        refine (heard ?_).1 (ignored.mpr ⟨_, latest, takes⟩)
        rintro ⟨c, same, lasts⟩
        obtain rfl := Option.some.inj (latest.symm.trans same)
        exact ended lasts
      · intro lasts
        obtain ⟨c, same, takes⟩ := ignored.mp (silent ⟨_, latest, lasts⟩).1
        obtain rfl := Option.some.inj (latest.symm.trans same)
        exact takes
    · intro timely
      have agree : s.1.Ignores pid ↔ ∃ c, s.2 pid = some c ∧ c.Lasts nowEpoch := by
        rw [ignored]
        refine exists_congr fun c => and_congr_right fun latest => ?_
        cases c with
        | suppress expires arrived => exact timely expires arrived latest
        | unsuppress => exact Iff.rfl
      constructor
      · intro lasts
        have ignores := agree.mpr lasts
        exact ⟨ignores, ignores.evaluate value nowMono nowEpoch⟩
      · intro ended
        have heard := mt agree.mp ended
        exact ⟨heard, noted_of_not_ignores ruled heard value nowMono nowEpoch⟩
  | _ => exact Iff.rfl

end Ignored

variable [LT K] [DecidableLT K] [BEq K] [ToString K]

/-- Only the two calls change the set. -/
theorem suppressedPoints_step (e : AlarmEngine K) (input : AlarmInput K) : (e.step input).1.suppressedPoints =
    match input with
    | .suppressPoint pointId expireTimeEpoch nowEpoch =>
        Function.update e.suppressedPoints pointId (nowEpoch < expireTimeEpoch)
    | .unsuppressPoint pointId => Function.update e.suppressedPoints pointId false
    | _ => e.suppressedPoints := by
  have acknowledged : ∀ (d : AlarmEngine K) alarmId user,
      (d.acknowledgeAlarm alarmId user).1.suppressedPoints = d.suppressedPoints := by
    intro d alarmId user
    rcases acknowledgeAlarm_cases (e := d) alarmId user with same | ⟨pid, active, named, confirmed⟩
    · rw [same]
    · rw [confirmed, setState_suppressedPoints]
  cases input with
  | dataUpdated pid value nowMono nowEpoch =>
    have effect := evaluated (e := e) pid value nowMono nowEpoch
    cases effect with
    | ignored unwatched same silent => exact congrArg _ same
    | waitsOn r watches on moves early quiet => exact moves.suppressedPoints
    | swallows r due window moves quiet => exact moves.suppressedPoints
    | raises r due window moves seq queue published => exact moves.suppressedPoints
    | waitsOff r watches on off early moves quiet => exact moves.suppressedPoints
    | calms r watches on off elapsed idle moves quiet => exact moves.suppressedPoints
    | recovers r watches on off elapsed alarming moves seq queue told => exact moves.suppressedPoints
    | between r watches on off moves quiet => exact moves.suppressedPoints
  | acknowledgeAlarm alarmId user => exact acknowledged e alarmId user
  | acknowledgeAlarms ids user =>
    exact acknowledgeAlarms_keeps (I := fun d => d.suppressedPoints = e.suppressedPoints)
      (fun d id same => (acknowledged d id user).trans same) ids rfl
  | stormFlush nowMono =>
    rcases onStormFlush_cases (e := e) nowMono with ⟨-, same⟩ | ⟨-, active, rest, -, same⟩
    all_goals
      rw [step, same]
  | _ => rfl

def suppressing : Runs.Step (AlarmEngine K × (UInt32 → Option SuppressCall)) (AlarmInput K) (AlarmSignal K) :=
  Runs.watch step fun _ calls input _ => trackCalls calls input

theorem Suppresses.step {s : AlarmEngine K × (UInt32 → Option SuppressCall)} (holds : Suppresses s)
    (input : AlarmInput K) : Suppresses (suppressing s input).1 := by
  intro p
  simp only [suppressing, Runs.watch_fst, Runs.watch_snd, suppressedPoints_step]
  cases input with
  | suppressPoint pointId expireTimeEpoch nowEpoch =>
    simp only [trackCalls]
    by_cases own : p = pointId
    · simp [own, SuppressCall.Takes]
    · simp only [Function.update_of_ne own]
      exact holds p
  | unsuppressPoint pointId =>
    simp only [trackCalls]
    by_cases own : p = pointId
    · simp [own, SuppressCall.Takes]
    · simp only [Function.update_of_ne own]
      exact holds p
  | _ => exact holds p

/-- Over a run every sample is rightly ignored or heard exactly when none comes at or after the
expiry of the call that its point is suppressed by (nor before that of a call that came late). -/
theorem suppression_iff (inputs : List (AlarmInput K)) :
    (∀ v ∈ Runs.visits suppressing (({} : AlarmEngine K), fun _ => none) inputs, v.1.1.Honours v.1.2 v.2) ↔
      ∀ v ∈ Runs.visits suppressing (({} : AlarmEngine K), fun _ => none) inputs, v.1.1.Timely v.1.2 v.2 := by
  refine forall₂_congr fun v visited => ?_
  have holds := Runs.reached_always suppressing inputs (I := Suppresses) (fun pid => by simp)
    (fun _ input holds => holds.step input) v.1 (Runs.visit_mem_reached visited).1
  exact holds.honours_iff v.2

/-- A point that is suppressed until the time 2000, and a sample of it at 3000. -/
def expiredSuppression : List (AlarmInput Int) :=
  [.reloadRules [{ pointId := 1, onThreshold := 10, offThreshold := 5 }], .suppressPoint 1 2000 1000,
    .dataUpdated 1 20 500 3000]

/-- The suppression outlives its expiry. -/
theorem suppression_fails : ¬∀ v ∈ Runs.visits suppressing (({} : AlarmEngine Int), fun _ => none) expiredSuppression,
    v.1.1.Honours v.1.2 v.2 := by
  intro honours
  have visited : (Runs.run suppressing (({} : AlarmEngine Int), fun _ => none) (expiredSuppression.take 2),
      AlarmInput.dataUpdated 1 20 500 3000) ∈ Runs.visits suppressing (({} : AlarmEngine Int), fun _ => none)
        expiredSuppression := by simp [expiredSuppression, Runs.visits, Runs.run]
  have ruled : ((Runs.run suppressing (({} : AlarmEngine Int), fun _ => none)
      (expiredSuppression.take 2)).1.rules 1).isSome = true := by decide +kernel
  have latest : (Runs.run suppressing (({} : AlarmEngine Int), fun _ => none) (expiredSuppression.take 2)).2 1 =
      some (.suppress 2000 1000) := by decide +kernel
  have suppressed : (Runs.run suppressing (({} : AlarmEngine Int), fun _ => none)
      (expiredSuppression.take 2)).1.suppressedPoints 1 = true := by decide +kernel
  refine ((honours _ visited ruled).2 ?_).1 ((ignores_iff ruled).mpr suppressed)
  rintro ⟨c, same, lasts⟩
  obtain rfl := Option.some.inj (latest.symm.trans same)
  exact absurd lasts (by decide : ¬3000 < 2000)

end AlarmEngine
end EnerSentry.Business
