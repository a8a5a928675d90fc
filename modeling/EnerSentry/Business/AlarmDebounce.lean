import EnerSentry.Business.AlarmTransitions

/-!
The on and off delays. A log beside the engine keeps, for each point, the samples
evaluated since its rule last changed direction or thresholds. In a run that never meets
a timer left over from an earlier excursion, an alarm is raised only at the end of an
unbroken stretch of on-side samples as long as the on-delay, and recovered only at the
end of such a stretch on the off-side.
-/

namespace EnerSentry.Business
open EnerSentry.Lib

/-- One evaluated sample: when it was, and on which side of the rule of that moment. -/
structure Observation where
  mono : Int
  on : Bool
  off : Bool
  deriving DecidableEq, Repr

/-- The log ends in a stretch on one side that began at least `delay` ago. -/
def HeldFor (side : Observation → Bool) (delay now : Int) (log : List Observation) : Prop :=
  ∃ before first later, log = before ++ first :: later ∧ (∀ o ∈ first :: later, side o = true) ∧
    first.mono ≤ now - delay

/-- The log ends in a stretch on one side that began at `since`. -/
def StretchSince (side : Observation → Bool) (since : Int) (log : List Observation) : Prop :=
  ∃ before first later, log = before ++ first :: later ∧ (∀ o ∈ first :: later, side o = true) ∧
    first.mono = since

section Stretch
variable {side : Observation → Bool} {since delay now : Int} {log : List Observation} {o : Observation}

theorem StretchSince.concat (stretch : StretchSince side since log) (same : side o = true) :
    StretchSince side since (log ++ [o]) := by
  obtain ⟨before, first, later, split, held, start⟩ := stretch
  refine ⟨before, first, later ++ [o], ?_, ?_, start⟩
  · rw [split, List.append_assoc, List.cons_append]
  · intro x member
    rw [← List.cons_append] at member
    rcases List.mem_append.mp member with earlier | last
    · exact held x earlier
    · rw [List.mem_singleton.mp last]
      exact same

theorem stretchSince_start (same : side o = true) : StretchSince side o.mono (log ++ [o]) := by
  refine ⟨log, o, [], rfl, ?_, rfl⟩
  intro x member
  rw [List.mem_singleton.mp member]
  exact same

theorem StretchSince.heldFor (stretch : StretchSince side since log) (elapsed : delay ≤ now - since) :
    HeldFor side delay now log := by
  obtain ⟨before, first, later, split, held, start⟩ := stretch
  exact ⟨before, first, later, split, held, by omega⟩

/-- A stretch that ends in `o` after a sample off its side is `o` alone. -/
theorem HeldFor.restarted {x : Observation} (held : HeldFor side delay now (log ++ [x] ++ [o]))
    (left : side x = false) : o.mono ≤ now - delay := by
  obtain ⟨before, first, later, split, onSide, start⟩ := held
  rcases List.eq_nil_or_concat later with rfl | ⟨middle, last, rfl⟩
  · have same := List.append_inj_right' split rfl
    rw [List.singleton_inj.mp same]
    exact start
  · rw [List.concat_eq_append, ← List.cons_append, ← List.append_assoc] at split
    have earlier := List.append_inj_left' split rfl
    have ends : (first :: middle).getLast? = some x := by
      rw [← List.getLast?_append_of_ne_nil before (List.cons_ne_nil first middle), ← earlier,
        List.getLast?_concat]
    have member : x ∈ first :: (middle ++ [last]) :=
      List.mem_append_left [last] (List.mem_of_getLast? ends)
    have inside := onSide x (by rwa [List.concat_eq_append])
    rw [left] at inside
    exact absurd inside Bool.false_ne_true

end Stretch

namespace PointAlarmState
variable {K : Type*} [Zero K]

/-- Each running timer began with a stretch of the log that has not been left since. -/
structure Timed (st : PointAlarmState K) (log : List Observation) : Prop where
  on : st.pendingOn = true → StretchSince Observation.on st.onSinceMono log
  off : st.pendingOff = true → StretchSince Observation.off st.offSinceMono log

variable {st : PointAlarmState K} {log : List Observation} {o : Observation}

theorem timed_of_still (on : st.pendingOn = false) (off : st.pendingOff = false) : st.Timed log :=
  ⟨fun pending => by simp [on] at pending, fun pending => by simp [off] at pending⟩

/-- An on-side sample goes on with the on-timer or starts it, if no off-timer is left over. -/
theorem Timed.awaitOn (timed : st.Timed log) (side : o.on = true) (stale : st.pendingOff = false) :
    (st.awaitOn o.mono).Timed (log ++ [o]) := by
  unfold PointAlarmState.awaitOn
  split
  · exact ⟨fun _ => stretchSince_start side, fun pending => by simp [stale] at pending⟩
  · exact ⟨fun pending => (timed.on pending).concat side, fun pending => by simp [stale] at pending⟩

theorem Timed.awaitOff (timed : st.Timed log) (side : o.off = true) (stale : st.pendingOn = false) :
    (st.awaitOff o.mono).Timed (log ++ [o]) := by
  unfold PointAlarmState.awaitOff
  split
  · exact ⟨fun pending => by simp [stale] at pending, fun _ => stretchSince_start side⟩
  · exact ⟨fun pending => by simp [stale] at pending, fun pending => (timed.off pending).concat side⟩

end PointAlarmState

namespace AlarmEngine
variable {K : Type*} [Zero K]

section Rules
variable [BEq K]

/-- Two rules of a point with the same direction and thresholds. -/
def sameLimits : Option (AlarmRule K) → Option (AlarmRule K) → Bool
  | some old, some new => old.direction == new.direction && !(old.onThreshold != new.onThreshold) &&
      !(old.offThreshold != new.offThreshold)
  | _, _ => false

variable [LT K] [DecidableLT K] [ToString K]

/-- The evaluated samples of each point under its present limits. -/
def trackObservations (e : AlarmEngine K) (log : UInt32 → List Observation) (input : AlarmInput K)
    (_ : List (AlarmSignal K)) : UInt32 → List Observation :=
  match input with
  | .dataUpdated pid value nowMono _ =>
      match e.rules pid with
      | none => log
      | some r =>
          if e.suppressedPoints pid then log
          else Function.update log pid
            (log pid ++ [⟨nowMono, r.inOnSide value, !r.inOnSide value && r.inOffSide value⟩])
  | .reloadRules rules => fun p => if sameLimits (e.rules p) (newRules rules p) then log p else []
  | _ => log

/-- An input that meets a timer left over from the other side, or turns a rule round under
a running timer. -/
def staleTimer (e : AlarmEngine K) : AlarmInput K → Bool
  | .dataUpdated pid value _ _ =>
      match e.rules pid with
      | none => false
      | some r => !e.suppressedPoints pid &&
          if r.inOnSide value then (e.stateOf pid).pendingOff
          else r.inOffSide value && (e.stateOf pid).pendingOn
  | .reloadRules rules => e.states.toList.any (fun x =>
      match e.rules x.1, newRules rules x.1 with
      | some old, some new => (x.2.pendingOn || x.2.pendingOff) && old.direction != new.direction &&
          !old.retuned new
      | _, _ => false)
  | _ => false

end Rules

/-- The engine beside its observation log. -/
abbrev Observed (K : Type*) [Zero K] := AlarmEngine K × (UInt32 → List Observation)

/-- Every timer of the engine is backed by its point's log, and no point without a rule
has one. -/
structure Timed (s : Observed K) : Prop where
  point : ∀ p, (s.1.stateOf p).Timed (s.2 p)
  ruled : ∀ p, s.1.rules p = none → (s.1.stateOf p).pendingOn = false ∧ (s.1.stateOf p).pendingOff = false

theorem Timed.acknowledged {e : AlarmEngine K} {log : UInt32 → List Observation} (timed : Timed (e, log))
    (alarmId : Nat) (user : String) :
    Timed ((e.acknowledgeAlarm alarmId user).1, log) := by
  rcases acknowledgeAlarm_cases (e := e) alarmId user with same | ⟨pid, active, named, confirmed⟩
  · rw [same]
    exact timed
  · rw [confirmed]
    constructor
    · intro p
      simp only [stateOf_setState]
      by_cases same : p = pid
      · rw [same, Function.update_self]
        exact ⟨(timed.point pid).on, (timed.point pid).off⟩
      · rw [Function.update_of_ne same]
        exact timed.point p
    · intro p gone
      simp only [stateOf_setState]
      by_cases same : p = pid
      · rw [same, Function.update_self]
        exact timed.ruled pid (same ▸ gone)
      · rw [Function.update_of_ne same]
        exact timed.ruled p gone

section Log
variable [BEq K] [LT K] [DecidableLT K]
variable {e d : AlarmEngine K} {log : UInt32 → List Observation} {pid : UInt32} {value : K}
  {nowMono : Int} {nowEpoch : Nat} {r : AlarmRule K} {signals : List (AlarmSignal K)}

/-- What a sample adds to its point's log. -/
def observation (r : AlarmRule K) (value : K) (nowMono : Int) : Observation :=
  ⟨nowMono, r.inOnSide value, !r.inOnSide value && r.inOffSide value⟩

theorem track_watched (watches : e.Watches pid r) :
    trackObservations e log (.dataUpdated pid value nowMono nowEpoch) signals =
      Function.update log pid (log pid ++ [observation r value nowMono]) := by
  simp [trackObservations, watches.1, watches.2, observation]

theorem track_ignored (unwatched : ∀ r, ¬e.Watches pid r) :
    trackObservations e log (.dataUpdated pid value nowMono nowEpoch) signals = log := by
  cases rule : e.rules pid with
  | none => simp [trackObservations, rule]
  | some r =>
    have maintained : e.suppressedPoints pid = true := by
      by_contra live
      exact unwatched r ⟨rule, by simpa using live⟩
    simp [trackObservations, rule, maintained]

theorem not_stale_on (watches : e.Watches pid r) (on : r.inOnSide value = true)
    (fresh : e.staleTimer (.dataUpdated pid value nowMono nowEpoch) = false) :
    (e.stateOf pid).pendingOff = false := by
  simpa [staleTimer, watches.1, watches.2, on] using fresh

theorem not_stale_off (watches : e.Watches pid r) (on : r.inOnSide value = false)
    (off : r.inOffSide value = true)
    (fresh : e.staleTimer (.dataUpdated pid value nowMono nowEpoch) = false) :
    (e.stateOf pid).pendingOn = false := by
  simpa [staleTimer, watches.1, watches.2, on, off] using fresh

/-- A sample only touches its own point's timers and log. -/
theorem Timed.sample {st : PointAlarmState K} (timed : Timed (e, log)) (watches : e.Watches pid r)
    (moves : Moves e d pid st) (own : st.Timed (log pid ++ [observation r value nowMono])) :
    Timed (d, trackObservations e log (.dataUpdated pid value nowMono nowEpoch) signals) := by
  constructor
  · intro p
    simp only [moves.stateOf, track_watched watches]
    by_cases same : p = pid
    · rw [same, Function.update_self, Function.update_self]
      exact own
    · rw [Function.update_of_ne same, Function.update_of_ne same]
      exact timed.point p
  · intro p gone
    have other : p ≠ pid := by
      intro same
      rw [moves.rules, same, watches.1] at gone
      exact absurd gone (by simp)
    simp only [moves.stateOf, Function.update_of_ne other]
    rw [moves.rules] at gone
    exact timed.ruled p gone

/-- A reload that is not stale turns no rule round under a running timer. -/
theorem not_stale_turned {rules : List (AlarmRule K)} {p : UInt32} {old new : AlarmRule K}
    (fresh : e.staleTimer (.reloadRules rules) = false) (was : e.rules p = some old)
    (now : newRules rules p = some new) (turned : old.direction ≠ new.direction)
    (kept : old.retuned new = false) :
    (e.stateOf p).pendingOn = false ∧ (e.stateOf p).pendingOff = false := by
  cases stored : e.states[p]? with
  | none => simp [stateOf, stored]
  | some st =>
    have member := Std.TreeMap.mem_toList_iff_getElem?_eq_some.mpr stored
    simp only [staleTimer, List.any_eq_false] at fresh
    have calm := fresh _ member
    simp only [was, now, kept, Bool.not_false, Bool.and_true, Bool.and_eq_true, bne_iff_ne, ne_eq,
      turned, not_false_eq_true, and_true, Bool.or_eq_true, not_or, Bool.not_eq_true] at calm
    simpa [stateOf, stored] using calm

end Log

variable [BEq K] [LT K] [DecidableLT K] [ToString K]

/-- An alarm is raised at the end of an on-side stretch as long as the delay. It is
recovered at the end of an off-side one, or by force when its rule is removed. -/
structure Debounced (s : Observed K) (input : AlarmInput K) : Prop where
  raised : (s.1.step input).1.alarmIdSeq ≠ s.1.alarmIdSeq →
    ∃ pid value nowMono nowEpoch r, input = .dataUpdated pid value nowMono nowEpoch ∧
      s.1.rules pid = some r ∧ HeldFor Observation.on r.onDelayMs.toNat nowMono
        (trackObservations s.1 s.2 input (s.1.step input).2 pid)
  recovered : ∀ id, .alarmRecovered id ∈ (s.1.step input).2 →
    (∃ pid value nowMono nowEpoch r, input = .dataUpdated pid value nowMono nowEpoch ∧
      s.1.rules pid = some r ∧ (s.1.stateOf pid).activeId = id ∧
        HeldFor Observation.off r.offDelayMs.toNat nowMono
          (trackObservations s.1 s.2 input (s.1.step input).2 pid)) ∨
    ∃ rules pid, input = .reloadRules rules ∧ newRules rules pid = none ∧
      (s.1.stateOf pid).activeId = id

def observed : Runs.Step (Observed K) (AlarmInput K) (AlarmSignal K) := Runs.watch step trackObservations

variable {e d : AlarmEngine K} {log : UInt32 → List Observation} {pid : UInt32} {value : K}
  {nowMono : Int} {nowEpoch : Nat} {r : AlarmRule K} {signals : List (AlarmSignal K)}

theorem timed_sample (timed : Timed (e, log))
    (fresh : e.staleTimer (.dataUpdated pid value nowMono nowEpoch) = false) :
    Timed (observed (e, log) (.dataUpdated pid value nowMono nowEpoch)).1 := by
  have own : (e.seen pid value).Timed (log pid) := ⟨(timed.point pid).on, (timed.point pid).off⟩
  have effect := evaluated (e := e) pid value nowMono nowEpoch
  simp only [observed, Runs.watch, step]
  cases effect with
  | ignored unwatched same silent =>
    rw [track_ignored unwatched, same]
    exact timed
  | waitsOn r watches on moves early quiet =>
    exact timed.sample watches moves (own.awaitOn (o := observation r value nowMono) on
      (not_stale_on watches on fresh))
  | swallows r due window moves quiet =>
    have awaits := own.awaitOn (o := observation r value nowMono) due.on
      (not_stale_on due.watches due.on fresh)
    exact timed.sample due.watches moves ⟨fun pending => by simp at pending, awaits.off⟩
  | raises r due window moves seq queue published =>
    have awaits := own.awaitOn (o := observation r value nowMono) due.on
      (not_stale_on due.watches due.on fresh)
    exact timed.sample due.watches moves ⟨fun pending => by simp at pending, awaits.off⟩
  | waitsOff r watches on off early moves quiet =>
    exact timed.sample watches moves (own.awaitOff (o := observation r value nowMono)
      (by simp [observation, on, off]) (not_stale_off watches on off fresh))
  | calms r watches on off elapsed idle moves quiet =>
    have awaits := own.awaitOff (o := observation r value nowMono) (by simp [observation, on, off])
      (not_stale_off watches on off fresh)
    exact timed.sample watches moves ⟨awaits.on, fun pending => by simp at pending⟩
  | recovers r watches on off elapsed alarming moves seq queue told =>
    exact timed.sample watches moves (PointAlarmState.timed_of_still rfl rfl)
  | between r watches on off moves quiet =>
    exact timed.sample watches moves (PointAlarmState.timed_of_still rfl rfl)

/-- An id is issued to a sample that ends an on-side stretch as long as the delay. -/
theorem raised_sample (timed : Timed (e, log))
    (fresh : e.staleTimer (.dataUpdated pid value nowMono nowEpoch) = false)
    (raised : (e.evaluate pid value nowMono nowEpoch).1.alarmIdSeq ≠ e.alarmIdSeq) :
    ∃ r, e.Watches pid r ∧
      HeldFor Observation.on r.onDelayMs.toNat nowMono (log pid ++ [observation r value nowMono]) := by
  have own : (e.seen pid value).Timed (log pid) := ⟨(timed.point pid).on, (timed.point pid).off⟩
  have effect := evaluated (e := e) pid value nowMono nowEpoch
  cases effect with
  | raises r due window moves seq queue published =>
    have awaits := own.awaitOn (o := observation r value nowMono) due.on
      (not_stale_on due.watches due.on fresh)
    have elapsed := due.elapsed
    simp only [PointAlarmState.onElapsed, Bool.and_eq_true, decide_eq_true_eq] at elapsed
    exact ⟨r, due.watches, (awaits.on elapsed.1).heldFor elapsed.2⟩
  | ignored unwatched same silent => exact absurd (congrArg AlarmEngine.alarmIdSeq same) raised
  | waitsOn r watches on moves early quiet => exact absurd quiet.alarmIdSeq raised
  | swallows r due window moves quiet => exact absurd quiet.alarmIdSeq raised
  | waitsOff r watches on off early moves quiet => exact absurd quiet.alarmIdSeq raised
  | calms r watches on off elapsed idle moves quiet => exact absurd quiet.alarmIdSeq raised
  | recovers r watches on off elapsed alarming moves seq queue told => exact absurd seq raised
  | between r watches on off moves quiet => exact absurd quiet.alarmIdSeq raised

/-- An alarm is recovered by a sample that ends an off-side stretch as long as the delay. -/
theorem recovered_sample (timed : Timed (e, log))
    (fresh : e.staleTimer (.dataUpdated pid value nowMono nowEpoch) = false) {id : Nat}
    (told : .alarmRecovered id ∈ (e.evaluate pid value nowMono nowEpoch).2) :
    ∃ r, e.Watches pid r ∧ (e.stateOf pid).activeId = id ∧
      HeldFor Observation.off r.offDelayMs.toNat nowMono (log pid ++ [observation r value nowMono]) := by
  have own : (e.seen pid value).Timed (log pid) := ⟨(timed.point pid).on, (timed.point pid).off⟩
  have effect := evaluated (e := e) pid value nowMono nowEpoch
  cases effect with
  | recovers r watches on off elapsed alarming moves seq queue reported =>
    rw [reported, List.mem_singleton] at told
    have awaits := own.awaitOff (o := observation r value nowMono) (by simp [observation, on, off])
      (not_stale_off watches on off fresh)
    simp only [PointAlarmState.offElapsed, Bool.and_eq_true, decide_eq_true_eq] at elapsed
    exact ⟨r, watches, (AlarmSignal.alarmRecovered.inj told).symm, (awaits.off elapsed.1).heldFor elapsed.2⟩
  | raises r due window moves seq queue published =>
    rw [published] at told
    split at told
    · simp at told
    · exact absurd told (recovered_not_mem_publish _ _)
  | ignored unwatched same silent => simp [silent] at told
  | waitsOn r watches on moves early quiet => simp [quiet.signals] at told
  | swallows r due window moves quiet => simp [quiet.signals] at told
  | waitsOff r watches on off early moves quiet => simp [quiet.signals] at told
  | calms r watches on off elapsed idle moves quiet => simp [quiet.signals] at told
  | between r watches on off moves quiet => simp [quiet.signals] at told

/-- A completed delay is a stretch of that length in the log. -/
theorem debounced_sample (timed : Timed (e, log))
    (fresh : e.staleTimer (.dataUpdated pid value nowMono nowEpoch) = false) :
    Debounced (e, log) (.dataUpdated pid value nowMono nowEpoch) := by
  constructor
  · intro raised
    obtain ⟨r, watches, held⟩ := raised_sample timed fresh raised
    refine ⟨pid, value, nowMono, nowEpoch, r, rfl, watches.1, ?_⟩
    rw [track_watched watches, Function.update_self]
    exact held
  · intro id told
    obtain ⟨r, watches, active, held⟩ := recovered_sample timed fresh told
    refine Or.inl ⟨pid, value, nowMono, nowEpoch, r, rfl, watches.1, active, ?_⟩
    rw [track_watched watches, Function.update_self]
    exact held

theorem timed_reload {rules : List (AlarmRule K)} (timed : Timed (e, log))
    (fresh : e.staleTimer (.reloadRules rules) = false) :
    Timed (observed (e, log) (.reloadRules rules)).1 := by
  have state : ∀ p, (e.doReloadRules rules).1.stateOf p = _ := stateOf_doReloadRules rules
  constructor
  · intro p
    simp only [observed, Runs.watch, step, state, trackObservations]
    cases now : newRules rules p with
    | none => exact PointAlarmState.timed_of_still rfl rfl
    | some new =>
      cases was : e.rules p with
      | none =>
        obtain ⟨on, off⟩ := timed.ruled p was
        simp only [Option.getD_none]
        split
        · exact PointAlarmState.timed_of_still rfl rfl
        · exact PointAlarmState.timed_of_still on off
      | some old =>
        simp only [Option.getD_some]
        by_cases retuned : old.retuned new = true
        · rw [if_pos retuned]
          exact PointAlarmState.timed_of_still rfl rfl
        · rw [if_neg retuned]
          have kept : old.retuned new = false := by simpa using retuned
          by_cases turned : old.direction = new.direction
          · have same : sameLimits (some old) (some new) = true := by
              simp only [AlarmRule.retuned, Bool.or_eq_false_iff] at kept
              simp [sameLimits, turned, kept.1.1, kept.1.2]
            rw [if_pos same]
            exact timed.point p
          · obtain ⟨on, off⟩ := not_stale_turned fresh was now turned kept
            exact PointAlarmState.timed_of_still on off
  · intro p gone
    simp only [observed, Runs.watch, step, state] at gone ⊢
    have none : newRules rules p = none := gone
    rw [none]
    exact ⟨rfl, rfl⟩

theorem debounced_reload (rules : List (AlarmRule K)) : Debounced (e, log) (.reloadRules rules) := by
  constructor
  · intro raised
    exact absurd rfl raised
  · intro id told
    refine Or.inr ?_
    simp only [step, doReloadRules, List.mem_map, orphans, List.mem_filterMap] at told
    obtain ⟨_, ⟨x, member, orphan⟩, same⟩ := told
    have stored := Std.TreeMap.mem_toList_iff_getElem?_eq_some.mp member
    have own : e.stateOf x.1 = x.2 := by rw [stateOf, stored, Option.getD_some]
    split at orphan
    · rename_i gone
      simp only [Bool.and_eq_true, Option.isNone_iff_eq_none] at gone
      refine ⟨rules, x.1, rfl, gone.1, ?_⟩
      rw [own, Option.some.inj orphan, AlarmSignal.alarmRecovered.inj same]
    · simp at orphan

theorem timed_step (timed : Timed (e, log)) (input : AlarmInput K) (fresh : e.staleTimer input = false) :
    Timed (observed (e, log) input).1 := by
  cases input with
  | dataUpdated pid value nowMono nowEpoch => exact timed_sample timed fresh
  | reloadRules rules => exact timed_reload timed fresh
  | suppressPoint pointId expireTimeEpoch nowEpoch => exact ⟨timed.point, timed.ruled⟩
  | unsuppressPoint pointId => exact ⟨timed.point, timed.ruled⟩
  | setStormConfig cfg => exact ⟨timed.point, timed.ruled⟩
  | acknowledgeAlarm alarmId user => exact timed.acknowledged alarmId user
  | acknowledgeAlarms ids user =>
    exact acknowledgeAlarms_keeps (I := fun d => Timed (d, log))
      (fun d id holds => holds.acknowledged id user) ids timed
  | stormFlush nowMono =>
    rcases onStormFlush_cases (e := e) nowMono with ⟨-, same⟩ | ⟨-, active, rest, -, same⟩
    all_goals
      simp only [observed, Runs.watch, step, same, trackObservations]
      exact ⟨timed.point, timed.ruled⟩

/-- Inputs that neither issue nor recover an alarm. -/
theorem debounced_of_calm {input : AlarmInput K} (seq : (e.step input).1.alarmIdSeq = e.alarmIdSeq)
    (silent : ∀ id, .alarmRecovered id ∉ (e.step input).2) : Debounced (e, log) input :=
  ⟨fun raised => absurd seq raised, fun id told => absurd told (silent id)⟩

theorem debounced_step (timed : Timed (e, log)) (input : AlarmInput K) (fresh : e.staleTimer input = false) :
    Debounced (e, log) input := by
  cases input with
  | dataUpdated pid value nowMono nowEpoch => exact debounced_sample timed fresh
  | reloadRules rules => exact debounced_reload rules
  | suppressPoint pointId expireTimeEpoch nowEpoch => exact debounced_of_calm rfl (by simp [step])
  | unsuppressPoint pointId => exact debounced_of_calm rfl (by simp [step])
  | setStormConfig cfg => exact debounced_of_calm rfl (by simp [step])
  | acknowledgeAlarm alarmId user =>
    exact debounced_of_calm (acknowledgeAlarm_frame alarmId user).2.2.1
      (by simp [step, acknowledgeAlarm_signals])
  | acknowledgeAlarms ids user =>
    exact debounced_of_calm (acknowledgeAlarms_frame ids user).2.2.1
      (by simp [step, acknowledgeAlarms_signals])
  | stormFlush nowMono =>
    rcases onStormFlush_cases (e := e) nowMono with ⟨-, same⟩ | ⟨-, active, rest, ended, same⟩
    · apply debounced_of_calm
      · rw [step, same]
      · simp [step, same]
    · apply debounced_of_calm
      · rw [step, same]
      · rcases ended with rfl | rfl <;> simp [step, same]

/-- In a run without stale timers every alarm is raised and recovered at the end of a
stretch of samples as long as its delay. -/
theorem debounce_holds (inputs : List (AlarmInput K))
    (fresh : ∀ v ∈ Runs.visits step ({} : AlarmEngine K) inputs, v.1.staleTimer v.2 = false) :
    ∀ v ∈ Runs.visits observed (({} : AlarmEngine K), fun _ => []) inputs, Debounced v.1 v.2 := by
  rw [← Runs.visits_watch step trackObservations (({} : AlarmEngine K), fun _ => []),
    List.forall_mem_map] at fresh
  intro v visited
  have start : Timed (({} : AlarmEngine K), fun _ => []) :=
    ⟨fun p => PointAlarmState.timed_of_still rfl rfl, fun p _ => ⟨rfl, rfl⟩⟩
  have timed := Runs.reached_invariant observed inputs (I := Timed)
    (A := fun s input => s.1.staleTimer input = false) start
    (fun s input holds calm => timed_step holds input calm) fresh v.1 (Runs.visit_mem_reached visited).1
  exact debounced_step timed v.2 (fresh v visited)

/-- A point beyond its limit for its delay, back again, and recovered after the off-delay. -/
def cleanExcursion : List (AlarmInput Int) :=
  [.reloadRules [{ pointId := 1, onThreshold := 10, offThreshold := 5 }],
    .dataUpdated 1 20 100000 0, .dataUpdated 1 20 103000 0, .dataUpdated 1 7 104000 0,
    .dataUpdated 1 3 105000 0, .dataUpdated 1 3 108000 0]

theorem debounce_holds_clean :
    (Runs.run step ({} : AlarmEngine Int) cleanExcursion).alarmIdSeq = 1 ∧
      ∀ v ∈ Runs.visits observed (({} : AlarmEngine Int), fun _ => []) cleanExcursion, Debounced v.1 v.2 :=
  ⟨by decide +kernel, debounce_holds cleanExcursion (by decide +kernel)⟩

/-- Beyond the limit, straight back to the other side, and beyond it again much later. -/
def straightDrop : List (AlarmInput Int) :=
  [.reloadRules [{ pointId := 1, onThreshold := 10, offThreshold := 5 }],
    .dataUpdated 1 20 100000 0, .dataUpdated 1 3 101000 0]

/-- The timer of the first excursion is still running, so the second one raises at once. -/
theorem debounce_fails :
    ¬∀ v ∈ Runs.visits observed (({} : AlarmEngine Int), fun _ => [])
      (straightDrop ++ [.dataUpdated 1 20 104000 0]), Debounced v.1 v.2 := by
  intro holds
  have last := holds (Runs.run observed (({} : AlarmEngine Int), fun _ => []) straightDrop,
    .dataUpdated 1 20 104000 0) (by rw [Runs.visits_concat]; exact List.mem_append_right _ (List.mem_singleton.mpr rfl))
  obtain ⟨pid, value, nowMono, nowEpoch, r, same, rule, held⟩ := last.raised (by decide +kernel)
  obtain ⟨rfl, rfl, rfl, rfl⟩ := AlarmInput.dataUpdated.inj same
  have delay : r.onDelayMs = 3000 := by
    have known : ((Runs.run observed (({} : AlarmEngine Int), fun _ => []) straightDrop).1.rules 1).map
        (·.onDelayMs) = some 3000 := by decide +kernel
    rw [rule, Option.map_some] at known
    exact Option.some.inj known
  have log : trackObservations
      (Runs.run observed (({} : AlarmEngine Int), fun _ => []) straightDrop).1
      (Runs.run observed (({} : AlarmEngine Int), fun _ => []) straightDrop).2
      (.dataUpdated 1 20 104000 0) [] 1 =
      [⟨100000, true, false⟩] ++ [⟨101000, false, true⟩] ++ [⟨104000, true, false⟩] := by
    decide +kernel
  rw [delay] at held
  have broken : HeldFor Observation.on 3000 104000
      ([⟨100000, true, false⟩] ++ [⟨101000, false, true⟩] ++ [⟨104000, true, false⟩]) := log ▸ held
  have tooLate : (104000 : Int) ≤ 104000 - 3000 := broken.restarted rfl
  omega

end AlarmEngine
end EnerSentry.Business
