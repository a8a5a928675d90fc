import EnerSentry.Lib.Ledger
import EnerSentry.Business.AlarmAgreement

/-!
The life of an alarm id. A monitor keeps a ledger of the ids that were given to points and
of those that were reported as recovered. What a point has open is what the ledger says it
has: an id is given out once, to a point without an open alarm, and ends in one recovery.
-/

namespace EnerSentry.Business
open EnerSentry.Lib

namespace PointAlarmState
variable {K : Type*} [Zero K] {st : PointAlarmState K} {nowMono : Int}

/-- A latched point is not waiting to be, and an alarming one is latched. -/
def Latched (st : PointAlarmState K) : Prop := st.Unlatched ∧ (st.alarming = true → st.inAlarmBand = true)

theorem Latched.awaitOn (latched : st.Latched) : (st.awaitOn nowMono).Latched := by
  obtain ⟨band, status, id, last, pending, since⟩ := st.awaitOn_frame nowMono
  refine ⟨latched.1.awaitOn, ?_⟩
  simpa only [alarming, band, status] using latched.2

theorem Latched.awaitOff (latched : st.Latched) : (st.awaitOff nowMono).Latched := by
  obtain ⟨band, status, id, last, pending, since⟩ := st.awaitOff_frame nowMono
  refine ⟨latched.1.awaitOff, ?_⟩
  simpa only [alarming, band, status] using latched.2

theorem latched_confirmed (latched : st.Latched) (active : st.status = .active) :
    ({ st with status := .confirmed } : PointAlarmState K).Latched :=
  ⟨latched.1, fun _ => latched.2 (by simp [alarming, active])⟩

end PointAlarmState

namespace AlarmEngine
variable {K : Type*} [Zero K]

/-- The alarm that a point has open. -/
def openAlarm (e : AlarmEngine K) (p : UInt32) : Option Nat :=
  if (e.stateOf p).alarming then some (e.stateOf p).activeId else none

def recoveries (signals : List (AlarmSignal K)) : List Nat :=
  signals.filterMap fun
    | .alarmRecovered id => some id
    | _ => none

def Latched (e : AlarmEngine K) : Prop := ∀ p, (e.stateOf p).Latched

section Open
variable {e d : AlarmEngine K} {pid : UInt32} {st : PointAlarmState K}

theorem openAlarm_eq_some {p : UInt32} {id : Nat} : e.openAlarm p = some id ↔
    (e.stateOf p).alarming = true ∧ (e.stateOf p).activeId = id := by
  unfold openAlarm
  split
  · rename_i alarming
    simp [alarming]
  · rename_i idle
    simp [idle]

/-- A sample opens or closes the alarm of its own point at most. -/
theorem Moves.openAlarm_update (moves : Moves e d pid st) :
    d.openAlarm = Function.update e.openAlarm pid (if st.alarming then some st.activeId else none) := by
  funext p
  unfold AlarmEngine.openAlarm
  rw [moves.stateOf]
  by_cases own : p = pid
  · rw [own, Function.update_self, Function.update_self]
  · rw [Function.update_of_ne own, Function.update_of_ne own]

/-- A sample that leaves status and id of its point alone changes no open alarm. -/
theorem Moves.openAlarm (moves : Moves e d pid st) (status : st.status = (e.stateOf pid).status)
    (id : st.activeId = (e.stateOf pid).activeId) : d.openAlarm = e.openAlarm := by
  have same : st.alarming = (e.stateOf pid).alarming := by simp only [PointAlarmState.alarming, status]
  rw [moves.openAlarm_update, same, id]
  exact Function.update_eq_self pid e.openAlarm

theorem Moves.openAlarm_raised (moves : Moves e d pid st) (active : st.status = .active) :
    d.openAlarm = Function.update e.openAlarm pid (some st.activeId) := by
  have alarming : st.alarming = true := by simp [PointAlarmState.alarming, active]
  rw [moves.openAlarm_update, if_pos alarming]

theorem Moves.openAlarm_recovered (moves : Moves e d pid st) (ended : st.status = .recovered) :
    d.openAlarm = Function.update e.openAlarm pid none := by
  have idle : ¬st.alarming = true := by simp [PointAlarmState.alarming, ended]
  rw [moves.openAlarm_update, if_neg idle]

theorem openAlarm_acknowledgeAlarm (alarmId : Nat) (user : String) :
    (e.acknowledgeAlarm alarmId user).1.openAlarm = e.openAlarm := by
  rcases acknowledgeAlarm_cases (e := e) alarmId user with same | ⟨pid, active, named, confirmed⟩
  · rw [same]
  · funext p
    rw [confirmed]
    unfold openAlarm
    rw [stateOf_setState]
    by_cases own : p = pid
    · subst own
      simp [PointAlarmState.alarming, active]
    · rw [Function.update_of_ne own]

theorem recoveries_publish (evt : AlarmEvent K) : recoveries (publish evt) = [] := by
  unfold publish
  split <;> rfl

end Open

/-- The rules have an enabled one for the point. -/
def RuledBy (rules : List (AlarmRule K)) (p : UInt32) : Prop := ∃ r ∈ rules, r.enabled = true ∧ r.pointId = p

instance (rules : List (AlarmRule K)) (p : UInt32) : Decidable (RuledBy rules p) :=
  inferInstanceAs (Decidable (∃ r ∈ rules, _ ∧ _))

section Reload
variable {e : AlarmEngine K} {rules : List (AlarmRule K)} {fresh : UInt32 → Option (AlarmRule K)} {id : Nat}

theorem newRules_concat (rules : List (AlarmRule K)) (r : AlarmRule K) (p : UInt32) :
    newRules (rules ++ [r]) p = if r.enabled = true ∧ p = r.pointId then some r else newRules rules p := by
  simp only [newRules, List.foldl_append, List.foldl_cons, List.foldl_nil]
  by_cases enabled : r.enabled = true
  · simp [enabled, Function.update_apply]
  · simp [enabled]

theorem newRules_eq_none_iff (p : UInt32) : newRules rules p = none ↔ ¬RuledBy rules p := by
  induction rules using List.reverseRecOn with
  | nil => simp [newRules, RuledBy]
  | append_singleton rules r ih =>
    rw [newRules_concat]
    by_cases own : r.enabled = true ∧ p = r.pointId
    · rw [if_pos own]
      refine iff_of_false (Option.some_ne_none _) (not_not.mpr ⟨r, ?_, own.1, own.2.symm⟩)
      exact List.mem_append_right _ (List.mem_singleton_self r)
    · rw [if_neg own, ih]
      refine not_congr ⟨?_, ?_⟩
      · rintro ⟨r', member, facts⟩
        exact ⟨r', List.mem_append_left _ member, facts⟩
      · rintro ⟨r', member, enabled, same⟩
        rcases List.mem_append.mp member with earlier | last
        · exact ⟨r', earlier, enabled, same⟩
        · obtain rfl := List.mem_singleton.mp last
          exact absurd ⟨enabled, same.symm⟩ own

theorem openAlarm_of_mem {x : UInt32 × PointAlarmState K} (member : x ∈ e.states.toList)
    (alarming : x.2.alarming = true) : e.openAlarm x.1 = some x.2.activeId := by
  have stored := Std.TreeMap.mem_toList_iff_getElem?_eq_some.mp member
  have own : e.stateOf x.1 = x.2 := by rw [stateOf, stored, Option.getD_some]
  exact openAlarm_eq_some.mpr ⟨own ▸ alarming, congrArg _ own⟩

/-- The orphans are the open alarms of the points without a rule. -/
theorem mem_orphans : id ∈ e.orphans fresh ↔ ∃ p, fresh p = none ∧ e.openAlarm p = some id := by
  unfold orphans
  rw [List.mem_filterMap]
  constructor
  · rintro ⟨x, member, chosen⟩
    simp only [Option.ite_none_right_eq_some, Option.some.injEq, Bool.and_eq_true,
      Option.isNone_iff_eq_none] at chosen
    obtain ⟨⟨gone, alarming⟩, rfl⟩ := chosen
    exact ⟨x.1, gone, openAlarm_of_mem member alarming⟩
  · rintro ⟨p, gone, open_⟩
    obtain ⟨alarming, named⟩ := openAlarm_eq_some.mp open_
    have stored : e.states[p]? = some (e.stateOf p) := by
      cases found : e.states[p]? with
      | none => simp [stateOf, found, PointAlarmState.alarming] at alarming
      | some st => rw [stateOf, found, Option.getD_some]
    exact ⟨(p, e.stateOf p), Std.TreeMap.mem_toList_iff_getElem?_eq_some.mpr stored, by simp [gone, alarming, named]⟩

theorem nodup_orphans (apart : ∀ p q id, e.openAlarm p = some id → e.openAlarm q = some id → p = q)
    (fresh : UInt32 → Option (AlarmRule K)) : (e.orphans fresh).Nodup := by
  unfold orphans
  apply List.pairwise_filterMap.mpr
  apply Std.TreeMap.distinct_keys_toList.imp_of_mem
  intro x y member member' different id chosen id' chosen' same
  simp only [Option.ite_none_right_eq_some, Option.some.injEq, Bool.and_eq_true] at chosen chosen'
  have first := openAlarm_of_mem member chosen.1.2
  have second := openAlarm_of_mem member' chosen'.1.2
  rw [chosen.2] at first
  rw [chosen'.2, ← same] at second
  exact different (Std.compare_eq_iff_eq.mpr (apart _ _ _ first second))

variable [BEq K]

theorem recoveries_doReloadRules : recoveries (e.doReloadRules rules).2 = e.orphans (newRules rules) := by
  simp [doReloadRules, recoveries, List.filterMap_map]

/-- A reload takes the open alarms of the points without a rule away, and no others. -/
theorem openAlarm_doReloadRules (p : UInt32) :
    (e.doReloadRules rules).1.openAlarm p = if RuledBy rules p then e.openAlarm p else none := by
  unfold openAlarm
  rw [stateOf_doReloadRules]
  cases found : newRules rules p with
  | none =>
    rw [if_neg ((newRules_eq_none_iff p).mp found)]
    rfl
  | some new =>
    have ruled : RuledBy rules p := by
      by_contra none
      exact Option.some_ne_none _ (found.symm.trans ((newRules_eq_none_iff p).mpr none))
    rw [if_pos ruled]
    simp only
    split <;> rfl

end Reload

/-- The ledger balances with the open alarms, and no id of it is ahead of the counter. -/
structure Accounted (s : AlarmEngine K × Ledger UInt32 Nat) : Prop where
  balanced : s.2.Balanced s.1.openAlarm
  bounded : ∀ id ∈ s.2.ids, id ≠ 0 ∧ id ≤ s.1.alarmIdSeq
  latched : s.1.Latched

theorem accounted_start : Accounted (({} : AlarmEngine K), ({} : Ledger UInt32 Nat)) := by
  have idle : ({} : AlarmEngine K).openAlarm = fun _ => none := by
    funext p
    simp [openAlarm, stateOf, PointAlarmState.alarming]
  refine ⟨idle ▸ Ledger.balanced_empty, fun id member => absurd member List.not_mem_nil, fun p => ?_⟩
  simp [PointAlarmState.Latched, PointAlarmState.Unlatched, stateOf, PointAlarmState.alarming]

section Samples
variable [LT K] [DecidableLT K] {e : AlarmEngine K}

/-- A due point is not alarming: its alarm, if it ever had one, is over. -/
theorem Latched.idle (latched : e.Latched) {pid : UInt32} {value : K} {nowMono : Int} {r : AlarmRule K}
    (due : e.Due pid value nowMono r) : e.openAlarm pid = none := by
  have own : (e.seen pid value).Unlatched := (latched pid).1
  have outside : (e.stateOf pid).inAlarmBand = false := own.elapsed due.elapsed
  have idle : ¬(e.stateOf pid).alarming = true := by
    intro alarming
    exact Bool.false_ne_true (outside.symm.trans ((latched pid).2 alarming))
  exact if_neg idle

variable [ToString K]

/-- The id that a sample draws for its point. -/
def raised (e : AlarmEngine K) : AlarmInput K → Option (UInt32 × Nat)
  | .dataUpdated pid value nowMono nowEpoch =>
      let d := (e.evaluate pid value nowMono nowEpoch).1
      if d.alarmIdSeq = e.alarmIdSeq then none else some (pid, (d.stateOf pid).activeId)
  | _ => none

theorem raised_of_seq {pid : UInt32} {value : K} {nowMono : Int} {nowEpoch : Nat}
    (same : (e.evaluate pid value nowMono nowEpoch).1.alarmIdSeq = e.alarmIdSeq) :
    e.raised (.dataUpdated pid value nowMono nowEpoch) = none := if_pos same

theorem raised_of_moves {pid : UInt32} {value : K} {nowMono : Int} {nowEpoch : Nat} {st : PointAlarmState K}
    (moves : Moves e (e.evaluate pid value nowMono nowEpoch).1 pid st)
    (seq : (e.evaluate pid value nowMono nowEpoch).1.alarmIdSeq = e.alarmIdSeq + 1) :
    e.raised (.dataUpdated pid value nowMono nowEpoch) = some (pid, st.activeId) := by
  have drawn : (e.evaluate pid value nowMono nowEpoch).1.alarmIdSeq ≠ e.alarmIdSeq := by omega
  rw [raised]
  simp only [if_neg drawn, moves.own]

/-- What an input does to the open alarms. -/
inductive LifeStep (e : AlarmEngine K) (input : AlarmInput K) (d : AlarmEngine K) (signals : List (AlarmSignal K)) :
    Prop where
  | keeps (same : d.openAlarm = e.openAlarm) (seq : d.alarmIdSeq = e.alarmIdSeq) (none : e.raised input = none)
      (silent : recoveries signals = [])
  | raises (p : UInt32) (idle : e.openAlarm p = none)
      (opened : d.openAlarm = Function.update e.openAlarm p (some (e.alarmIdSeq + 1)))
      (seq : d.alarmIdSeq = e.alarmIdSeq + 1) (drawn : e.raised input = some (p, e.alarmIdSeq + 1))
      (silent : recoveries signals = [])
  | recovers (ended : ∀ id ∈ recoveries signals, ∃ p, e.openAlarm p = some id) (once : (recoveries signals).Nodup)
      (rest : ∀ p id, d.openAlarm p = some id ↔ e.openAlarm p = some id ∧ id ∉ recoveries signals)
      (seq : d.alarmIdSeq = e.alarmIdSeq) (none : e.raised input = none)

/-- The recovery of one alarm, which no other point has. -/
theorem LifeStep.recovered {input : AlarmInput K} {d : AlarmEngine K} {signals : List (AlarmSignal K)} {pid : UInt32}
    {id : Nat} (apart : ∀ p q id, e.openAlarm p = some id → e.openAlarm q = some id → p = q)
    (open_ : e.openAlarm pid = some id) (closed : d.openAlarm = Function.update e.openAlarm pid none)
    (said : recoveries signals = [id]) (seq : d.alarmIdSeq = e.alarmIdSeq) (none : e.raised input = none) :
    LifeStep e input d signals := by
  refine .recovers ?_ ?_ ?_ seq none
  · rw [said]
    exact fun id member => ⟨pid, List.mem_singleton.mp member ▸ open_⟩
  · rw [said]
    exact List.nodup_singleton _
  · intro p i
    rw [said, closed, List.mem_singleton]
    by_cases own : p = pid
    · subst own
      simp only [Function.update_self, open_, Option.some.injEq, reduceCtorEq, false_iff, not_and, not_not]
      exact Eq.symm
    · rw [Function.update_of_ne own]
      exact ⟨fun holds => ⟨holds, fun same => own (apart p pid i holds (same ▸ open_))⟩, And.left⟩

theorem lifeStep_evaluate (latched : e.Latched)
    (apart : ∀ p q id, e.openAlarm p = some id → e.openAlarm q = some id → p = q)
    (pid : UInt32) (value : K) (nowMono : Int) (nowEpoch : Nat) :
    LifeStep e (.dataUpdated pid value nowMono nowEpoch) (e.evaluate pid value nowMono nowEpoch).1
      (e.evaluate pid value nowMono nowEpoch).2 := by
  have on := (e.seen pid value).awaitOn_frame nowMono
  have off := (e.seen pid value).awaitOff_frame nowMono
  have effect := evaluated (e := e) pid value nowMono nowEpoch
  have quietly : ∀ {st : PointAlarmState K}, Moves e (e.evaluate pid value nowMono nowEpoch).1 pid st →
      st.status = (e.stateOf pid).status → st.activeId = (e.stateOf pid).activeId →
      Quiet e (e.evaluate pid value nowMono nowEpoch).1 (e.evaluate pid value nowMono nowEpoch).2 →
      LifeStep e (.dataUpdated pid value nowMono nowEpoch) (e.evaluate pid value nowMono nowEpoch).1
        (e.evaluate pid value nowMono nowEpoch).2 := fun moves status id quiet =>
    .keeps (moves.openAlarm status id) quiet.alarmIdSeq (raised_of_seq quiet.alarmIdSeq) (by rw [quiet.signals]; rfl)
  cases effect with
  | ignored unwatched same silent =>
    exact .keeps (by rw [same]) (by rw [same]) (raised_of_seq (by rw [same])) (by rw [silent]; rfl)
  | waitsOn r watches on' moves early quiet => exact quietly moves on.2.1 on.2.2.1 quiet
  | swallows r due window moves quiet => exact quietly moves on.2.1 on.2.2.1 quiet
  | raises r due window moves seq queue published =>
    refine .raises pid (latched.idle due) (moves.openAlarm_raised rfl) seq (raised_of_moves moves seq) ?_
    rw [published]
    split
    · rfl
    · exact recoveries_publish _
  | waitsOff r watches on' off' early moves quiet => exact quietly moves off.2.1 off.2.2.1 quiet
  | calms r watches on' off' elapsed idle moves quiet => exact quietly moves off.2.1 off.2.2.1 quiet
  | recovers r watches on' off' elapsed alarming moves seq queue told =>
    have open_ : e.openAlarm pid = some (e.stateOf pid).activeId := openAlarm_eq_some.mpr ⟨alarming, rfl⟩
    have said : recoveries (e.evaluate pid value nowMono nowEpoch).2 = [(e.stateOf pid).activeId] := by
      rw [told]
      rfl
    exact .recovered apart open_ (moves.openAlarm_recovered rfl) said seq (raised_of_seq seq)
  | between r watches on' off' moves quiet => exact quietly moves rfl rfl quiet

end Samples

variable [LT K] [DecidableLT K] [BEq K] [ToString K]

/-- The monitor: the ids given out and those reported as recovered. -/
def trackIds (e : AlarmEngine K) (l : Ledger UInt32 Nat) (input : AlarmInput K) (signals : List (AlarmSignal K)) :
    Ledger UInt32 Nat :=
  (match e.raised input with
    | some (p, id) => l.issue p id
    | none => l).retire (recoveries signals)

def numbering : Runs.Step (AlarmEngine K × Ledger UInt32 Nat) (AlarmInput K) (AlarmSignal K) :=
  Runs.watch step trackIds

section Steps
variable {e : AlarmEngine K}

theorem lifeStep (latched : e.Latched)
    (apart : ∀ p q id, e.openAlarm p = some id → e.openAlarm q = some id → p = q) (input : AlarmInput K) :
    LifeStep e input (e.step input).1 (e.step input).2 := by
  cases input with
  | dataUpdated pid value nowMono nowEpoch => exact lifeStep_evaluate latched apart pid value nowMono nowEpoch
  | reloadRules rules =>
    refine .recovers ?_ ?_ ?_ rfl rfl
    · intro id member
      rw [step, recoveries_doReloadRules, mem_orphans] at member
      exact member.imp fun p facts => facts.2
    · rw [step, recoveries_doReloadRules]
      exact nodup_orphans apart _
    · intro p id
      rw [step, recoveries_doReloadRules, openAlarm_doReloadRules, mem_orphans]
      by_cases ruled : RuledBy rules p
      · rw [if_pos ruled]
        refine ⟨fun holds => ⟨holds, ?_⟩, And.left⟩
        rintro ⟨q, gone, other⟩
        exact (newRules_eq_none_iff q).mp gone (apart p q id holds other ▸ ruled)
      · rw [if_neg ruled]
        refine iff_of_false (by simp) ?_
        rintro ⟨holds, kept⟩
        exact kept ⟨p, (newRules_eq_none_iff p).mpr ruled, holds⟩
  | acknowledgeAlarm alarmId user =>
    refine .keeps (openAlarm_acknowledgeAlarm alarmId user) (acknowledgeAlarm_frame alarmId user).2.2.1 rfl ?_
    rw [step, acknowledgeAlarm_signals]
    rfl
  | acknowledgeAlarms ids user =>
    refine .keeps ?_ (acknowledgeAlarms_frame ids user).2.2.1 rfl ?_
    · exact acknowledgeAlarms_keeps (I := fun d => d.openAlarm = e.openAlarm)
        (fun d id same => (openAlarm_acknowledgeAlarm id user).trans same) ids rfl
    · rw [step, acknowledgeAlarms_signals]
      simp [recoveries]
  | stormFlush nowMono =>
    rcases onStormFlush_cases (e := e) nowMono with ⟨-, same⟩ | ⟨-, active, rest, ended, same⟩
    · rw [step, same]
      exact .keeps rfl rfl rfl rfl
    · rw [step, same]
      refine .keeps rfl rfl rfl ?_
      rcases ended with rfl | rfl <;> rfl
  | _ => exact .keeps rfl rfl rfl rfl

theorem latched_step (latched : e.Latched) (input : AlarmInput K) : (e.step input).1.Latched := by
  refine every_step input (fun st holds active => PointAlarmState.latched_confirmed holds active)
    (by simp [PointAlarmState.Latched, PointAlarmState.Unlatched, PointAlarmState.alarming])
    (fun st holds => ⟨by simp [PointAlarmState.Unlatched, PointAlarmState.reset], holds.2⟩) latched ?_
  intro pid value nowMono nowEpoch same
  have own : (e.seen pid value).Latched := latched pid
  have effect := evaluated (e := e) pid value nowMono nowEpoch
  cases effect with
  | ignored unwatched same silent =>
    rw [same]
    exact latched
  | waitsOn r watches on moves early quiet => exact moves.every own.awaitOn latched
  | swallows r due window moves quiet =>
    exact moves.every ⟨by simp [PointAlarmState.Unlatched], fun _ => rfl⟩ latched
  | raises r due window moves seq queue published =>
    exact moves.every ⟨by simp [PointAlarmState.Unlatched], fun _ => rfl⟩ latched
  | waitsOff r watches on off early moves quiet => exact moves.every own.awaitOff latched
  | calms r watches on off elapsed idle moves quiet =>
    have status : ((e.seen pid value).awaitOff nowMono).status = (e.stateOf pid).status :=
      ((e.seen pid value).awaitOff_frame nowMono).2.1
    refine moves.every ⟨by simp [PointAlarmState.Unlatched], fun alarming => ?_⟩ latched
    have still : (e.stateOf pid).alarming = true := by
      simpa only [PointAlarmState.alarming, status] using alarming
    exact absurd (idle.symm.trans still) Bool.false_ne_true
  | recovers r watches on off elapsed alarming moves seq queue told =>
    exact moves.every (by simp [PointAlarmState.Latched, PointAlarmState.Unlatched, PointAlarmState.recovered,
      PointAlarmState.alarming]) latched
  | between r watches on off moves quiet =>
    exact moves.every ⟨by simp [PointAlarmState.Unlatched], own.2⟩ latched

end Steps

section Runs
variable {s : AlarmEngine K × Ledger UInt32 Nat}

theorem Accounted.step (accounted : Accounted s) (input : AlarmInput K) : Accounted (numbering s input).1 := by
  have latched := latched_step accounted.latched input
  have change := lifeStep accounted.latched (fun p q id => accounted.balanced.apart) input
  cases change with
  | keeps same seq none silent =>
    have still : trackIds s.1 s.2 input (AlarmEngine.step s.1 input).2 = s.2 := by
      simp only [trackIds, none, silent, Ledger.retire, List.nil_append]
    refine ⟨?_, ?_, latched⟩
    · simp only [numbering, Runs.watch_fst, Runs.watch_snd, still, same]
      exact accounted.balanced
    · simp only [numbering, Runs.watch_fst, Runs.watch_snd, still, seq]
      exact accounted.bounded
  | raises p idle opened seq drawn silent =>
    have issued : trackIds s.1 s.2 input (AlarmEngine.step s.1 input).2 = s.2.issue p (s.1.alarmIdSeq + 1) := by
      simp only [trackIds, drawn, silent, Ledger.retire, List.nil_append]
    have fresh : s.1.alarmIdSeq + 1 ∉ s.2.ids := by
      intro member
      have ahead := (accounted.bounded _ member).2
      omega
    refine ⟨?_, ?_, latched⟩
    · simp only [numbering, Runs.watch_fst, Runs.watch_snd, issued, opened]
      exact accounted.balanced.issue idle fresh
    · simp only [numbering, Runs.watch_fst, Runs.watch_snd, issued, seq]
      intro id member
      rcases List.mem_cons.mp member with rfl | earlier
      · exact ⟨Nat.succ_ne_zero _, Nat.le_refl _⟩
      · have bound := accounted.bounded id earlier
        omega
  | recovers ended once rest seq none =>
    have retired : trackIds s.1 s.2 input (AlarmEngine.step s.1 input).2 =
        s.2.retire (recoveries (AlarmEngine.step s.1 input).2) := by
      simp only [trackIds, none]
    refine ⟨?_, ?_, latched⟩
    · simp only [numbering, Runs.watch_fst, Runs.watch_snd, retired]
      exact accounted.balanced.retire once ended rest
    · simp only [numbering, Runs.watch_fst, Runs.watch_snd, retired, seq]
      exact accounted.bounded

end Runs
/-- What one input may do to the ids, given the ledger of those before. -/
structure Orderly (e : AlarmEngine K) (l : Ledger UInt32 Nat) (input : AlarmInput K) : Prop where
  fresh : ∀ p id, e.raised input = some (p, id) → id ≠ 0 ∧ id ∉ l.ids
  single : ∀ p id, e.raised input = some (p, id) → ∀ earlier, (p, earlier) ∈ l.issued → earlier ∈ l.retired
  recovered : (recoveries (e.step input).2).Nodup ∧
    ∀ id ∈ recoveries (e.step input).2, id ∈ l.ids ∧ id ∉ l.retired
  triggered : ∀ evt, .alarmTriggered evt ∈ (e.step input).2 → e.raised input = some (evt.pointId, evt.id)

/-- A reload ends the alarms of the points that it leaves without a rule. -/
structure Reloaded (e : AlarmEngine K) (rules : List (AlarmRule K)) : Prop where
  gone : ∀ p, ¬RuledBy rules p → (e.step (.reloadRules rules)).1.states[p]? = none ∧
    ∀ id, e.openAlarm p = some id → (recoveries (e.step (.reloadRules rules)).2).count id = 1
  kept : ∀ p, RuledBy rules p → (((e.step (.reloadRules rules)).1.stateOf p).activeId = (e.stateOf p).activeId ∧
    ((e.step (.reloadRules rules)).1.stateOf p).status = (e.stateOf p).status) ∧
    ∀ id, e.openAlarm p = some id → id ∉ recoveries (e.step (.reloadRules rules)).2

section LifeCycle
variable {s : AlarmEngine K × Ledger UInt32 Nat}

/-- An alarm that is told at once is the one that the sample raised. -/
theorem raised_of_triggered {e : AlarmEngine K} {input : AlarmInput K} {evt : AlarmEvent K}
    (told : .alarmTriggered evt ∈ (e.step input).2) : e.raised input = some (evt.pointId, evt.id) := by
  cases input with
  | dataUpdated pid value nowMono nowEpoch =>
    have effect := evaluated (e := e) pid value nowMono nowEpoch
    simp only [step] at told
    cases effect with
    | raises r due window moves seq queue published =>
      have drawn : (e.evaluate pid value nowMono nowEpoch).1.alarmIdSeq ≠ e.alarmIdSeq := by
        rw [seq]
        exact Nat.succ_ne_self _
      have own : evt = e.raisedEvent pid r value nowEpoch := by
        rw [published] at told
        split at told
        · cases told
        · simpa [publish] using told
      rw [raised]
      simp only [if_neg drawn, moves.own, own]
      rfl
    | ignored unwatched same silent => simp [silent] at told
    | waitsOn r watches on moves early quiet => simp [quiet.signals] at told
    | swallows r due window moves quiet => simp [quiet.signals] at told
    | waitsOff r watches on off early moves quiet => simp [quiet.signals] at told
    | calms r watches on off elapsed idle moves quiet => simp [quiet.signals] at told
    | recovers r watches on off elapsed alarming moves seq queue said => simp [said] at told
    | between r watches on off moves quiet => simp [quiet.signals] at told
  | reloadRules rules => simp [step, doReloadRules] at told
  | acknowledgeAlarm alarmId user => simp [step, acknowledgeAlarm_signals] at told
  | acknowledgeAlarms ids user => simp [step, acknowledgeAlarms_signals] at told
  | stormFlush nowMono =>
    rcases onStormFlush_cases (e := e) nowMono with ⟨-, same⟩ | ⟨-, active, rest, ended, same⟩
    · simp [step, same] at told
    · rcases ended with rfl | rfl <;> simp [step, same] at told
  | _ => cases told

theorem Accounted.orderly (accounted : Accounted s) (input : AlarmInput K) : Orderly s.1 s.2 input := by
  have balanced := accounted.balanced
  have change := lifeStep accounted.latched (fun p q id => balanced.apart) input
  cases change with
  | keeps same seq none silent =>
    refine ⟨by simp [none], by simp [none], ?_, fun evt => raised_of_triggered⟩
    rw [silent]
    exact ⟨List.nodup_nil, by simp⟩
  | raises p idle opened seq drawn silent =>
    refine ⟨?_, ?_, ?_, fun evt => raised_of_triggered⟩
    · intro q id raised
      obtain ⟨rfl, rfl⟩ := Prod.mk.inj (Option.some.inj (drawn.symm.trans raised))
      refine ⟨Nat.succ_ne_zero _, fun member => ?_⟩
      have ahead := (accounted.bounded _ member).2
      omega
    · intro q id raised earlier issued
      obtain ⟨rfl, rfl⟩ := Prod.mk.inj (Option.some.inj (drawn.symm.trans raised))
      exact balanced.settled idle issued
    · rw [silent]
      exact ⟨List.nodup_nil, by simp⟩
  | recovers ended once rest seq none =>
    refine ⟨by simp [none], by simp [none], ⟨once, ?_⟩, fun evt => raised_of_triggered⟩
    intro id member
    obtain ⟨p, holds⟩ := ended id member
    exact ⟨balanced.issued_of_held holds, ((balanced.holds p id).mp holds).2⟩

theorem Accounted.reloaded (accounted : Accounted s) (rules : List (AlarmRule K)) : Reloaded s.1 rules := by
  have apart : ∀ p q id, s.1.openAlarm p = some id → s.1.openAlarm q = some id → p = q :=
    fun p q id => accounted.balanced.apart
  constructor
  · intro p unruled
    have none := (newRules_eq_none_iff p).mpr unruled
    constructor
    · simp only [AlarmEngine.step, doReloadRules, Std.TreeMap.getElem?_filterMap', migrate, none]
      cases s.1.states[p]? <;> rfl
    · intro id holds
      rw [AlarmEngine.step, recoveries_doReloadRules]
      exact List.count_eq_one_of_mem (nodup_orphans apart _) (mem_orphans.mpr ⟨p, none, holds⟩)
  · intro p ruled
    have some := mt (newRules_eq_none_iff p).mp (not_not.mpr ruled)
    constructor
    · simp only [AlarmEngine.step, stateOf_doReloadRules]
      cases found : newRules rules p with
      | none => exact absurd found some
      | some new =>
        simp only
        split <;> exact ⟨rfl, rfl⟩
    · intro id holds member
      rw [AlarmEngine.step, recoveries_doReloadRules, mem_orphans] at member
      obtain ⟨q, gone, other⟩ := member
      exact some (apart p q id holds other ▸ gone)

end LifeCycle

/-- The life cycle of alarm ids, over every run: ids are fresh and not zero, a point has one open
alarm at a time, recoveries end alarms that were raised, each once, alarming points have
different ids, and a reload ends what it leaves without a rule. -/
theorem life_cycle (inputs : List (AlarmInput K)) :
    (∀ v ∈ Runs.visits numbering (({} : AlarmEngine K), ({} : Ledger UInt32 Nat)) inputs,
      Orderly v.1.1 v.1.2 v.2) ∧
    ∀ s ∈ Runs.reached numbering (({} : AlarmEngine K), ({} : Ledger UInt32 Nat)) inputs,
      (∀ p q id, s.1.openAlarm p = some id → s.1.openAlarm q = some id → p = q) ∧ ∀ rules, Reloaded s.1 rules := by
  have accounted := Runs.reached_always numbering inputs (I := Accounted) accounted_start
    fun _ input accounted => accounted.step input
  constructor
  · intro v visited
    exact (accounted v.1 (Runs.visit_mem_reached visited).1).orderly v.2
  · intro s member
    exact ⟨fun p q id => (accounted s member).balanced.apart, (accounted s member).reloaded⟩

end AlarmEngine
end EnerSentry.Business
