import EnerSentry.Business.SboSafety

/-!
The lock and the link. A machine whose link is down is to be armed only while the flapping
window runs, which then ends the selection. The one event that breaks this is a select that
is accepted when the window has run out already. A clock beside the station says when an
outage has lasted longer than the window, which the timer only measures if the link is
reported down once.
-/

namespace EnerSentry.Business
open EnerSentry.Lib

/-- What an event reports about the link. -/
def SboEvent.linkReport : SboEvent → Option Bool
  | .linkStatusChanged connected => some connected
  | .forceLinkDownForTest _ => some false
  | _ => none

namespace SboContext

/-- An armed machine is connected, or the flapping timer is running. -/
def LinkLaw (c : SboContext) : Prop :=
  c.machine.state = .armed → c.machine.linkConnected = true ∨ c.machine.flappingTimer.active = true

/-- A select for a free key reaches an idle machine whose link is down with no window running. -/
def SelectsUnlinked (c : SboContext) : SboEvent → Prop
  | .submitSelect req _ _ =>
      c.machine.state = .idle ∧ c.machine.guarded = true ∧ c.guard.buckets req.key = none ∧
        c.machine.linkConnected = false ∧ c.machine.flappingTimer.active = false
  | _ => False

instance (c : SboContext) : (e : SboEvent) → Decidable (c.SelectsUnlinked e)
  | .submitSelect req _ _ => inferInstanceAs (Decidable (c.machine.state = .idle ∧ c.machine.guarded = true ∧
      c.guard.buckets req.key = none ∧ c.machine.linkConnected = false ∧ c.machine.flappingTimer.active = false))
  | .submitOperate _ | .submitCancel _ | .deviceAck _ _ _ | .linkStatusChanged _ | .armedExpired | .flappingExpired
  | .execExpired | .forceArmedTimeoutForTest | .forceLinkDownForTest _ => isFalse id

/-- The link is reported down again while it is down. -/
def RepeatsDown (c : SboContext) (e : SboEvent) : Prop :=
  e.linkReport = some false ∧ c.machine.linkConnected = false

instance (c : SboContext) (e : SboEvent) : Decidable (c.RepeatsDown e) := inferInstanceAs (Decidable (_ ∧ _))

/-- The link as a machine sees it. -/
structure SameLink (m n : SboStateMachine) : Prop where
  linkConnected : n.linkConnected = m.linkConnected
  flappingTimer : n.flappingTimer = m.flappingTimer

variable {c : SboContext} {e : SboEvent}

theorem submitSelect_accepted (req : SboSelectRequest) (operatorName : String) (nowMs : Int) :
    (c.submitSelect req operatorName nowMs).accepted = true ↔
      c.machine.state = .idle ∧ c.machine.guarded = true ∧ c.guard.buckets req.key = none := by
  unfold submitSelect
  by_cases busy : c.machine.state ≠ .idle
  · rw [if_pos busy]
    refine ⟨fun accepted => ?_, fun facts => absurd facts.1 busy⟩
    split at accepted <;> cases accepted
  · rw [if_neg busy]
    have idle := not_not.mp busy
    by_cases guarded : c.machine.guarded = true
    · simp only [if_pos guarded]
      by_cases free : c.guard.buckets req.key = none
      · rw [if_pos (DeviceSboGuard.tryAcquire_granted.mpr free)]
        exact ⟨fun _ => ⟨idle, guarded, free⟩, fun _ => rfl⟩
      · rw [if_neg (fun granted => free (DeviceSboGuard.tryAcquire_granted.mp granted))]
        exact ⟨fun accepted => (by cases accepted), fun facts => absurd facts.2.2 free⟩
    · rw [if_neg guarded]
      exact ⟨fun accepted => (by cases accepted), fun facts => absurd facts.2.1 guarded⟩

/-- An accepted select arms the machine. -/
theorem submitSelect_arms {req : SboSelectRequest} {operatorName : String} {nowMs : Int}
    (accepted : (c.submitSelect req operatorName nowMs).accepted = true) :
    (c.submitSelect req operatorName nowMs).context.machine.state = .armed := by
  obtain ⟨idle, guarded, free⟩ := (submitSelect_accepted req operatorName nowMs).mp accepted
  simp only [submitSelect, if_neg (not_not.mpr idle), if_pos guarded,
    if_pos (DeviceSboGuard.tryAcquire_granted.mpr free), enterArmedState]

theorem sameLink_submitSelect (req : SboSelectRequest) (operatorName : String) (nowMs : Int) :
    SameLink c.machine (c.submitSelect req operatorName nowMs).context.machine := by
  simp only [submitSelect, enterArmedState]
  split
  · split <;> exact ⟨rfl, rfl⟩
  · split
    · split <;> exact ⟨rfl, rfl⟩
    · exact ⟨rfl, rfl⟩

theorem sameLink_submitOperate (sequenceId : String) :
    SameLink c.machine (c.submitOperate sequenceId).context.machine := by
  unfold submitOperate
  split
  · exact ⟨rfl, rfl⟩
  · split <;> exact ⟨rfl, rfl⟩

theorem sameLink_forceAbort (reason : String) : SameLink c.machine (c.forceAbort reason).1.machine := by
  unfold forceAbort
  split <;> exact ⟨rfl, rfl⟩

theorem sameLink_submitCancel (sequenceId : String) :
    SameLink c.machine (c.submitCancel sequenceId).context.machine := by
  unfold submitCancel
  split
  · exact ⟨rfl, rfl⟩
  · split
    · exact ⟨rfl, rfl⟩
    · exact sameLink_forceAbort _

theorem sameLink_onDeviceAck (sequenceId : String) (success : Bool) (reason : String) :
    SameLink c.machine (c.onDeviceAck sequenceId success reason).1.machine := by
  unfold onDeviceAck
  split
  · exact ⟨rfl, rfl⟩
  · split <;> exact ⟨rfl, rfl⟩

theorem sameLink_onArmedTimeout : SameLink c.machine c.onArmedTimeout.1.machine := by
  unfold onArmedTimeout
  split <;> exact ⟨rfl, rfl⟩

theorem sameLink_onFlappingTimeout : SameLink c.machine c.onFlappingTimeout.1.machine := by
  unfold onFlappingTimeout
  split
  · exact ⟨rfl, rfl⟩
  · exact sameLink_forceAbort _

theorem sameLink_onExecutingTimeout : SameLink c.machine c.onExecutingTimeout.1.machine := by
  unfold onExecutingTimeout
  split <;> exact ⟨rfl, rfl⟩

/-- A machine that stays armed when its window runs out is connected. -/
theorem connected_of_flapped (armed : c.onFlappingTimeout.1.machine.state = .armed) :
    c.machine.linkConnected = true := by
  by_contra down
  rw [onFlappingTimeout, if_neg down] at armed
  exact forceAbort_not_armed _ armed

/-- Only reports change what a machine thinks of its link, and only they and the end of the
window touch the flapping timer. -/
theorem unreported (silent : e.linkReport = none) :
    (c.stepMachine e).1.machine.linkConnected = c.machine.linkConnected ∧
      ((c.stepMachine e).1.machine.flappingTimer = c.machine.flappingTimer ∨
        e = .flappingExpired ∧ (c.stepMachine e).1.machine.flappingTimer = c.machine.flappingTimer.expire ∧
          ((c.stepMachine e).1.machine.state = .armed → c.machine.linkConnected = true)) := by
  have kept : ∀ {m : SboStateMachine}, SameLink c.machine m →
      m.linkConnected = c.machine.linkConnected ∧ (m.flappingTimer = c.machine.flappingTimer ∨
        e = .flappingExpired ∧ m.flappingTimer = c.machine.flappingTimer.expire ∧
          (m.state = .armed → c.machine.linkConnected = true)) :=
    fun same => ⟨same.linkConnected, Or.inl same.flappingTimer⟩
  cases e with
  | submitSelect req operatorName nowMs => exact kept (sameLink_submitSelect req operatorName nowMs)
  | submitOperate sequenceId => exact kept (sameLink_submitOperate sequenceId)
  | submitCancel sequenceId => exact kept (sameLink_submitCancel sequenceId)
  | deviceAck sequenceId success reason => exact kept (sameLink_onDeviceAck sequenceId success reason)
  | linkStatusChanged connected => cases silent
  | armedExpired =>
    apply kept
    simp only [stepMachine]
    split
    · exact ⟨sameLink_onArmedTimeout.linkConnected, sameLink_onArmedTimeout.flappingTimer⟩
    · exact ⟨rfl, rfl⟩
  | flappingExpired =>
    simp only [stepMachine]
    split
    · exact ⟨sameLink_onFlappingTimeout.linkConnected,
        Or.inr ⟨trivial, sameLink_onFlappingTimeout.flappingTimer, connected_of_flapped⟩⟩
    · exact ⟨rfl, Or.inl rfl⟩
  | execExpired =>
    apply kept
    simp only [stepMachine]
    split
    · exact ⟨sameLink_onExecutingTimeout.linkConnected, sameLink_onExecutingTimeout.flappingTimer⟩
    · exact ⟨rfl, rfl⟩
  | forceArmedTimeoutForTest => exact kept sameLink_onArmedTimeout
  | forceLinkDownForTest flappingMs => cases silent

/-- A report sets the link, and the flapping timer runs from a report of a lost link on. -/
theorem reported {connected : Bool} (report : e.linkReport = some connected) :
    (c.stepMachine e).1.machine.linkConnected = connected ∧
      (c.stepMachine e).1.machine.flappingTimer.active = !connected := by
  cases e with
  | linkStatusChanged now =>
    obtain rfl := Option.some.inj report
    cases now <;> exact ⟨rfl, rfl⟩
  | forceLinkDownForTest flappingMs =>
    obtain rfl := Option.some.inj report
    exact ⟨rfl, rfl⟩
  | _ => cases report

/-- A machine that is armed after an event was armed before or by an accepted select. -/
theorem armed_from (armed : (c.stepMachine e).1.machine.state = .armed) : c.machine.state = .armed ∨
    ∃ req operatorName nowMs, e = .submitSelect req operatorName nowMs ∧
      (c.submitSelect req operatorName nowMs).accepted = true := by
  rcases armed_step none e armed with ⟨req, now, -⟩ | ⟨-, same⟩
  · right
    cases e with
    | submitSelect req operatorName nowMs =>
      refine ⟨req, operatorName, nowMs, rfl, ?_⟩
      by_contra refused
      rw [selectionAfter, if_neg refused] at now
      cases now
    | submitOperate sequenceId => simp [selectionAfter] at now
    | submitCancel sequenceId => simp [selectionAfter] at now
    | _ => simp [selectionAfter] at now
  · exact Or.inl same.state

theorem LinkLaw.step (law : c.LinkLaw) (allowed : ¬c.SelectsUnlinked e) : (c.stepMachine e).1.LinkLaw := by
  intro armed
  cases report : e.linkReport with
  | some connected =>
    obtain ⟨link, timer⟩ := reported (c := c) report
    rw [link, timer]
    cases connected with
    | true => exact Or.inl rfl
    | false => exact Or.inr rfl
  | none =>
    obtain ⟨link, timer⟩ := unreported (c := c) report
    rcases timer with kept | ⟨rings, -, connected⟩
    · rw [link, kept]
      rcases armed_from armed with before | ⟨req, operatorName, nowMs, rfl, accepted⟩
      · exact law before
      · obtain ⟨idle, guarded, free⟩ := (submitSelect_accepted req operatorName nowMs).mp accepted
        by_contra neither
        rw [not_or, Bool.not_eq_true, Bool.not_eq_true] at neither
        exact allowed ⟨idle, guarded, free, neither.1, neither.2⟩
    · exact Or.inl (link.trans (connected armed))

theorem SelectsUnlinked.breaks (unlinked : c.SelectsUnlinked e) : ¬(c.stepMachine e).1.LinkLaw := by
  cases e with
  | submitSelect req operatorName nowMs =>
    obtain ⟨idle, guarded, free, down, stopped⟩ := unlinked
    have same := sameLink_submitSelect (c := c) req operatorName nowMs
    intro law
    have alive := law (submitSelect_arms ((submitSelect_accepted req operatorName nowMs).mpr ⟨idle, guarded, free⟩))
    simp only [stepMachine, same.linkConnected, same.flappingTimer, down, stopped, Bool.false_eq_true,
      or_self] at alive
  | _ => exact absurd unlinked id

end SboContext

/-- What a clock knows of the link of a machine: when the outage that is on has lasted a whole
flapping window, and when the flapping timer rings if it is running. -/
structure LinkClock where
  outage : Option Int := none
  deadline : Int := 0
  deriving DecidableEq, Repr

namespace LinkClock

/-- A report of a lost link: an outage is counted from its first report, the timer from its last. -/
def down (clock : LinkClock) (now window : Int) : LinkClock where
  outage := clock.outage.or (some (now + window))
  deadline := now + window

def after (clock : LinkClock) (m : SboStateMachine) (now : Int) : SboEvent → LinkClock
  | .linkStatusChanged true => { clock with outage := none }
  | .linkStatusChanged false => clock.down now m.flappingTimer.intervalMs
  | .forceLinkDownForTest flappingMs => clock.down now (if 0 < flappingMs then flappingMs else 500)
  | _ => clock

/-- A connected machine has no outage, and while the timer of another one runs it measures the outage. -/
structure Right (m : SboStateMachine) (clock : LinkClock) : Prop where
  connected : m.linkConnected = true → clock.outage = none
  down : m.linkConnected = false → m.flappingTimer.active = true → clock.outage = some clock.deadline

theorem after_unreported {e : SboEvent} (silent : e.linkReport = none) (clock : LinkClock)
    (m : SboStateMachine) (now : Int) : clock.after m now e = clock := by
  cases e with
  | linkStatusChanged connected => cases silent
  | forceLinkDownForTest flappingMs => cases silent
  | _ => rfl

theorem after_down {e : SboEvent} (report : e.linkReport = some false) {clock : LinkClock}
    (calm : clock.outage = none) (m : SboStateMachine) (now : Int) :
    (clock.after m now e).outage = some (clock.after m now e).deadline := by
  cases e with
  | linkStatusChanged connected =>
    obtain rfl := Option.some.inj report
    simp [after, down, calm]
  | forceLinkDownForTest flappingMs => simp [after, down, calm]
  | _ => cases report

theorem after_up {e : SboEvent} (report : e.linkReport = some true) (clock : LinkClock)
    (m : SboStateMachine) (now : Int) : (clock.after m now e).outage = none := by
  cases e with
  | linkStatusChanged connected =>
    obtain rfl := Option.some.inj report
    rfl
  | _ => cases report

theorem Right.step {c : SboContext} {clock : LinkClock} (right : Right c.machine clock) {e : SboEvent}
    (once : ¬c.RepeatsDown e) (now : Int) : Right (c.stepMachine e).1.machine (clock.after c.machine now e) := by
  cases report : e.linkReport with
  | none =>
    obtain ⟨link, timer⟩ := SboContext.unreported (c := c) report
    rw [after_unreported report]
    refine ⟨fun connected => right.connected (link.symm.trans connected), fun lost running => ?_⟩
    rcases timer with kept | ⟨-, rang, -⟩
    · exact right.down (link.symm.trans lost) (kept ▸ running)
    · rw [rang, Timer.expire] at running
      split at running
      · cases running
      · exact right.down (link.symm.trans lost) running
  | some connected =>
    obtain ⟨link, timer⟩ := SboContext.reported (c := c) report
    cases connected with
    | true =>
      refine ⟨fun _ => after_up report clock c.machine now, fun lost => ?_⟩
      cases link.symm.trans lost
    | false =>
      have was : c.machine.linkConnected = true := by
        by_contra lost
        exact once ⟨report, Bool.not_eq_true _ ▸ lost⟩
      refine ⟨fun up => ?_, fun _ _ => after_down report (right.connected was) c.machine now⟩
      cases link.symm.trans up

end LinkClock

namespace SboStation
variable {ι : Type*}

/-- A flapping timer that is due rings before anything else happens to its machine. -/
def OnTime (s : SboStation ι × (ι → LinkClock)) (e : Int × ι × SboEvent) : Prop :=
  (s.1.machines e.2.1).flappingTimer.active = true → e.1 ≤ (s.2 e.2.1).deadline

instance (s : SboStation ι × (ι → LinkClock)) (e : Int × ι × SboEvent) : Decidable (OnTime s e) :=
  inferInstanceAs (Decidable (_ = true → _ ≤ _))

/-- A command goes out with the link up, or within the flapping window of the outage. -/
def CommandInWindow (s : SboStation ι × (ι → LinkClock)) (e : Int × ι × SboEvent) : Prop :=
  hasCommand ((s.1.context e.2.1).stepMachine e.2.2).2 = true → ∀ ends, (s.2 e.2.1).outage = some ends → e.1 ≤ ends

def SelectsUnlinked (s : SboStation ι × (ι → LinkClock)) (e : Int × ι × SboEvent) : Prop :=
  (s.1.context e.2.1).SelectsUnlinked e.2.2

def RepeatsDown (s : SboStation ι × (ι → LinkClock)) (e : Int × ι × SboEvent) : Prop :=
  (s.1.context e.2.1).RepeatsDown e.2.2

instance (s : SboStation ι × (ι → LinkClock)) (e : Int × ι × SboEvent) : Decidable (SelectsUnlinked s e) :=
  inferInstanceAs (Decidable ((s.1.context e.2.1).SelectsUnlinked e.2.2))

instance (s : SboStation ι × (ι → LinkClock)) (e : Int × ι × SboEvent) : Decidable (RepeatsDown s e) :=
  inferInstanceAs (Decidable ((s.1.context e.2.1).RepeatsDown e.2.2))

variable {s : SboStation ι × (ι → LinkClock)} {e : Int × ι × SboEvent}

theorem commandInWindow (law : (s.1.context e.2.1).LinkLaw) (right : (s.2 e.2.1).Right (s.1.machines e.2.1))
    (onTime : OnTime s e) : CommandInWindow s e := by
  intro command ends outage
  have armed : (s.1.machines e.2.1).state = .armed :=
    ((SboContext.transition (s.1.context e.2.1) e.2.2).operated command).1
  cases link : (s.1.machines e.2.1).linkConnected with
  | true =>
    rw [right.connected link] at outage
    cases outage
  | false =>
    have running : (s.1.machines e.2.1).flappingTimer.active = true := by
      rcases law armed with connected | running
      · cases link.symm.trans connected
      · exact running
    rw [right.down link running, Option.some.injEq] at outage
    exact outage ▸ onTime running

variable [DecidableEq ι]

def stepAt : Runs.Step (SboStation ι) (Int × ι × SboEvent) (ι × SboSignal) := fun s e => s.step e.2

def trackLink (s : SboStation ι) (clocks : ι → LinkClock) (e : Int × ι × SboEvent) (_ : List (ι × SboSignal)) :
    ι → LinkClock :=
  Function.update clocks e.2.1 ((clocks e.2.1).after (s.machines e.2.1) e.1 e.2.2)

/-- The station beside a clock; every event comes with its time. -/
def timed : Runs.Step (SboStation ι × (ι → LinkClock)) (Int × ι × SboEvent) (ι × SboSignal) :=
  Runs.watch stepAt trackLink

/-- What every machine satisfies after an event of one of them. -/
theorem timed_keeps {P : SboStateMachine → LinkClock → Prop} (holds : ∀ i, P (s.1.machines i) (s.2 i))
    (moves : P ((s.1.context e.2.1).stepMachine e.2.2).1.machine
      ((s.2 e.2.1).after (s.1.machines e.2.1) e.1 e.2.2)) :
    ∀ i, P ((timed s e).1.1.machines i) ((timed s e).1.2 i) := by
  intro i
  by_cases same : i = e.2.1
  · subst same
    simpa [timed, stepAt, step, put, trackLink] using moves
  · simpa [timed, stepAt, step, put, trackLink, same] using holds i

/-- Armed machines are connected or in the flapping window throughout a run exactly when no select
of the run is accepted with the link down and the window over. If in addition no outage is reported
twice, no command goes out when the link has been down for longer than the window. -/
theorem linkLaw_iff (guarded : ι → Bool) (pidSeq : UInt64) (es : List (Int × ι × SboEvent)) :
    ((∀ s ∈ Runs.reached timed (fresh guarded pidSeq, fun _ => {}) es, ∀ i, (s.1.context i).LinkLaw) ↔
      ∀ v ∈ Runs.visits timed (fresh guarded pidSeq, fun _ => {}) es, ¬SelectsUnlinked v.1 v.2) ∧
    ((∀ v ∈ Runs.visits timed (fresh guarded pidSeq, fun _ => {}) es,
        ¬SelectsUnlinked v.1 v.2 ∧ ¬RepeatsDown v.1 v.2) →
      (∀ v ∈ Runs.visits timed (fresh guarded pidSeq, fun _ => {}) es, OnTime v.1 v.2) →
      ∀ v ∈ Runs.visits timed (fresh guarded pidSeq, fun _ => {}) es, CommandInWindow v.1 v.2) := by
  have start : ∀ i, ((fresh guarded pidSeq : SboStation ι).context i).LinkLaw :=
    fun i armed => by simp [context, fresh] at armed
  have keeps : ∀ (s : SboStation ι × (ι → LinkClock)) (e : Int × ι × SboEvent),
      (∀ i, (s.1.context i).LinkLaw) → ¬SelectsUnlinked s e → ∀ i, ((timed s e).1.1.context i).LinkLaw :=
    fun s e laws allowed => timed_keeps (P := fun m _ => m.state = .armed →
      m.linkConnected = true ∨ m.flappingTimer.active = true) laws ((laws e.2.1).step allowed)
  constructor
  · refine Runs.reached_iff timed es (B := fun _ => True) (I := fun s => ∀ i, (s.1.context i).LinkLaw)
      (J := fun s => ∀ i, (s.1.context i).LinkLaw) (A := fun s e => ¬SelectsUnlinked s e) trivial
      (fun _ _ _ => trivial) start (fun _ laws => laws) (fun s e _ laws allowed => keeps s e laws allowed) ?_
    intro s e _ _ unlinked laws
    have own := laws e.2.1
    have broken := (not_not.mp unlinked).breaks
    simp only [timed, stepAt, step, put, Runs.watch_fst, context, Function.update_self] at own
    exact broken own
  · intro allowed onTime v visited
    have both := Runs.reached_invariant timed es (s := (fresh guarded pidSeq, fun _ => {}))
      (I := fun s => (∀ i, (s.1.context i).LinkLaw) ∧ ∀ i, (s.2 i).Right (s.1.machines i))
      (A := fun s e => ¬SelectsUnlinked s e ∧ ¬RepeatsDown s e)
      ⟨start, fun i => ⟨fun _ => rfl, fun lost => by cases lost⟩⟩
      (fun s e holds meets => ⟨keeps s e holds.1 meets.1,
        timed_keeps (P := fun m clock => clock.Right m) holds.2 ((holds.2 e.2.1).step meets.2 e.1)⟩)
      allowed v.1 (Runs.visit_mem_reached visited).1
    exact commandInWindow (both.1 _) (both.2 _) (onTime v visited)

/-- The link is lost with a point selected, and the operate comes within the window. -/
def lostWhileSelected : List (Int × Unit × SboEvent) :=
  [(0, (), .submitSelect ⟨1, 1, 10, 5, false⟩ "op" 0), (100, (), .linkStatusChanged false),
    (400, (), .submitOperate "sbo-0")]

theorem linkLaw_withinWindow :
    (∃ v ∈ Runs.visits timed (fresh (fun _ : Unit => true) 0, fun _ => {}) lostWhileSelected,
      hasCommand ((v.1.1.context ()).stepMachine v.2.2.2).2 = true ∧ (v.1.2 ()).outage = some 600) ∧
    ∀ v ∈ Runs.visits timed (fresh (fun _ : Unit => true) 0, fun _ => {}) lostWhileSelected,
      CommandInWindow v.1 v.2 :=
  ⟨by decide +kernel, (linkLaw_iff _ 0 lostWhileSelected).2 (by decide +kernel) (by decide +kernel)⟩

/-- The link is lost and stays lost; a select and an operate come seconds later. -/
def lateSelect : List (Int × Unit × SboEvent) :=
  [(0, (), .linkStatusChanged false), (500, (), .flappingExpired),
    (3000, (), .submitSelect ⟨1, 1, 10, 5, false⟩ "op" 3000), (4000, (), .submitOperate "sbo-0")]

/-- The machine is armed without a link or a window, and its command goes out. -/
theorem linkLaw_fails :
    ¬(∀ s ∈ Runs.reached timed (fresh (fun _ : Unit => true) 0, fun _ => {}) lateSelect,
        ∀ i, (s.1.context i).LinkLaw) ∧
      (∀ v ∈ Runs.visits timed (fresh (fun _ : Unit => true) 0, fun _ => {}) lateSelect, OnTime v.1 v.2) ∧
      ¬∀ v ∈ Runs.visits timed (fresh (fun _ : Unit => true) 0, fun _ => {}) lateSelect, CommandInWindow v.1 v.2 := by
  have split : lateSelect = lateSelect.take 3 ++ [(4000, (), .submitOperate "sbo-0")] := rfl
  refine ⟨fun laws => ?_, ?_, fun inWindow => ?_⟩
  · have law := laws _ (Runs.mem_reached_iff.mpr ⟨lateSelect.take 3, List.take_prefix _ _, rfl⟩) ()
    have alive := law (by decide +kernel)
    revert alive
    decide +kernel
  · decide +kernel
  · rw [split, Runs.visits_concat] at inWindow
    have bound := inWindow _ (List.mem_append_right _ (List.mem_singleton_self _)) (by decide +kernel) 500
      (by decide +kernel)
    exact absurd bound (by decide)

end SboStation
end EnerSentry.Business
