import EnerSentry.Business.SboTransitions

/-!
Every accepted operate is answered by one executing outcome that carries its sequence id.
A monitor beside the station remembers, for each machine, the id whose command is out and
unanswered. The one event that loses it is a flapping window that runs out while the
machine is executing: the forced abort forgets the id and leaves the machine where it is.
-/

namespace EnerSentry.Business
open EnerSentry.Lib

/-- The sequence id an event operates on. -/
def SboEvent.operated : SboEvent → Option String
  | .submitOperate id => some id
  | _ => none

/-- The unanswered command of a machine after one of its events. -/
def commandAfter (before : Option String) (e : SboEvent) (signals : List SboSignal) : Option String :=
  if hasCommand signals then e.operated
  else if outcomeIds signals = [] then before
  else none

namespace SboContext
variable {flaps : Prop} {c d : SboContext} {e : SboEvent} {signals : List SboSignal}
  {pending : Option String} {q : String}

/-- An ack for `q` is reported as `q` and ends the execution. -/
def Answers (c : SboContext) (q : String) : Prop :=
  ∀ success reason, outcomeIds (c.onDeviceAck q success reason).2 = [q] ∧
    (c.onDeviceAck q success reason).1.machine.state = .idle

/-- A machine is executing exactly while its own command is unanswered. -/
def Tracked (c : SboContext) (pending : Option String) : Prop :=
  pending = if c.machine.state = .executed then some c.machine.sequenceId else none

/-- Sequence ids that are in use are never empty. -/
def Named (c : SboContext) (pending : Option String) : Prop :=
  (c.machine.state = .armed → c.machine.sequenceId ≠ "") ∧ ∀ q, pending = some q → q ≠ ""

theorem commandAfter_silent (silent : Silent signals) : commandAfter pending e signals = pending := by
  simp [commandAfter, silent.command, silent.outcomes]

theorem answers_own (executed : c.machine.state = .executed) : c.Answers c.machine.sequenceId := by
  intro success reason
  cases success <;> simp [onDeviceAck, executed, outcomeIds]

/-- An ack under another id than the machine's is dropped. -/
theorem Answers.own (answers : c.Answers q) : q = c.machine.sequenceId := by
  by_contra other
  have heard := (answers true "").1
  simp [onDeviceAck, other, outcomeIds] at heard

theorem Transition.named (transition : Transition flaps c e d signals) (named : c.Named pending) :
    d.Named (commandAfter pending e signals) := by
  cases transition with
  | calm same guard silent =>
    rw [commandAfter_silent silent]
    exact ⟨fun armed => same.sequenceId ▸ named.1 (same.state ▸ armed), named.2⟩
  | leaks leak same silent =>
    rw [commandAfter_silent silent]
    exact ⟨fun armed => same.sequenceId ▸ named.1 (same.state ▸ armed), named.2⟩
  | refused idle stays guard silent =>
    rw [commandAfter_silent silent]
    exact ⟨fun armed => by simp [stays] at armed, named.2⟩
  | arms key operatorName nowMs idle free armed guarded held fresh guard silent =>
    rw [commandAfter_silent silent]
    exact ⟨fun _ => fresh, named.2⟩
  | operates armed event executed same guard outcomes command =>
    refine ⟨fun now => by simp [executed] at now, ?_⟩
    intro q operated
    simp only [commandAfter, command, event, SboEvent.operated, ↓reduceIte, Option.some.injEq] at operated
    exact operated ▸ named.1 armed
  | ends armed idle guard silent =>
    rw [commandAfter_silent silent]
    exact ⟨fun now => by simp [idle] at now, named.2⟩
  | reports executed idle guard outcomes command =>
    refine ⟨fun now => by simp [idle] at now, ?_⟩
    simp [commandAfter, command, outcomes]
  | forgets fault unarmed stays guard silent =>
    rw [commandAfter_silent silent]
    exact ⟨fun armed => absurd (stays ▸ armed) unarmed, named.2⟩

theorem Transition.tracked (transition : Transition flaps c e d signals) (tracked : c.Tracked pending)
    (allowed : ¬flaps) : d.Tracked (commandAfter pending e signals) := by
  cases transition with
  | calm same guard silent =>
    rw [commandAfter_silent silent, Tracked, same.state, same.sequenceId]
    exact tracked
  | leaks leak same silent =>
    rw [commandAfter_silent silent, Tracked, same.state, same.sequenceId]
    exact tracked
  | refused idle stays guard silent =>
    rw [commandAfter_silent silent]
    simpa [Tracked, idle, stays] using tracked
  | arms key operatorName nowMs idle free armed guarded held fresh guard silent =>
    rw [commandAfter_silent silent]
    simpa [Tracked, idle, armed] using tracked
  | operates armed event executed same guard outcomes command =>
    simp [Tracked, commandAfter, command, event, SboEvent.operated, executed, same]
  | ends armed idle guard silent =>
    rw [commandAfter_silent silent]
    simpa [Tracked, armed, idle] using tracked
  | reports executed idle guard outcomes command =>
    simp [Tracked, commandAfter, command, outcomes, idle]
  | forgets fault unarmed stays guard silent =>
    have calm : c.machine.state ≠ .executed := fun executed => allowed (fault executed)
    rw [commandAfter_silent silent]
    simpa [Tracked, stays, calm] using tracked

/-- Only the unanswered command is ever reported, and only once. -/
theorem Transition.outcome (transition : Transition flaps c e d signals) (tracked : c.Tracked pending) :
    outcomeIds signals = [] ∨ ∃ q, outcomeIds signals = [q] ∧ pending = some q := by
  cases transition with
  | calm same guard silent => exact Or.inl silent.outcomes
  | leaks leak same silent => exact Or.inl silent.outcomes
  | refused idle stays guard silent => exact Or.inl silent.outcomes
  | arms key operatorName nowMs idle free armed guarded held fresh guard silent =>
    exact Or.inl silent.outcomes
  | operates armed event executed same guard outcomes command => exact Or.inl outcomes
  | ends armed idle guard silent => exact Or.inl silent.outcomes
  | reports executed idle guard outcomes command =>
    exact Or.inr ⟨_, outcomes, by rw [tracked, if_pos executed]⟩
  | forgets fault unarmed stays guard silent => exact Or.inl silent.outcomes

/-- The abort leaves an executing machine without a sequence id, and says nothing. -/
theorem flapped (flapping : c.FlapsExecuted e) :
    (c.stepMachine e).1.machine.state = .executed ∧ (c.stepMachine e).1.machine.sequenceId = "" ∧
      (c.stepMachine e).2 = [] := by
  cases e with
  | flappingExpired =>
    obtain ⟨running, down, executed⟩ := flapping
    simp [stepMachine, running, onFlappingTimeout, down, forceAbort, executed,
      SboStateMachine.clearSequence]
  | _ => exact absurd flapping id

end SboContext

namespace SboStation
variable {ι : Type*}

/-- An armed machine owes no outcome; an executing one answers the ack of what it owes. -/
structure Tied (s : SboStation ι × (ι → Option String)) : Prop where
  armed : ∀ i, (s.1.machines i).state = .armed → s.2 i = none
  executed : ∀ i, (s.1.machines i).state = .executed → ∃ q, s.2 i = some q ∧ (s.1.context i).Answers q

def Tracked (s : SboStation ι × (ι → Option String)) : Prop := ∀ i, (s.1.context i).Tracked (s.2 i)

def Named (s : SboStation ι × (ι → Option String)) : Prop := ∀ i, (s.1.context i).Named (s.2 i)

variable {s : SboStation ι × (ι → Option String)} {e : ι × SboEvent}

theorem Tracked.tied (tracked : Tracked s) : Tied s := by
  constructor
  · intro i armed
    simpa [SboContext.Tracked, context, armed] using tracked i
  · intro i executed
    refine ⟨(s.1.machines i).sequenceId, ?_, SboContext.answers_own executed⟩
    simpa [SboContext.Tracked, context, executed] using tracked i

variable [DecidableEq ι]

/-- The monitor: which command of each machine is out and unanswered. -/
def trackCommand (_ : SboStation ι) (pending : ι → Option String) (e : ι × SboEvent)
    (out : List (ι × SboSignal)) : ι → Option String :=
  Function.update pending e.1 (commandAfter (pending e.1) e.2 (out.map Prod.snd))

/-- What a step reports is the one unanswered command of the machine it happens to. -/
def ReportsPending (s : SboStation ι × (ι → Option String)) (e : ι × SboEvent) : Prop :=
  let ids := outcomeIds ((s.1.step e).2.map Prod.snd)
  ids = [] ∨ ∃ q, ids = [q] ∧ q ≠ "" ∧ s.2 e.1 = some q

def FlapsExecuted (s : SboStation ι) (e : ι × SboEvent) : Prop := (s.context e.1).FlapsExecuted e.2

def watched : Runs.Step (SboStation ι × (ι → Option String)) (ι × SboEvent) (ι × SboSignal) :=
  Runs.watch step trackCommand

theorem step_signals : (s.1.step e).2.map Prod.snd = ((s.1.context e.1).stepMachine e.2).2 := by
  simp [step, Function.comp_def]

/-- A relation between one machine and its own command is kept by every step of the
station when the machine's own transition keeps it. -/
theorem watched_keeps {P : SboContext → Option String → Prop}
    (own : ∀ c d : SboContext, ∀ pending, c.machine = d.machine → P c pending → P d pending)
    (holds : ∀ i, P (s.1.context i) (s.2 i))
    (moves : P ((s.1.context e.1).stepMachine e.2).1
      (commandAfter (s.2 e.1) e.2 ((s.1.context e.1).stepMachine e.2).2)) :
    ∀ i, P ((watched s e).1.1.context i) ((watched s e).1.2 i) := by
  intro i
  by_cases same : i = e.1
  · subst same
    simp only [watched, Runs.watch_fst, Runs.watch_snd, trackCommand, step_signals,
      Function.update_self]
    exact own _ _ _ (by simp [context, step, put]) moves
  · simp only [watched, Runs.watch_fst, Runs.watch_snd, trackCommand, Function.update_of_ne same]
    exact own _ _ _ (by simp [context, step, put, same]) (holds i)

theorem named_watched (named : Named s) : Named (watched s e).1 :=
  watched_keeps (fun c d pending same => by simp [SboContext.Named, same]) named
    ((SboContext.transition _ _).named (named e.1))

theorem tracked_watched (tracked : Tracked s) (allowed : ¬FlapsExecuted s.1 e) :
    Tracked (watched s e).1 :=
  watched_keeps (fun c d pending same => by simp [SboContext.Tracked, same]) tracked
    ((SboContext.transition _ _).tracked (tracked e.1) allowed)

theorem Tracked.reports (tracked : Tracked s) (named : Named s) : ReportsPending s e := by
  have outcome := (SboContext.transition (s.1.context e.1) e.2).outcome (tracked e.1)
  simp only [ReportsPending, step_signals]
  rcases outcome with silent | ⟨q, ids, owed⟩
  · exact Or.inl silent
  · exact Or.inr ⟨q, ids, (named e.1).2 q owed, owed⟩

theorem tied_breaks (named : Named s) (flapping : FlapsExecuted s.1 e) :
    ¬Tied (watched s e).1 := by
  obtain ⟨executed, forgotten, silent⟩ := SboContext.flapped flapping
  intro after
  have state : ((watched s e).1.1.machines e.1).state = .executed := by
    simpa [watched, step, put] using executed
  obtain ⟨q, owed, answers⟩ := after.executed e.1 state
  have named' := (named_watched (e := e) named e.1).2 q owed
  have cleared : ((watched s e).1.1.machines e.1).sequenceId = "" := by
    simpa [watched, step, put] using forgotten
  exact named' (answers.own.trans cleared)

variable (guarded : ι → Bool) (pidSeq : UInt64) (es : List (ι × SboEvent))

/-- Commands and outcomes stay paired throughout a run exactly when no flapping window of
the run expires on an executing machine. -/
theorem pairing_iff :
    ((∀ s ∈ Runs.reached watched (fresh guarded pidSeq, fun _ => none) es, Tied s) ∧
      ∀ v ∈ Runs.visits watched (fresh guarded pidSeq, fun _ => none) es, ReportsPending v.1 v.2) ↔
    ∀ v ∈ Runs.visits step (fresh guarded pidSeq) es, ¬FlapsExecuted v.1 v.2 := by
  have start : Named (fresh guarded pidSeq, fun _ => none) :=
    fun i => ⟨fun armed => by simp [context, fresh] at armed, by simp⟩
  have idle : Tracked (fresh guarded pidSeq, fun _ => none) := fun i => by
    simp [SboContext.Tracked, context, fresh]
  have rule := Runs.reached_iff watched es
    (A := fun s e => ¬FlapsExecuted s.1 e) start (fun s e => named_watched) idle
    (fun s => Tracked.tied) (fun s e named tracked allowed => tracked_watched tracked allowed)
    (fun s e named tied flapping => tied_breaks named (not_not.mp flapping))
  rw [← Runs.visits_watch step trackCommand (fresh guarded pidSeq, fun _ => none), List.forall_mem_map]
  constructor
  · intro holds
    exact rule.mp holds.1
  · intro allowed
    refine ⟨rule.mpr allowed, ?_⟩
    intro v visited
    have both := Runs.reached_invariant watched es (I := fun s => Named s ∧ Tracked s)
      (A := fun s e => ¬FlapsExecuted s.1 e) ⟨start, idle⟩
      (fun s e holds meets => ⟨named_watched holds.1, tracked_watched holds.2 meets⟩) allowed
      v.1 (Runs.visit_mem_reached visited).1
    exact both.2.reports both.1

/-- A command is out when the link drops for longer than the flapping window. -/
def flappedCommand : List (Unit × SboEvent) :=
  [((), .submitSelect ⟨1, 1, 10, 5, false⟩ "op" 0), ((), .submitOperate "sbo-0"),
    ((), .linkStatusChanged false), ((), .flappingExpired)]

/-- The machine is left executing under an empty id, so the ack of its command is dropped. -/
theorem pairing_fails :
    ¬∀ s ∈ Runs.reached watched (fresh (fun _ : Unit => true) 0, fun _ => none) flappedCommand,
      Tied s := by
  intro holds
  have last := holds _ Runs.run_mem_reached
  obtain ⟨q, owed, answers⟩ := last.executed () (by decide +kernel)
  have named : (Runs.run watched (fresh (fun _ : Unit => true) 0, fun _ => none)
      flappedCommand).2 () = some "sbo-0" := by decide +kernel
  have cleared : ((Runs.run watched (fresh (fun _ : Unit => true) 0, fun _ => none)
      flappedCommand).1.machines ()).sequenceId = "" := by decide +kernel
  rw [named, Option.some.injEq] at owed
  have wrong : "sbo-0" = "" := owed.trans (answers.own.trans cleared)
  exact absurd wrong (by decide)

end SboStation
end EnerSentry.Business
