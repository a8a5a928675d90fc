import EnerSentry.Business.SboOccupancy

/-!
The safety of select before operate, for any number of machines around one guard. An armed
machine holds the guard's bucket for its key, so no two are armed on one key. A monitor
remembers the live selection of each machine, and a command only goes out for it: under its
sequence id, while the machine is armed, once, and as it was selected.
-/

namespace EnerSentry.Business
open EnerSentry.Lib EnerSentry.Lib.Ownership

/-- A selection was ended by the machine itself. -/
def isArmedCleared : SboSignal → Bool
  | .armedCleared _ => true
  | _ => false

namespace SboContext

/-- The selection of a machine after an event: an accepted select brings one, and an accepted
operate, an accepted cancel, a timeout and an abort end it. -/
def selectionAfter (c : SboContext) (before : Option (String × SboSelectRequest)) :
    SboEvent → Option (String × SboSelectRequest)
  | .submitSelect req operatorName nowMs =>
      let r := c.submitSelect req operatorName nowMs
      if r.accepted then some (r.context.machine.sequenceId, req) else before
  | .submitOperate sequenceId => if (c.submitOperate sequenceId).accepted then none else before
  | .submitCancel sequenceId => if (c.submitCancel sequenceId).accepted then none else before
  | e => if (c.stepMachine e).2.any isArmedCleared then none else before

/-- An armed machine is armed for its selection. -/
def Selected (c : SboContext) (selection : Option (String × SboSelectRequest)) : Prop :=
  c.machine.state = .armed →
    ∃ req, selection = some (c.machine.sequenceId, req) ∧ c.machine.heldKey = some req.key ∧
      c.machine.pendingCommand = req.command

/-- A machine goes on being armed for what it was armed for. -/
structure SameArming (m n : SboStateMachine) : Prop where
  state : m.state = .armed
  sequenceId : n.sequenceId = m.sequenceId
  heldKey : n.heldKey = m.heldKey
  pendingCommand : n.pendingCommand = m.pendingCommand

variable {c : SboContext} {selection : Option (String × SboSelectRequest)} {e : SboEvent}

theorem armed_submitSelect (req : SboSelectRequest) (operatorName : String) (nowMs : Int)
    (armed : (c.submitSelect req operatorName nowMs).context.machine.state = .armed) :
    ((c.submitSelect req operatorName nowMs).accepted = true ∧
        (c.submitSelect req operatorName nowMs).context.machine.heldKey = some req.key ∧
        (c.submitSelect req operatorName nowMs).context.machine.pendingCommand = req.command) ∨
      ((c.submitSelect req operatorName nowMs).accepted = false ∧
        SameArming c.machine (c.submitSelect req operatorName nowMs).context.machine) := by
  unfold submitSelect at armed ⊢
  by_cases busy : c.machine.state ≠ .idle
  · simp only [if_pos busy] at armed ⊢
    split
    · rename_i guarded
      rw [if_pos guarded] at armed
      exact Or.inr ⟨rfl, armed, rfl, rfl, rfl⟩
    · rename_i unguarded
      rw [if_neg unguarded] at armed
      exact Or.inr ⟨rfl, armed, rfl, rfl, rfl⟩
  · have idle : c.machine.state = .idle := not_not.mp busy
    simp only [if_neg busy] at armed ⊢
    by_cases guarded : c.machine.guarded = true
    · simp only [if_pos guarded] at armed ⊢
      split
      · exact Or.inl ⟨rfl, rfl, rfl⟩
      · rename_i refused
        rw [if_neg refused] at armed
        cases idle.symm.trans armed
    · rw [if_neg guarded] at armed
      cases idle.symm.trans armed

theorem armed_submitOperate (sequenceId : String)
    (armed : (c.submitOperate sequenceId).context.machine.state = .armed) :
    (c.submitOperate sequenceId).accepted = false ∧
      SameArming c.machine (c.submitOperate sequenceId).context.machine := by
  unfold submitOperate at armed ⊢
  split
  · rename_i other
    rw [if_pos other] at armed
    exact absurd armed other
  · rename_i was
    split
    · exact ⟨rfl, not_not.mp was, rfl, rfl, rfl⟩
    · rename_i same
      rw [if_neg was, if_neg same] at armed
      cases armed

/-- An abort leaves no machine armed. -/
theorem forceAbort_not_armed (reason : String) : (c.forceAbort reason).1.machine.state ≠ .armed := by
  unfold forceAbort
  split
  · rename_i other
    exact other
  · exact SBOState.noConfusion

theorem armed_submitCancel (sequenceId : String)
    (armed : (c.submitCancel sequenceId).context.machine.state = .armed) :
    (c.submitCancel sequenceId).accepted = false ∧
      SameArming c.machine (c.submitCancel sequenceId).context.machine := by
  unfold submitCancel at armed ⊢
  by_cases other : sequenceId ≠ c.machine.sequenceId
  · rw [if_pos other] at armed ⊢
    exact ⟨rfl, armed, rfl, rfl, rfl⟩
  · rw [if_neg other] at armed ⊢
    split
    · rename_i outside
      rw [if_pos outside] at armed
      exact absurd armed outside.1
    · rename_i inside
      rw [if_neg inside] at armed
      exact absurd armed (forceAbort_not_armed _)

theorem onArmedTimeout_not_armed : c.onArmedTimeout.1.machine.state ≠ .armed := by
  unfold onArmedTimeout
  split
  · rename_i other
    exact other
  · exact SBOState.noConfusion

theorem armed_onFlappingTimeout (armed : c.onFlappingTimeout.1.machine.state = .armed) :
    c.onFlappingTimeout = (c, []) := by
  unfold onFlappingTimeout at armed ⊢
  split
  · rfl
  · rename_i down
    rw [if_neg down] at armed
    exact absurd armed (forceAbort_not_armed _)

theorem armed_onExecutingTimeout (armed : c.onExecutingTimeout.1.machine.state = .armed) :
    c.onExecutingTimeout = (c, []) := by
  unfold onExecutingTimeout at armed ⊢
  split
  · rfl
  · rename_i executed
    rw [if_neg executed] at armed
    cases armed

theorem armed_onDeviceAck {sequenceId reason : String} {success : Bool}
    (armed : (c.onDeviceAck sequenceId success reason).1.machine.state = .armed) :
    c.onDeviceAck sequenceId success reason = (c, []) := by
  unfold onDeviceAck at armed ⊢
  by_cases other : sequenceId ≠ c.machine.sequenceId
  · rw [if_pos other]
  · rw [if_neg other] at armed ⊢
    split
    · rfl
    · rename_i executed
      rw [if_neg executed] at armed
      cases armed

/-- An event without signals that the monitor does not know by name keeps the selection. -/
theorem quiet_step {d : SboContext} (quiet : c.stepMachine e = (d, []))
    (armed : (c.stepMachine e).1.machine.state = .armed)
    (other : c.selectionAfter selection e =
      if (c.stepMachine e).2.any isArmedCleared then none else selection)
    (same : d.machine.state = .armed → SameArming c.machine d.machine) :
    c.selectionAfter selection e = selection ∧ SameArming c.machine (c.stepMachine e).1.machine := by
  rw [quiet] at armed
  rw [other, quiet]
  exact ⟨rfl, same armed⟩

/-- A machine that is armed after an event was armed by it for the selection that the event
made, or goes on being armed for the one it had. -/
theorem armed_step (selection : Option (String × SboSelectRequest)) (e : SboEvent)
    (armed : (c.stepMachine e).1.machine.state = .armed) :
    (∃ req, c.selectionAfter selection e = some ((c.stepMachine e).1.machine.sequenceId, req) ∧
        (c.stepMachine e).1.machine.heldKey = some req.key ∧
        (c.stepMachine e).1.machine.pendingCommand = req.command) ∨
      (c.selectionAfter selection e = selection ∧ SameArming c.machine (c.stepMachine e).1.machine) := by
  cases e with
  | submitSelect req operatorName nowMs =>
    rcases armed_submitSelect req operatorName nowMs armed with ⟨accepted, facts⟩ | ⟨refused, same⟩
    · exact Or.inl ⟨req, by rw [selectionAfter, if_pos accepted]; rfl, facts⟩
    · exact Or.inr ⟨by rw [selectionAfter, if_neg (by simp [refused])], same⟩
  | submitOperate sequenceId =>
    obtain ⟨refused, same⟩ := armed_submitOperate sequenceId armed
    exact Or.inr ⟨by rw [selectionAfter, if_neg (by simp [refused])], same⟩
  | submitCancel sequenceId =>
    obtain ⟨refused, same⟩ := armed_submitCancel sequenceId armed
    exact Or.inr ⟨by rw [selectionAfter, if_neg (by simp [refused])], same⟩
  | deviceAck sequenceId success reason =>
    have still : c.stepMachine (.deviceAck sequenceId success reason) = (c, []) := armed_onDeviceAck armed
    exact Or.inr (quiet_step still armed rfl fun armed => ⟨armed, rfl, rfl, rfl⟩)
  | linkStatusChanged connected => exact Or.inr ⟨rfl, armed, rfl, rfl, rfl⟩
  | armedExpired =>
    by_cases running : c.machine.armedTimer.active = true
    · simp only [stepMachine, if_pos running] at armed
      exact absurd armed onArmedTimeout_not_armed
    · have still : c.stepMachine .armedExpired = (c, []) := if_neg running
      exact Or.inr (quiet_step still armed rfl fun armed => ⟨armed, rfl, rfl, rfl⟩)
  | flappingExpired =>
    by_cases running : c.machine.flappingTimer.active = true
    · have rings : c.stepMachine .flappingExpired = onFlappingTimeout _ := if_pos running
      have still := armed_onFlappingTimeout (rings ▸ armed)
      exact Or.inr (quiet_step (rings.trans still) armed rfl fun armed => ⟨armed, rfl, rfl, rfl⟩)
    · have still : c.stepMachine .flappingExpired = (c, []) := if_neg running
      exact Or.inr (quiet_step still armed rfl fun armed => ⟨armed, rfl, rfl, rfl⟩)
  | execExpired =>
    by_cases running : c.machine.execTimer.active = true
    · have rings : c.stepMachine .execExpired = onExecutingTimeout _ := if_pos running
      have still := armed_onExecutingTimeout (rings ▸ armed)
      exact Or.inr (quiet_step (rings.trans still) armed rfl fun armed => ⟨armed, rfl, rfl, rfl⟩)
    · have still : c.stepMachine .execExpired = (c, []) := if_neg running
      exact Or.inr (quiet_step still armed rfl fun armed => ⟨armed, rfl, rfl, rfl⟩)
  | forceArmedTimeoutForTest => exact absurd armed onArmedTimeout_not_armed
  | forceLinkDownForTest flappingMs => exact Or.inr ⟨rfl, armed, rfl, rfl, rfl⟩

theorem selected_step (selected : c.Selected selection) (e : SboEvent) :
    (c.stepMachine e).1.Selected (c.selectionAfter selection e) := by
  intro armed
  rcases armed_step selection e armed with ⟨req, now, facts⟩ | ⟨kept, same⟩
  · exact ⟨req, now, facts⟩
  · obtain ⟨req, had, held, pending⟩ := selected same.state
    exact ⟨req, by rw [kept, had, same.sequenceId], same.heldKey.trans held, same.pendingCommand.trans pending⟩

/-- The commands among some signals. -/
def commandsOf : List SboSignal → List SboCommand
  | [] => []
  | .commandReady cmd :: rest => cmd :: commandsOf rest
  | _ :: rest => commandsOf rest

/-- What an event puts out is the command of the live selection, if it is an accepted operate
under the selection's sequence id at a machine armed on the selection's key, and no command
otherwise. -/
def CommandsSelected (c : SboContext) (selection : Option (String × SboSelectRequest)) (e : SboEvent) : Prop :=
  commandsOf (c.stepMachine e).2 = [] ∨
    ∃ id req, e = .submitOperate id ∧ (c.submitOperate id).accepted = true ∧ c.machine.state = .armed ∧
      c.machine.heldKey = some req.key ∧ selection = some (id, req) ∧
      commandsOf (c.stepMachine e).2 = [req.command]

theorem commandsOf_of_hasCommand {signals : List SboSignal} (none : hasCommand signals = false) :
    commandsOf signals = [] := by
  induction signals with
  | nil => rfl
  | cons signal signals ih =>
    have parts : isCommandReady signal = false ∧ hasCommand signals = false := by
      simpa [hasCommand] using none
    cases signal with
    | commandReady cmd => cases parts.1
    | _ => exact ih parts.2

theorem commandsOf_guard (fromGuard : List GuardSignal) (later : List SboSignal) :
    commandsOf (fromGuard.map .guard ++ later) = commandsOf later := by
  induction fromGuard with
  | nil => rfl
  | cons signal fromGuard ih => exact ih

/-- An accepted operate sends the pending command. -/
theorem submitOperate_commands (armed : c.machine.state = .armed) :
    (c.submitOperate c.machine.sequenceId).accepted = true ∧
      commandsOf (c.submitOperate c.machine.sequenceId).signals = [c.machine.pendingCommand] := by
  unfold submitOperate
  rw [if_neg (not_not.mpr armed), if_neg (not_not.mpr rfl)]
  refine ⟨rfl, ?_⟩
  change commandsOf (c.releaseHeld.signals.map .guard ++ [.commandReady c.machine.pendingCommand]) = _
  rw [commandsOf_guard]
  rfl

theorem Selected.commands (selected : c.Selected selection) (e : SboEvent) : c.CommandsSelected selection e := by
  cases command : hasCommand (c.stepMachine e).2 with
  | false => exact Or.inl (commandsOf_of_hasCommand command)
  | true =>
    obtain ⟨armed, event⟩ := (transition c e).operated command
    obtain ⟨req, had, held, pending⟩ := selected armed
    obtain ⟨accepted, sent⟩ := submitOperate_commands armed
    exact Or.inr ⟨_, req, event, accepted, armed, held, had, by rw [event, ← pending]; exact sent⟩

end SboContext

namespace SboStation
variable {ι : Type*}

/-- No two machines are armed on one key. -/
def ArmedApart (s : SboStation ι) : Prop :=
  ∀ i j, (s.machines i).state = .armed → (s.machines j).state = .armed →
    (s.machines i).heldKey = (s.machines j).heldKey → i = j

/-- An armed machine has a key, and its bucket under its own sequence id. -/
def ArmedBacked (s : SboStation ι) : Prop :=
  ∀ i, (s.machines i).state = .armed → ∃ key occ, (s.machines i).heldKey = some key ∧
    s.guard.buckets key = some occ ∧ occ.sequenceId = (s.machines i).sequenceId

/-- The claims of the armed machines, apart and locked. -/
structure Locked (s : SboStation ι) : Prop where
  well : s.WellArmed
  apart : Exclusive s.claims
  within : owned s.claims ⊆ s.guard.occupied

variable {s : SboStation ι}

theorem Locked.backed (locked : Locked s) : s.ArmedBacked := by
  intro i armed
  obtain ⟨key, -, held, claimed⟩ := (locked.well i).exists_claim armed
  obtain ⟨occ, bucket, owner⟩ := DeviceSboGuard.mem_occupied.mp (locked.within ⟨i, claimed⟩)
  exact ⟨key, occ, held, bucket, owner⟩

theorem Locked.armedApart (locked : Locked s) : s.ArmedApart := by
  intro i j first second same
  obtain ⟨key, -, held, claimed⟩ := (locked.well i).exists_claim first
  obtain ⟨key', -, held', claimed'⟩ := (locked.well j).exists_claim second
  rw [held, held', Option.some.injEq] at same
  exact locked.apart i j _ _ claimed claimed' same

variable [DecidableEq ι]

/-- A select that is turned down may lock more, never less. -/
theorem leak_grows {c : SboContext} {e : SboEvent} (leak : c.SelectsFreeKey e) :
    c.guard.occupied ⊆ (c.stepMachine e).1.guard.occupied := by
  cases e with
  | submitSelect req operatorName nowMs =>
    obtain ⟨busy, guarded, free⟩ := leak
    simp only [SboContext.stepMachine, SboContext.submitSelect, if_pos busy, if_pos guarded]
    rw [DeviceSboGuard.occupied_tryAcquire free]
    exact Set.subset_insert _ _
  | _ => exact absurd leak id

theorem Locked.step (locked : Locked s) (e : ι × SboEvent) : Locked (s.step e).1 := by
  by_cases leak : s.SelectsFreeKey e
  · have unmoved : (s.step e).1.claims = s.claims := by
      rw [claims_step, (SboContext.leaks leak).1]
      exact Function.update_eq_self ..
    refine ⟨wellArmed_step locked.well, unmoved ▸ locked.apart, ?_⟩
    rw [unmoved]
    exact locked.within.trans (leak_grows leak)
  · have backed : ∀ x, (s.context e.1).machine.claim = some x → x ∈ (s.context e.1).guard.occupied :=
      fun x claimed => locked.within ⟨e.1, claimed⟩
    have move : Move (s.claims e.1, s.guard.occupied) ((s.context e.1).stepMachine e.2).1.locks :=
      (SboContext.transition (s.context e.1) e.2).move (locked.well e.1) backed leak
    have kept := move.keeps_within locked.apart locked.within
    rw [← claims_step] at kept
    exact ⟨wellArmed_step locked.well, kept.1, kept.2⟩

/-- The monitor: the live selection of each machine. -/
def trackSelection (s : SboStation ι) (selections : ι → Option (String × SboSelectRequest)) (e : ι × SboEvent)
    (_ : List (ι × SboSignal)) : ι → Option (String × SboSelectRequest) :=
  Function.update selections e.1 ((s.context e.1).selectionAfter (selections e.1) e.2)

def selecting : Runs.Step (SboStation ι × (ι → Option (String × SboSelectRequest))) (ι × SboEvent) (ι × SboSignal) :=
  Runs.watch step trackSelection

end SboStation
end EnerSentry.Business
