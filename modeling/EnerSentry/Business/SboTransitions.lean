import EnerSentry.Business.SboStateMachine

/-!
Everything one event can do to a machine, as a finite list of transitions: what becomes
of the state, the sequence id, the held key and the guard, and which signals that matter
to a command's life are emitted. Later results read this list and never the handlers.
-/

namespace EnerSentry.Business
open EnerSentry.Lib

/-- The sequence ids of the executing outcomes among some signals, in order. -/
def outcomeIds : List SboSignal → List String
  | [] => []
  | .executingSucceeded id _ :: rest => id :: outcomeIds rest
  | .executingFailed id _ _ :: rest => id :: outcomeIds rest
  | _ :: rest => outcomeIds rest

def isCommandReady : SboSignal → Bool
  | .commandReady _ => true
  | _ => false

def hasCommand (signals : List SboSignal) : Bool := signals.any isCommandReady

section Signals
variable (signals later : List SboSignal) (fromGuard : List GuardSignal)

@[simp] theorem outcomeIds_append :
    outcomeIds (signals ++ later) = outcomeIds signals ++ outcomeIds later := by
  induction signals with
  | nil => rfl
  | cons signal signals ih => cases signal <;> simp [outcomeIds, ih]

@[simp] theorem outcomeIds_guard : outcomeIds (fromGuard.map .guard) = [] := by
  induction fromGuard with
  | nil => rfl
  | cons signal fromGuard ih => simpa [outcomeIds] using ih

@[simp] theorem hasCommand_append :
    hasCommand (signals ++ later) = (hasCommand signals || hasCommand later) := by
  simp [hasCommand]

@[simp] theorem hasCommand_guard : hasCommand (fromGuard.map .guard) = false := by
  simp [hasCommand, isCommandReady]

end Signals

/-- Neither a command nor an outcome is among the signals. -/
structure Silent (signals : List SboSignal) : Prop where
  outcomes : outcomeIds signals = []
  command : hasCommand signals = false

/-- The selection of a machine, whatever its timers and link do. -/
structure SameSelection (m n : SboStateMachine) : Prop where
  state : n.state = m.state
  sequenceId : n.sequenceId = m.sequenceId
  heldKey : n.heldKey = m.heldKey
  guarded : n.guarded = m.guarded

theorem SameSelection.refl (m : SboStateMachine) : SameSelection m m := ⟨rfl, rfl, rfl, rfl⟩

namespace SboContext

/-- A select that reaches a machine which is not idle, for a key nobody has locked. -/
def SelectsFreeKey (c : SboContext) : SboEvent → Prop
  | .submitSelect req _ _ =>
      c.machine.state ≠ .idle ∧ c.machine.guarded = true ∧ c.guard.buckets req.key = none
  | _ => False

/-- The link stayed down for the whole flapping window while a command was executing. -/
def FlapsExecuted (c : SboContext) : SboEvent → Prop
  | .flappingExpired =>
      c.machine.flappingTimer.active = true ∧ c.machine.linkConnected = false ∧
        c.machine.state = .executed
  | _ => False

/-- `flaps` stands for whatever lets a forced abort reach an executing machine. -/
inductive Transition (flaps : Prop) (c : SboContext) (e : SboEvent) (d : SboContext)
    (signals : List SboSignal) : Prop where
  | calm (same : SameSelection c.machine d.machine) (guard : d.guard = c.guard)
      (silent : Silent signals)
  | leaks (leak : c.SelectsFreeKey e) (same : SameSelection c.machine d.machine)
      (silent : Silent signals)
  | refused (idle : c.machine.state = .idle) (stays : d.machine.state = .idle)
      (guard : d.guard = c.guard) (silent : Silent signals)
  | arms (key : SboDeviceKey) (operatorName : String) (nowMs : Int)
      (idle : c.machine.state = .idle) (free : c.guard.buckets key = none)
      (armed : d.machine.state = .armed) (guarded : d.machine.guarded = true)
      (held : d.machine.heldKey = some key) (named : d.machine.sequenceId ≠ "")
      (guard : d.guard = (c.guard.tryAcquire key d.machine.sequenceId operatorName nowMs).guard)
      (silent : Silent signals)
  | operates (armed : c.machine.state = .armed) (event : e = .submitOperate c.machine.sequenceId)
      (executed : d.machine.state = .executed) (same : d.machine.sequenceId = c.machine.sequenceId)
      (guard : d.guard = c.releaseHeld.guard) (outcomes : outcomeIds signals = [])
      (command : hasCommand signals = true)
  | ends (armed : c.machine.state = .armed) (idle : d.machine.state = .idle)
      (guard : d.guard = c.releaseHeld.guard) (silent : Silent signals)
  | reports (executed : c.machine.state = .executed) (idle : d.machine.state = .idle)
      (guard : d.guard = c.guard) (outcomes : outcomeIds signals = [c.machine.sequenceId])
      (command : hasCommand signals = false)
  | forgets (fault : c.machine.state = .executed → flaps)
      (unarmed : c.machine.state ≠ .armed) (stays : d.machine.state = c.machine.state)
      (guard : d.guard = c.guard) (silent : Silent signals)

variable {flaps : Prop} {c : SboContext} {e : SboEvent}

theorem Transition.unchanged (c : SboContext) (e : SboEvent) : Transition flaps c e c [] :=
  .calm (.refl _) rfl ⟨rfl, rfl⟩

/-- Timers and the link play no part in what a transition says about its start. -/
theorem Transition.retime {b d : SboContext} {signals : List SboSignal}
    (move : Transition flaps b e d signals) (same : SameSelection c.machine b.machine)
    (guard : b.guard = c.guard) : Transition flaps c e d signals := by
  have freed : b.releaseHeld.guard = c.releaseHeld.guard := by
    simp only [releaseHeld, same.guarded, same.heldKey, same.sequenceId, guard]
  cases move with
  | calm kept unlocked silent =>
    exact .calm ⟨kept.state.trans same.state, kept.sequenceId.trans same.sequenceId,
      kept.heldKey.trans same.heldKey, kept.guarded.trans same.guarded⟩ (unlocked.trans guard) silent
  | leaks leak kept silent =>
    have leak' : c.SelectsFreeKey e := by
      cases e with
      | submitSelect req operatorName nowMs =>
        simpa only [SelectsFreeKey, same.state, same.guarded, guard] using leak
      | _ => exact absurd leak id
    exact .leaks leak' ⟨kept.state.trans same.state, kept.sequenceId.trans same.sequenceId,
      kept.heldKey.trans same.heldKey, kept.guarded.trans same.guarded⟩ silent
  | refused idle stays unlocked silent =>
    exact .refused (same.state ▸ idle) stays (unlocked.trans guard) silent
  | arms key operatorName nowMs idle free armed guarded held named locked silent =>
    exact .arms key operatorName nowMs (same.state ▸ idle) (guard ▸ free) armed guarded held named
      (guard ▸ locked) silent
  | operates armed event executed kept unlocked outcomes command =>
    exact .operates (same.state ▸ armed) (same.sequenceId ▸ event) executed
      (kept.trans same.sequenceId) (unlocked.trans freed) outcomes command
  | ends armed idle unlocked silent =>
    exact .ends (same.state ▸ armed) idle (unlocked.trans freed) silent
  | reports executed idle unlocked outcomes command =>
    exact .reports (same.state ▸ executed) idle (unlocked.trans guard) (same.sequenceId ▸ outcomes)
      command
  | forgets fault unarmed stays unlocked silent =>
    exact .forgets (same.state ▸ fault) (same.state ▸ unarmed) (stays.trans same.state)
      (unlocked.trans guard) silent

/-- A command goes out only when an armed machine is operated under its sequence id. -/
theorem Transition.operated {d : SboContext} {signals : List SboSignal} (move : Transition flaps c e d signals)
    (command : hasCommand signals = true) :
    c.machine.state = .armed ∧ e = .submitOperate c.machine.sequenceId := by
  cases move with
  | operates armed event => exact ⟨armed, event⟩
  | reports executed idle guard outcomes none => rw [none] at command; cases command
  | calm same guard silent => rw [silent.command] at command; cases command
  | leaks leak same silent => rw [silent.command] at command; cases command
  | refused idle stays guard silent => rw [silent.command] at command; cases command
  | arms key operatorName nowMs idle free armed guarded held named guard silent =>
    rw [silent.command] at command
    cases command
  | ends armed idle guard silent => rw [silent.command] at command; cases command
  | forgets fault unarmed stays guard silent => rw [silent.command] at command; cases command

theorem transition_submitSelect (req : SboSelectRequest) (operatorName : String) (nowMs : Int) :
    Transition flaps c (.submitSelect req operatorName nowMs) (c.submitSelect req operatorName nowMs).context
      (c.submitSelect req operatorName nowMs).signals := by
  unfold submitSelect
  by_cases busy : c.machine.state ≠ .idle
  · rw [if_pos busy]
    by_cases guarded : c.machine.guarded = true
    · rw [if_pos guarded]
      by_cases free : c.guard.buckets req.key = none
      · exact .leaks ⟨busy, guarded, free⟩ (.refl _) ⟨by simp, by simp⟩
      · exact .calm (.refl _) (DeviceSboGuard.tryAcquire_taken free) ⟨by simp, by simp⟩
    · rw [if_neg guarded]
      exact .unchanged _ _
  · rw [if_neg busy]
    have idle : c.machine.state = .idle := not_not.mp busy
    by_cases guarded : c.machine.guarded = true
    · simp only [if_pos guarded]
      by_cases free : c.guard.buckets req.key = none
      · rw [if_pos (DeviceSboGuard.tryAcquire_granted.mpr free)]
        exact .arms req.key operatorName nowMs idle free rfl guarded rfl (by simp [enterArmedState])
          rfl ⟨by simp [enterArmedState, outcomeIds], by simp [enterArmedState, hasCommand, isCommandReady]⟩
      · rw [if_neg (fun granted => free (DeviceSboGuard.tryAcquire_granted.mp granted))]
        exact .refused idle idle (DeviceSboGuard.tryAcquire_taken free) ⟨by simp, by simp⟩
    · simp only [if_neg guarded]
      exact .refused idle idle rfl ⟨rfl, rfl⟩

theorem transition_submitOperate (sequenceId : String) :
    Transition flaps c (.submitOperate sequenceId) (c.submitOperate sequenceId).context
      (c.submitOperate sequenceId).signals := by
  unfold submitOperate
  by_cases armed : c.machine.state = .armed
  · rw [if_neg (not_not.mpr armed)]
    by_cases same : sequenceId = c.machine.sequenceId
    · rw [if_neg (not_not.mpr same), same]
      exact .operates armed rfl rfl rfl rfl (by simp [outcomeIds])
        (by simp [hasCommand, isCommandReady])
    · rw [if_pos same]
      exact .unchanged _ _
  · rw [if_pos armed]
    exact .unchanged _ _

/-- The common tail of an abort and of an expired selection ends the selection. -/
theorem transition_clearArmed (armed : c.machine.state = .armed) (via : SBOState) (reason : String) :
    Transition flaps c e (c.clearArmed via reason).1 (c.clearArmed via reason).2 :=
  .ends armed rfl rfl ⟨by simp [clearArmed, outcomeIds], by simp [clearArmed, hasCommand, isCommandReady]⟩

theorem transition_forceAbort (fault : c.machine.state = .executed → flaps) (reason : String) :
    Transition flaps c e (c.forceAbort reason).1 (c.forceAbort reason).2 := by
  unfold forceAbort
  by_cases armed : c.machine.state = .armed
  · rw [if_neg (not_not.mpr armed)]
    exact .ends armed rfl rfl
      ⟨by simp [clearArmed, outcomeIds], by simp [clearArmed, hasCommand, isCommandReady]⟩
  · rw [if_pos armed]
    exact .forgets fault armed rfl rfl ⟨rfl, rfl⟩

theorem transition_submitCancel (sequenceId : String) :
    Transition flaps c (.submitCancel sequenceId) (c.submitCancel sequenceId).context
      (c.submitCancel sequenceId).signals := by
  unfold submitCancel
  by_cases same : sequenceId = c.machine.sequenceId
  · rw [if_neg (not_not.mpr same)]
    by_cases outside : c.machine.state ≠ .armed ∧ c.machine.state ≠ .selecting
    · rw [if_pos outside]
      exact .unchanged _ _
    · rw [if_neg outside]
      apply transition_forceAbort
      intro executed
      simp [executed] at outside
  · rw [if_pos same]
    exact .unchanged _ _

theorem transition_onDeviceAck (sequenceId : String) (success : Bool) (reason : String) :
    Transition flaps c e (c.onDeviceAck sequenceId success reason).1
      (c.onDeviceAck sequenceId success reason).2 := by
  unfold onDeviceAck
  by_cases same : sequenceId = c.machine.sequenceId
  · rw [if_neg (not_not.mpr same)]
    by_cases executed : c.machine.state = .executed
    · rw [if_neg (not_not.mpr executed), same]
      exact .reports executed rfl rfl (by cases success <;> rfl) (by cases success <;> rfl)
    · rw [if_pos executed]
      exact .unchanged _ _
  · rw [if_pos same]
    exact .unchanged _ _

theorem transition_onArmedTimeout : Transition flaps c e c.onArmedTimeout.1 c.onArmedTimeout.2 := by
  unfold onArmedTimeout
  by_cases armed : c.machine.state = .armed
  · rw [if_neg (not_not.mpr armed)]
    exact transition_clearArmed armed _ _
  · rw [if_pos armed]
    exact .unchanged _ _

theorem transition_onFlappingTimeout
    (fault : c.machine.linkConnected = false → c.machine.state = .executed → flaps) :
    Transition flaps c e c.onFlappingTimeout.1 c.onFlappingTimeout.2 := by
  unfold onFlappingTimeout
  by_cases connected : c.machine.linkConnected = true
  · rw [if_pos connected]
    exact .unchanged _ _
  · rw [if_neg connected]
    exact transition_forceAbort (fault (by simpa using connected)) _

theorem transition_onExecutingTimeout :
    Transition flaps c e c.onExecutingTimeout.1 c.onExecutingTimeout.2 := by
  unfold onExecutingTimeout
  by_cases executed : c.machine.state = .executed
  · rw [if_neg (not_not.mpr executed)]
    exact .reports executed rfl rfl rfl rfl
  · rw [if_pos executed]
    exact .unchanged _ _

/-- The whole list: what any event does to any machine. -/
theorem transition (c : SboContext) (e : SboEvent) :
    Transition (c.FlapsExecuted e) c e (c.stepMachine e).1 (c.stepMachine e).2 := by
  cases e with
  | submitSelect req operatorName nowMs => exact transition_submitSelect req operatorName nowMs
  | submitOperate sequenceId => exact transition_submitOperate sequenceId
  | submitCancel sequenceId => exact transition_submitCancel sequenceId
  | deviceAck sequenceId success reason => exact transition_onDeviceAck sequenceId success reason
  | linkStatusChanged connected => exact .calm ⟨rfl, rfl, rfl, rfl⟩ rfl ⟨rfl, rfl⟩
  | armedExpired =>
    simp only [stepMachine]
    split
    · exact transition_onArmedTimeout.retime ⟨rfl, rfl, rfl, rfl⟩ rfl
    · exact .unchanged _ _
  | flappingExpired =>
    simp only [stepMachine]
    split
    · rename_i running
      refine (transition_onFlappingTimeout ?_).retime ⟨rfl, rfl, rfl, rfl⟩ rfl
      exact fun down executed => ⟨running, down, executed⟩
    · exact .unchanged _ _
  | execExpired =>
    simp only [stepMachine]
    split
    · exact transition_onExecutingTimeout.retime ⟨rfl, rfl, rfl, rfl⟩ rfl
    · exact .unchanged _ _
  | forceArmedTimeoutForTest => exact transition_onArmedTimeout
  | forceLinkDownForTest flappingMs => exact .calm ⟨rfl, rfl, rfl, rfl⟩ rfl ⟨rfl, rfl⟩

end SboContext
end EnerSentry.Business
