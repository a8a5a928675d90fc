import EnerSentry.App.ControlSafety

/-!
The order of the control path. Commands go out in the order of their selects, and as long as nothing that was sent
over a lost connection is served late, the devices are given their writes in the order of the commands, through
every loss of a connection and every connection that follows it.
-/

namespace EnerSentry.App.Plant
open EnerSentry.Lib EnerSentry.Protocol EnerSentry.Business EnerSentry.Sim

/-- Nothing that was left on a lost connection is served. -/
def PunctualAt : PlantEvent → Prop
  | .serveLost _ => False
  | _ => True

variable {K : Type}

/-- What was served, what waits on the connection and what is posted, one behind the other, are commands in order. -/
def InTurn (p : Plant K) (out : List (PlantOutput K)) : Prop :=
  (writesInOrder out ++ p.waits ++ (commandsPosted p.app.posted).map commandWrite).Sublist
    ((commandsInOrder out).map commandWrite)

section Steps
variable {p p' : Plant K} {out : List (PlantOutput K)}

theorem inTurn_started (points : List (PointRuntime K)) (pollIntervalMs : Int) (pidSeq : UInt64)
    (bank : RegisterBank) : InTurn (started points pollIntervalMs pidSeq bank) [] := List.nil_sublist _

/-- What is served is no longer on the connection. -/
theorem InTurn.served (turn : InTurn p out) {asked : List DeviceRequest} (app : p'.app = p.app)
    (less : (asked.filterMap asWrite ++ p'.waits).Sublist p.waits) : InTurn p' (out ++ asked.map .request) := by
  rw [InTurn, commandsInOrder_served, writesInOrder_served, app, List.append_assoc (writesInOrder out)]
  exact (((List.Sublist.refl _).append less).append (List.Sublist.refl _)).trans turn

/-- A step that serves nothing and sends nothing. -/
theorem InTurn.quiet (turn : InTurn p out) (app : p'.app = p.app) (same : p'.waits = p.waits) :
    InTurn p' (out ++ []) := by
  rw [InTurn, List.append_nil, app, same]
  exact turn

variable [Zero K] [One K] [Add K] [Mul K] {cv : Conversions K} {slaves : List UInt8}
  {effect : RegisterBank → UInt8 → FaultEffect Nat} {events : List PlantEvent}

theorem InTurn.step_app (turn : InTurn p out) (balanced : Balanced p events out) (e : AppEvent) :
    InTurn (step cv slaves effect p (.app e)).1 (out ++ (step cv slaves effect p (.app e)).2) := by
  have hands := EnerSentryApp.hands_step cv (e.over p.channel) balanced.transport
  simp only [step]
  generalize EnerSentryApp.step cv p.app (e.over p.channel) = done at hands
  have sent := (send_whole (p := { p with app := done.1 }) balanced.framed hands.whole).2
  have app : (({ p with app := done.1 }.send (handedOver done.2)).relink e).app = done.1 := app_relink _ e
  have waits := (waits_relink ({ p with app := done.1 }.send (handedOver done.2)) e).trans sent
  rw [InTurn, commandsInOrder_own, writesInOrder_own, app, List.map_append]
  -- a write goes from the posted commands to the end of the connection
  have moved := ((List.Sublist.refl (writesInOrder out)).append waits).append
    (List.Sublist.refl ((commandsPosted done.1.posted).map commandWrite))
  have posted := (List.Sublist.refl (writesInOrder out ++ p.waits)).append hands.writes
  have issued := turn.append (List.Sublist.refl ((commandsOut done.2).map commandWrite))
  simp only [List.append_assoc] at moved posted issued ⊢
  exact (moved.trans posted).trans issued

theorem InTurn.step (turn : InTurn p out) (balanced : Balanced p events out) {event : PlantEvent}
    (punctual : PunctualAt event) :
    InTurn (step cv slaves effect p event).1 (out ++ (step cv slaves effect p event).2) := by
  cases event with
  | app e => exact turn.step_app balanced e
  | publish slave regs => exact turn.quiet rfl rfl
  | serve =>
    cases found : p.wire with
    | none =>
      simp only [Plant.step, found]
      exact turn.quiet rfl rfl
    | some w =>
      have turned := w.turned slaves effect p.bank
      simp only [Plant.step, found]
      apply turn.served
      · rfl
      · simp only [waits, found, Option.toList_some, List.flatMap_singleton]
        exact turned.waits
  | serveLost i => exact absurd punctual id
  | cut i n => exact turn.quiet rfl rfl

end Steps

variable [Zero K] [One K] [Add K] [Mul K] (cv : Conversions K) (slaves : List UInt8)
  (effect : RegisterBank → UInt8 → FaultEffect Nat)

theorem inTurn_run (points : List (PointRuntime K)) (pollIntervalMs : Int) (pidSeq : UInt64)
    (bank : RegisterBank) (events : List PlantEvent) (punctual : ∀ event ∈ events, PunctualAt event) :
    InTurn (Runs.run (step cv slaves effect) (started points pollIntervalMs pidSeq bank) events)
      (Runs.outputs (step cv slaves effect) (started points pollIntervalMs pidSeq bank) events) := by
  induction events using List.reverseRecOn with
  | nil => exact inTurn_started points pollIntervalMs pidSeq bank
  | append_singleton events event ih =>
    obtain ⟨earlier, now⟩ := List.forall_mem_append.mp punctual
    rw [Runs.run_concat, Runs.outputs_concat]
    exact (ih earlier).step (balanced_run cv slaves effect points pollIntervalMs pidSeq bank events)
      (List.forall_mem_singleton.mp now)

/-- In every run commands go out in the order of their selects, and without late requests of lost connections the
devices are given the writes of the commands in the order of the commands. -/
theorem writes_in_order (points : List (PointRuntime K)) (pollIntervalMs : Int) (pidSeq : UInt64)
    (bank : RegisterBank) (events : List PlantEvent) :
    let out := Runs.outputs (step cv slaves effect) (started points pollIntervalMs pidSeq bank) events
    (commandsInOrder out).Sublist (events.filterMap selected) ∧
      ((∀ event ∈ events, PunctualAt event) →
        (writesInOrder out).Sublist ((commandsInOrder out).map commandWrite)) := by
  obtain ⟨live, -, commands⟩ := (balanced_run cv slaves effect points pollIntervalMs pidSeq bank events).selection
  constructor
  · exact (List.sublist_append_left _ _).trans commands
  · intro punctual
    have turn := inTurn_run cv slaves effect points pollIntervalMs pidSeq bank events punctual
    exact ((List.sublist_append_left _ _).trans (List.sublist_append_left _ _)).trans turn

/-- Two selects are operated, the second over another connection. -/
def twoWrites : List PlantEvent :=
  [.app (.connectionChanged true), .app (.submitSboSelect 1 10 5 false 0), .app (.submitSboOperate ""),
    .app (.runPosted takesAll), .serve, .app .executingTimeout, .app (.connectionChanged false),
    .app (.connectionChanged true), .app (.submitSboSelect 1 11 6 false 0), .app (.submitSboOperate ""),
    .app (.runPosted takesAll), .serve]

def naturals : Conversions Int := ⟨id, fun x => x.toNat, fun x => x.toNat⟩

theorem writes_in_order_two :
    let out := Runs.outputs (step naturals [1] noFault) (started [] 100 0 fun _ => none) twoWrites
    writesInOrder out = [(1, [6, 0, 10, 0, 5]), (1, [6, 0, 11, 0, 6])] ∧
      (commandsInOrder out).Sublist (twoWrites.filterMap selected) ∧
      (writesInOrder out).Sublist ((commandsInOrder out).map commandWrite) := by
  obtain ⟨commands, writes⟩ := writes_in_order naturals [1] noFault [] 100 0 (fun _ => none) twoWrites
  refine ⟨by decide +kernel, commands, writes ?_⟩
  simp [twoWrites, PunctualAt]

/-- A write that is served late comes after one that was commanded later. -/
example : writesInOrder (Runs.outputs (step naturals [1] noFault) (started [] 100 0 fun _ => none)
    (twoWrites.take 4 ++ twoWrites.drop 5 ++ [.serveLost 0])) = [(1, [6, 0, 11, 0, 6]), (1, [6, 0, 10, 0, 5])] := by
  decide +kernel

end EnerSentry.App.Plant
