import EnerSentry.Lib.Runs
import EnerSentry.Sim.ScenarioScript

/-!
What the expansion of a scenario step asks of the injector, and what the injector does with
the handles it has given out. As long as they have not been used up, the handle of a session
tells its place.
-/

namespace EnerSentry.Sim

variable {K : Type} [Zero K]

/-- The handle of the session at a place. -/
def handleOf (i : Nat) : FaultHandle := UInt32.ofNat (i + 1)

/-- Below this many sessions no handle has been given out twice. -/
def handleLimit : Nat := 2 ^ 32 - 1

theorem handleOf_injective {i j : Nat} (first : i < handleLimit) (second : j < handleLimit)
    (same : handleOf i = handleOf j) : i = j := by
  have values := congrArg UInt32.toNat same
  unfold handleLimit at first second
  simp only [handleOf, UInt32.toNat_ofNat'] at values
  omega

theorem handleOf_ne_invalid {i : Nat} (room : i < handleLimit) : handleOf i ≠ invalidFaultHandle := by
  intro same
  have values := congrArg UInt32.toNat same
  unfold handleLimit at room
  simp only [handleOf, UInt32.toNat_ofNat', invalidFaultHandle] at values
  have zero : (0 : UInt32).toNat = 0 := rfl
  omega

namespace FaultInjector
variable {f : FaultInjector K} {req : FaultOverride K} {i j : Nat} {v : K} {clock : Int}

/-- The sessions have the handles of their places, and the next one is next. -/
structure Numbered (f : FaultInjector K) : Prop where
  next : f.nextHandle = handleOf f.sessions.length
  handles : f.sessions.map (·.handle) = (List.range f.sessions.length).map handleOf

theorem Numbered.handle (numbered : f.Numbered) {x : FaultSession K} (found : f.sessions[i]? = some x) :
    x.handle = handleOf i := by
  have place := congrArg (·[i]?) numbered.handles
  have inside : i < f.sessions.length := (List.getElem?_eq_some_iff.mp found).1
  simp only [List.getElem?_map, found, List.getElem?_range inside, Option.map_some, Option.some.injEq] at place
  exact place

/-- What changes neither the handles nor their count keeps the numbering. -/
theorem Numbered.transfer {f' : FaultInjector K} (numbered : f.Numbered) (next : f'.nextHandle = f.nextHandle)
    (handles : f'.sessions.map (·.handle) = f.sessions.map (·.handle)) : f'.Numbered := by
  have length : f'.sessions.length = f.sessions.length := by simpa using congrArg List.length handles
  exact ⟨by rw [next, length, numbered.next], by rw [handles, length, numbered.handles]⟩

section Trigger
variable (f req) (start now : Int)

/-- A session is appended unless the handle is the invalid one. -/
theorem sessions_trigger : (f.trigger req start now).1.sessions =
    if f.nextHandle = invalidFaultHandle then f.sessions
    else f.sessions ++ [(FaultSession.start f.nextHandle req start).toActive now] := by
  unfold trigger
  by_cases out : f.nextHandle = invalidFaultHandle
  · simp only [out, beq_self_eq_true, if_true]
  · simp only [beq_iff_eq, if_neg out]
    rfl

theorem handle_trigger : (f.trigger req start now).2 = f.nextHandle := by
  unfold trigger
  by_cases out : f.nextHandle = invalidFaultHandle
  · simp only [out, beq_self_eq_true, if_true]
  · simp only [beq_iff_eq, if_neg out]

theorem nextHandle_trigger : (f.trigger req start now).1.nextHandle = f.nextHandle + 1 := by
  unfold trigger
  by_cases out : f.nextHandle = invalidFaultHandle
  · simp only [out, beq_self_eq_true, if_true]
  · simp only [beq_iff_eq, if_neg out]
    rfl

variable {f}

theorem Numbered.trigger (numbered : f.Numbered) (room : f.sessions.length < handleLimit) :
    (f.trigger req start now).1.Numbered ∧
      (f.trigger req start now).1.sessions.length = f.sessions.length + 1 := by
  have valid : f.nextHandle ≠ invalidFaultHandle := numbered.next ▸ handleOf_ne_invalid room
  have appended := (sessions_trigger f req start now).trans (if_neg valid)
  have length : (f.trigger req start now).1.sessions.length = f.sessions.length + 1 := by
    rw [appended, List.length_append, List.length_singleton]
  refine ⟨⟨?_, ?_⟩, length⟩
  · rw [nextHandle_trigger, length, numbered.next, handleOf, handleOf, UInt32.ofNat_add (f.sessions.length + 1) 1]
    rfl
  · rw [length, List.range_succ, List.map_append, appended, List.map_append, numbered.handles]
    exact congrArg _ (congrArg (fun h => [h]) numbered.next)

end Trigger

section ChangeFirst
variable {picked : FaultSession K → Bool} {change : FaultSession K → FaultSession K}

theorem nextHandle_changeFirst : (f.changeFirst picked change).1.nextHandle = f.nextHandle := by
  unfold changeFirst
  split <;> rfl

theorem handles_changeFirst (same : ∀ s, (change s).handle = s.handle) :
    (f.changeFirst picked change).1.sessions.map (·.handle) = f.sessions.map (·.handle) := by
  unfold changeFirst
  split
  case h_1 k found =>
    apply List.ext_getElem?
    intro j
    change (List.map _ (f.sessions.modify k change))[j]? = _
    rw [List.getElem?_map, List.getElem?_map, List.getElem?_modify]
    cases f.sessions[j]? with
    | none => rfl
    | some s =>
      by_cases here : k = j
      · simp [here, same]
      · simp [here]
  case h_2 => rfl

end ChangeFirst

/-- A session that is asked to recover. -/
def halted (v : K) (clock : Int) (s : FaultSession K) : FaultSession K :=
  if s.state = .active then (s.setRecoverTarget v).toRecovering clock else s

theorem halted_state (s : FaultSession K) : (halted v clock s).state ≠ .active := by
  unfold halted
  split
  case isTrue => exact fun other => by cases other
  case isFalse idle => exact idle

/-- The handle of a place reaches that session and no other. -/
theorem getElem?_recover (numbered : f.Numbered) (room : f.sessions.length < handleLimit)
    (inside : i < f.sessions.length) :
    (f.recover (handleOf i) v clock).1.sessions[j]? =
      if i = j then f.sessions[j]?.map (halted v clock) else f.sessions[j]? := by
  have only : ∀ k s, f.sessions[k]? = some s → s.handle = handleOf i → k = i := by
    intro k s found same
    have bound : k < f.sessions.length := (List.getElem?_eq_some_iff.mp found).1
    exact handleOf_injective (by omega) (by omega) ((numbered.handle found).symm.trans same)
  unfold recover changeFirst
  split
  case h_1 k found =>
    obtain ⟨bound, picked, -⟩ := List.findIdx?_eq_some_iff_getElem.mp found
    simp only [Bool.and_eq_true, beq_iff_eq] at picked
    have place : k = i := only k _ (List.getElem?_eq_getElem bound) picked.1
    subst place
    change (f.sessions.modify k _)[j]? = _
    rw [List.getElem?_modify]
    by_cases here : k = j
    · subst here
      simp only [if_true, List.getElem?_eq_getElem bound, Option.map_eq_map, Option.map_some, halted, if_pos picked.2]
    · simp only [if_neg here, Option.map_eq_map, Option.map_id']
  case h_2 none =>
    rw [List.findIdx?_eq_none_iff] at none
    by_cases here : i = j
    · subst here
      rw [if_pos rfl, List.getElem?_eq_getElem inside, Option.map_some]
      have idle := none _ (List.getElem_mem inside)
      rw [numbered.handle (List.getElem?_eq_getElem inside), beq_self_eq_true, Bool.true_and,
        beq_eq_false_iff_ne] at idle
      rw [halted, if_neg idle]
    · rw [if_neg here]

section Tick
variable [Add K] [Sub K] [Neg K] [Mul K] [Div K] [IntCast K] [LT K] [DecidableLT K]

theorem handle_tick (s : FaultSession K) (now clock : Int) : (s.tick now clock).handle = s.handle := by
  unfold FaultSession.tick
  cases s.state with
  | active => exact (apply_ite FaultSession.handle _ _ _).trans (ite_self _)
  | recovering =>
    simp only [apply_ite FaultSession.handle]
    exact (ite_congr rfl (fun _ => rfl) fun _ => ite_self _).trans (ite_self _)
  | _ => rfl

theorem handles_tickSessions (f : FaultInjector K) (dtMs : UInt32) (now : Int) (clock : Nat → Int) :
    (f.tickSessions dtMs now clock).nextHandle = f.nextHandle ∧
      (f.tickSessions dtMs now clock).sessions.map (·.handle) = f.sessions.map (·.handle) := by
  have kept : (f.sessions.mapIdx fun i s => s.tick now (clock i)).map (·.handle) = f.sessions.map (·.handle) := by
    apply List.ext_getElem?
    intro i
    rw [List.getElem?_map, List.getElem?_map, List.getElem?_mapIdx, Option.map_map]
    exact Option.map_congr fun s _ => handle_tick s now (clock i)
  unfold tickSessions
  by_cases same : ((f.sessions.mapIdx fun i s => s.tick now (clock i)).map (·.state) != f.sessions.map (·.state)) = true
  · simp only [if_pos same]
    exact ⟨rfl, kept⟩
  · simp only [if_neg same]
    exact ⟨trivial, kept⟩

end Tick
end FaultInjector

namespace TimedInjector
variable {ti : TimedInjector K} {h : FaultHandle} {v : K}

theorem nextHandle_recover : (ti.recover h v).1.fi.nextHandle = ti.fi.nextHandle := FaultInjector.nextHandle_changeFirst

theorem handles_recover : (ti.recover h v).1.fi.sessions.map (·.handle) = ti.fi.sessions.map (·.handle) :=
  FaultInjector.handles_changeFirst fun _ => rfl

theorem length_recover : (ti.recover h v).1.fi.sessions.length = ti.fi.sessions.length := by
  have same : (List.map (·.handle) (ti.recover h v).1.fi.sessions).length = _ := congrArg List.length handles_recover
  rwa [List.length_map, List.length_map] at same

/-- The handles of some places are asked to recover, one after the other. -/
def recoverAll (ti : TimedInjector K) (handles : List FaultHandle) (v : K) : TimedInjector K :=
  handles.foldl (fun ti h => (ti.recover h v).1) ti

theorem recoverAll_handles (handles : List FaultHandle) (v : K) (ti : TimedInjector K) :
    (ti.recoverAll handles v).fi.nextHandle = ti.fi.nextHandle ∧
      (ti.recoverAll handles v).fi.sessions.map (·.handle) = ti.fi.sessions.map (·.handle) := by
  induction handles generalizing ti with
  | nil => exact ⟨rfl, rfl⟩
  | cons h handles ih =>
    obtain ⟨next, same⟩ := ih (ti.recover h v).1
    exact ⟨next.trans nextHandle_recover, same.trans handles_recover⟩

theorem length_recoverAll (handles : List FaultHandle) (v : K) (ti : TimedInjector K) :
    (ti.recoverAll handles v).fi.sessions.length = ti.fi.sessions.length := by
  have same := congrArg List.length (recoverAll_handles handles v ti).2
  rwa [List.length_map, List.length_map] at same

theorem recover_numbered (numbered : ti.fi.Numbered) : (ti.recover h v).1.fi.Numbered :=
  numbered.transfer nextHandle_recover handles_recover

/-- What becomes of a session: at one of the places it is active no longer, elsewhere it stays as it is. -/
theorem getElem?_recoverAll {places : List Nat} (v : K) {ti : TimedInjector K} (numbered : ti.fi.Numbered)
    (room : ti.fi.sessions.length < handleLimit) (inside : ∀ i ∈ places, i < ti.fi.sessions.length) (j : Nat) :
    ∃ change : FaultSession K → FaultSession K,
      (ti.recoverAll (places.map handleOf) v).fi.sessions[j]? = ti.fi.sessions[j]?.map change ∧
      (∀ x, x.state ≠ .active → (change x).state ≠ .active) ∧
      if j ∈ places then ∀ x, (change x).state ≠ .active else change = id := by
  induction places generalizing ti with
  | nil => exact ⟨id, (Option.map_id_apply).symm, fun x idle => idle, rfl⟩
  | cons i places ih =>
    rw [List.forall_mem_cons] at inside
    have first : ∀ j, (ti.recover (handleOf i) v).1.fi.sessions[j]? = if i = j then
        ti.fi.sessions[j]?.map (FaultInjector.halted v (ti.readings 0)) else ti.fi.sessions[j]? :=
      fun j => FaultInjector.getElem?_recover numbered room inside.1
    obtain ⟨change, rest, idle, effect⟩ := ih (recover_numbered (h := handleOf i) (v := v) numbered)
      (by rw [length_recover]; exact room) (by rw [length_recover]; exact inside.2)
    change (ti.recoverAll (handleOf i :: places.map handleOf) v).fi.sessions[j]? = _ at rest
    by_cases here : i = j
    · subst here
      refine ⟨change ∘ FaultInjector.halted v (ti.readings 0), ?_, ?_, ?_⟩
      · rw [List.map_cons, rest, ← Option.map_map]
        exact congrArg _ ((first i).trans (if_pos rfl))
      · exact fun x _ => idle _ (FaultInjector.halted_state x)
      · rw [if_pos (List.mem_cons_self ..)]
        exact fun x => idle _ (FaultInjector.halted_state x)
    · refine ⟨change, ?_, idle, ?_⟩
      · rw [List.map_cons, rest]
        exact congrArg _ ((first j).trans (if_neg here))
      · have other : j ∈ i :: places ↔ j ∈ places := by
          rw [List.mem_cons, or_iff_right (Ne.symm here)]
        simpa only [other] using effect

end TimedInjector

namespace ScenarioScript

/-- What one place of the expansion of a step comes to: a session to be created, or a cell that is not there. -/
inductive Want where
  | request (scope : Scope) (slave : UInt8) (reg : UInt16)
  | missing (slave : UInt8) (i : Nat)

section Wants
variable (s : ScenarioStep K) (type : FaultType) (pt : SimPointTable K) (slaves : List UInt8)

def wanted : List Want :=
  if onLink s type then slaves.map fun slave => .request .slave slave 0
  else if onCells s then
    slaves.flatMap fun slave => (List.range s.count.toInt.toNat).map fun i =>
      match findPointBySuffix pt slave s.regName (some i) with
      | some p => .request .point slave p.registerAddr
      | none => .missing slave i
  else
    slaves.filterMap fun slave => (findPointBySuffix pt slave s.regName none).map fun p =>
      .request .point slave p.registerAddr

/-- What a well-formed step wants, with the type of its fault. -/
def targets : Option (FaultType × List Want) :=
  match faultTypeFromCode s.fault, slavesOf s pt with
  | some type, some slaves => if !onLink s type && s.regName.isEmpty then none else some (type, wanted s type pt slaves)
  | _, _ => none

variable [ToString K]

def push (x : Expansion K) : Want → Expansion K
  | .request scope slave reg => pushReq s type scope x slave reg
  | .missing slave i =>
      { x with
        sc := x.sc.fail
          ("point '" ++ s.regName ++ "_" ++ toString i ++ "' not found on slave " ++ toString slave ++ "; ") }

theorem expand_eq (x : Expansion K) : expand s type pt slaves x = (wanted s type pt slaves).foldl (push s type) x := by
  unfold expand wanted
  by_cases link : onLink s type = true
  · rw [if_pos link, if_pos link, List.foldl_map]
    rfl
  · rw [if_neg link, if_neg link]
    by_cases cells : onCells s = true
    · rw [if_pos cells, if_pos cells, List.foldl_flatMap]
      congr 1
      funext x slave
      rw [List.foldl_map]
      congr 1
      funext x i
      unfold pushCell
      cases findPointBySuffix pt slave s.regName (some i) <;> rfl
    · rw [if_neg cells, if_neg cells, List.foldl_filterMap]
      congr 1
      funext x slave
      unfold pushRegister
      cases findPointBySuffix pt slave s.regName none <;> rfl

variable {s type pt} (sc : ScenarioScript K) (ti : TimedInjector K)

/-- A step that is not well-formed only leaves a note of its failure. -/
theorem fireInject_malformed (malformed : targets s pt = none) : (sc.fireInject s ti pt).2 = ti ∧
    (sc.fireInject s ti pt).1.handles = sc.handles ∧ (sc.fireInject s ti pt).1.anyFail = true := by
  unfold targets at malformed
  unfold fireInject
  cases code : faultTypeFromCode s.fault with
  | none => exact ⟨rfl, rfl, rfl⟩
  | some type =>
    cases slaves : slavesOf s pt with
    | none => exact ⟨rfl, rfl, rfl⟩
    | some slaves' =>
      simp only [code, slaves] at malformed
      by_cases bare : (!onLink s type && s.regName.isEmpty) = true
      · simp only [if_pos bare]
        exact ⟨trivial, rfl, rfl⟩
      · rw [if_neg bare] at malformed
        cases malformed

/-- A well-formed step does what it wants, and its report is written up. -/
theorem fireInject_targets {ws : List Want} (formed : targets s pt = some (type, ws)) :
    (sc.fireInject s ti pt).2 = (ws.foldl (push s type) { sc, ti }).ti ∧
      (sc.fireInject s ti pt).1.handles = (ws.foldl (push s type) { sc, ti }).sc.handles ∧
      (sc.fireInject s ti pt).1.anyFail = (ws.foldl (push s type) { sc, ti }).sc.anyFail := by
  unfold targets at formed
  unfold fireInject
  cases code : faultTypeFromCode s.fault with
  | none => simp [code] at formed
  | some type' =>
    cases slaves : slavesOf s pt with
    | none => simp [code, slaves] at formed
    | some slaves' =>
      simp only [code, slaves] at formed
      by_cases bare : (!onLink s type' && s.regName.isEmpty) = true
      · rw [if_pos bare] at formed
        cases formed
      · rw [if_neg bare] at formed
        cases formed
        simp only [if_neg bare, expand_eq]
        exact ⟨trivial, trivial, trivial⟩

end Wants

section Push
variable [ToString K] (s : ScenarioStep K) (type : FaultType) (scope : Scope) (slave : UInt8) (reg : UInt16)
  {x : Expansion K}

/-- When the handles are used up, the request is refused. -/
theorem pushReq_refused (out : x.ti.fi.nextHandle = invalidFaultHandle) :
    (pushReq s type scope x slave reg).ti.fi.sessions = x.ti.fi.sessions ∧
      (pushReq s type scope x slave reg).sc.anyFail = true := by
  have refused : ∀ req, ((x.ti.trigger req).2 == invalidFaultHandle) = true := by
    intro req
    rw [beq_iff_eq]
    exact (FaultInjector.handle_trigger ..).trans out
  unfold pushReq
  simp only [refused, if_true]
  exact ⟨(FaultInjector.sessions_trigger ..).trans (if_pos out), rfl⟩

/-- Otherwise there is a session more, and its handle waits under the key. -/
theorem pushReq_created (valid : x.ti.fi.nextHandle ≠ invalidFaultHandle) :
    (∃ req start now, (pushReq s type scope x slave reg).ti.fi = (x.ti.fi.trigger req start now).1) ∧
      (pushReq s type scope x slave reg).ti.fi.sessions.length = x.ti.fi.sessions.length + 1 ∧
      (pushReq s type scope x slave reg).sc.handles = Function.update x.sc.handles (handleKey s)
        (x.sc.handles (handleKey s) ++ [x.ti.fi.nextHandle]) ∧
      (pushReq s type scope x slave reg).sc.anyFail = x.sc.anyFail := by
  have given : ∀ req, (x.ti.trigger req).2 = x.ti.fi.nextHandle := fun req => FaultInjector.handle_trigger ..
  unfold pushReq
  simp only [given, beq_iff_eq, if_neg valid]
  refine ⟨⟨_, _, _, rfl⟩, ?_, rfl, rfl⟩
  have appended := (FaultInjector.sessions_trigger x.ti.fi
    { type, scope, slave, reg, targetValue := s.targetValue, rampRate := s.rampRate,
      durationMs := s.durationMs.toInt32 } (x.ti.readings 0) (x.ti.readings 1)).trans (if_neg valid)
  exact (congrArg List.length appended).trans List.length_append

end Push

section Recover
variable {s : ScenarioStep K} {sc : ScenarioScript K} {ti : TimedInjector K}

/-- The handles a recovery takes, and those it leaves. -/
def taken (s : ScenarioStep K) (handles : List FaultHandle) : List FaultHandle :=
  if s.slaveSpec = "ALL" then handles else handles.take 1

def left (s : ScenarioStep K) (handles : List FaultHandle) : List FaultHandle :=
  if s.slaveSpec = "ALL" then [] else handles.tail

variable [ToString K]

theorem fireRecover_nil (none : sc.handles (handleKey s) = []) : sc.fireRecover s ti =
    (sc.appendEvent "INFO" "FAULT_RECOVER_SKIP" 0 0 s.fault "no matching inject handle", ti) := by
  unfold fireRecover
  simp only [none]

end Recover

/-- The script with the injector it drives. -/
structure Bench (K : Type) [Zero K] where
  sc : ScenarioScript K
  ti : TimedInjector K

def Bench.count (b : Bench K) : Nat := b.ti.fi.sessions.length

variable [ToString K]

/-- The steps of a drive, fired one after the other. -/
def fireStep (pt : SimPointTable K) : Lib.Runs.Step (Bench K) (ScenarioStep K) Empty := fun b s =>
  let f := b.sc.fire { s with fired := true } b.ti pt
  (⟨f.1, f.2⟩, [])

theorem fireStep_inject (pt : SimPointTable K) (b : Bench K) {s : ScenarioStep K} (action : s.action = "INJECT") :
    (fireStep pt b s).1 = ⟨(b.sc.fireInject { s with fired := true } b.ti pt).1,
      (b.sc.fireInject { s with fired := true } b.ti pt).2⟩ := by
  unfold fireStep fire
  simp only [action, beq_self_eq_true, if_true]

theorem fireStep_recover (pt : SimPointTable K) (b : Bench K) {s : ScenarioStep K} (action : s.action = "RECOVER") :
    (fireStep pt b s).1 = ⟨(b.sc.fireRecover { s with fired := true } b.ti).1,
      (b.sc.fireRecover { s with fired := true } b.ti).2⟩ := by
  unfold fireStep fire
  simp only [action, beq_iff_eq, String.reduceEq, if_false, if_true]

/-- A drive is a run of its due steps. -/
theorem fireDue_run (nowMs : Int) (pt : SimPointTable K) (sc : ScenarioScript K) (ti : TimedInjector K) :
    (⟨(fireDue nowMs pt sc ti).1, (fireDue nowMs pt sc ti).2.1⟩ : Bench K) =
      Lib.Runs.run (fireStep pt) ⟨sc.begun nowMs, ti⟩ (sc.steps.filter (due nowMs)) := by
  have along : ∀ (steps : List (ScenarioStep K)) (b : ScenarioScript K × TimedInjector K × Nat),
      (⟨(steps.foldl (fireNext pt) b).1, (steps.foldl (fireNext pt) b).2.1⟩ : Bench K) =
        Lib.Runs.run (fireStep pt) ⟨b.1, b.2.1⟩ steps := by
    intro steps
    induction steps with
    | nil => exact fun b => rfl
    | cons s steps ih => exact fun b => ih (fireNext pt b s)
  exact along _ _

end ScenarioScript
end EnerSentry.Sim
