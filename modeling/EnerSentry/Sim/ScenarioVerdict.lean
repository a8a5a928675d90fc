import Mathlib.Data.List.Perm.Basic
import EnerSentry.Sim.ScenarioExpansion

/-!
What the verdict of a scenario is worth. A step fails if something it wants cannot be had or
a session it takes is not there to recover. Most failures raise the flag that the report
reads; a run whose failures all do is reported as passed only if nothing has failed.
-/

namespace EnerSentry.Sim
open EnerSentry.Lib.Runs

variable {K : Type} [Zero K]

namespace ScenarioScript

section Report
variable {sc : ScenarioScript K} {durationMs : Int} {aborted : Bool}

theorem result_pass_iff : (sc.finishReport durationMs aborted).report.result = "PASS" ↔
    aborted = false ∧ sc.anyFail = false ∧ sc.allFired = true := by
  unfold finishReport
  cases aborted with
  | true => simp
  | false =>
    cases sc.anyFail with
    | true => simp
    | false => cases sc.allFired <;> simp

end Report

section Loading
variable [IntCast K] {truncate : K → Int}

/-- Every element of the list is a step with a known action. -/
def AllAccepted (truncate : K → Int) (elements : List (Json K)) : Prop :=
  ∀ j ∈ elements, ∃ s, ScenarioStep.read truncate j = .ok s ∧ s.known = true

theorem loadSteps_anyFail {sc sc' : ScenarioScript K} {elements : List (Json K)}
    (ok : loadSteps truncate sc elements = .ok sc') (clean : sc'.anyFail = false) :
    sc.anyFail = false ∧ AllAccepted truncate elements := by
  induction elements generalizing sc with
  | nil =>
    cases ok
    exact ⟨clean, fun j member => by cases member⟩
  | cons j js ih =>
    rw [loadSteps] at ok
    cases read : ScenarioStep.read truncate j with
    | error what =>
      rw [read] at ok
      cases ok
    | ok s =>
      rw [read] at ok
      obtain ⟨before, rest⟩ := ih ok
      by_cases known : s.known = true
      · rw [loadStep, if_pos known] at before
        exact ⟨before, List.forall_mem_cons.mpr ⟨⟨s, read, known⟩, rest⟩⟩
      · rw [loadStep, if_neg known] at before
        cases before

/-- A load that has dropped a step says so. -/
theorem load_anyFail {sc : ScenarioScript K} {file : ScenarioFile K} (ok : (sc.load truncate file).2 = true)
    (clean : (sc.load truncate file).1.anyFail = false) : AllAccepted truncate file.elements := by
  unfold load at ok clean
  cases file with
  | unreadable path => cases ok
  | invalid path => cases ok
  | document path doc =>
    cases doc with
    | object members =>
      simp only [ScenarioFile.elements] at ok clean ⊢
      cases named : (Json.object members).value "name" "" Json.getString with
      | error what => simp [named] at ok
      | ok name =>
        simp only [named] at ok clean
        cases held : (Json.object members).member "steps" with
        | none => simp [held] at ok
        | some j =>
          cases j with
          | array elements =>
            simp only [held] at ok clean ⊢
            split at ok <;> rename_i sc' made
            · simp only [made] at clean
              exact (loadSteps_anyFail made clean).2
            · cases ok
          | _ => simp [held] at ok
    | _ => cases ok

end Loading

section Failures
variable [ToString K] {s : ScenarioStep K} {type : FaultType} {sc : ScenarioScript K} {ti : TimedInjector K}

/-- A push that raises no flag has created a session. -/
theorem push_clean {x : Expansion K} {w : Want} (clean : (push s type x w).sc.anyFail = false) :
    x.sc.anyFail = false ∧ (push s type x w).ti.fi.sessions.length = x.ti.fi.sessions.length + 1 := by
  cases w with
  | missing slave i => cases clean
  | request scope slave reg =>
    change (pushReq s type scope x slave reg).sc.anyFail = false at clean
    by_cases out : x.ti.fi.nextHandle = invalidFaultHandle
    · cases clean.symm.trans (pushReq_refused s type scope slave reg out).2
    · obtain ⟨-, length, -, same⟩ := pushReq_created s type scope slave reg out
      exact ⟨same.symm.trans clean, length⟩

theorem pushes_clean {x : Expansion K} (ws : List Want) (clean : (ws.foldl (push s type) x).sc.anyFail = false) :
    x.sc.anyFail = false ∧
      (ws.foldl (push s type) x).ti.fi.sessions.length = x.ti.fi.sessions.length + ws.length := by
  induction ws generalizing x with
  | nil => exact ⟨clean, rfl⟩
  | cons w ws ih =>
    obtain ⟨before, length⟩ := ih clean
    obtain ⟨first, one⟩ := push_clean before
    refine ⟨first, ?_⟩
    rw [List.foldl_cons, length, one, List.length_cons]
    omega

/-- One of the sessions is not there to recover when its turn comes. -/
def refusedBy (v : K) : List FaultHandle → TimedInjector K → Bool
  | [], _ => false
  | h :: rest, ti => !(ti.recover h v).2 || refusedBy v rest (ti.recover h v).1

theorem fireRecover_clean (clean : (sc.fireRecover s ti).1.anyFail = false) : sc.anyFail = false ∧
    (s.slaveSpec ≠ "ALL" → refusedBy s.targetValue (taken s (sc.handles (handleKey s))) ti = false) := by
  cases waiting : sc.handles (handleKey s) with
  | nil =>
    rw [fireRecover_nil waiting] at clean
    refine ⟨clean, fun single => ?_⟩
    rw [taken, if_neg single]
    rfl
  | cons h rest =>
    unfold fireRecover at clean
    by_cases all : s.slaveSpec = "ALL"
    · simp only [waiting, all, beq_self_eq_true, if_true] at clean
      exact ⟨clean, fun single => absurd all single⟩
    · simp only [waiting, beq_iff_eq, if_neg all] at clean
      cases accepted : (ti.recover h s.targetValue).2 with
      | false =>
        simp only [accepted, Bool.false_eq_true, if_false] at clean
        cases clean
      | true =>
        simp only [accepted, if_true] at clean
        refine ⟨clean, fun _ => ?_⟩
        rw [taken, if_neg all, List.take_succ_cons, List.take_zero, refusedBy, accepted]
        rfl

end Failures

section Outcomes
variable [ToString K] (pt : SimPointTable K)

/-- What has come of a step. -/
structure Outcome (K : Type) [Zero K] where
  step : ScenarioStep K
  created : Nat
  failed : Bool

/-- An injection fails unless everything it wants is created, a recovery if it is refused a session. -/
def outcomeOf (b : Bench K) (s : ScenarioStep K) : Outcome K :=
  let created := (fireStep pt b s).1.count - b.count
  { step := s
    created := created
    failed :=
      if s.action = "INJECT" then
        match targets s pt with
        | some (_, ws) => created < ws.length
        | none => true
      else refusedBy s.targetValue (taken s (b.sc.handles (handleKey s))) b.ti }

/-- The step has not failed, and if it is an injection it has created a session. -/
def Outcome.Good (o : Outcome K) : Prop := o.failed = false ∧ (o.step.action = "INJECT" → 0 < o.created)

/-- A failure that raises no flag: an injection that wants nothing, or a recovery of all slaves that is refused one. -/
def Silent (b : Bench K) (s : ScenarioStep K) : Prop :=
  (s.action = "INJECT" ∧ ∃ type, targets s pt = some (type, [])) ∨
    (s.action = "RECOVER" ∧ s.slaveSpec = "ALL" ∧
      refusedBy s.targetValue (taken s (b.sc.handles (handleKey s))) b.ti = true)

variable {pt} {b : Bench K} {s : ScenarioStep K}

/-- An injection that leaves the flag alone has created a session for everything it is to inject. -/
theorem inject_clean (inject : s.action = "INJECT") (clean : (fireStep pt b s).1.sc.anyFail = false) :
    b.sc.anyFail = false ∧ ∃ type ws, targets s pt = some (type, ws) ∧
      (fireStep pt b s).1.count - b.count = ws.length := by
  rw [fireStep_inject pt b inject] at clean ⊢
  cases formed : targets s pt with
  | none =>
    have flagged := (fireInject_malformed (s := { s with fired := true }) b.sc b.ti formed).2.2
    cases flagged.symm.trans clean
  | some found =>
    obtain ⟨type, ws⟩ := found
    obtain ⟨ti, -, flag⟩ := fireInject_targets (s := { s with fired := true }) b.sc b.ti formed
    obtain ⟨before, length⟩ := pushes_clean ws (flag.symm.trans clean)
    refine ⟨before, type, ws, rfl, ?_⟩
    have count := (congrArg (·.fi.sessions.length) ti).trans length
    exact (congrArg (· - b.count) count).trans (Nat.add_sub_cancel_left ..)

/-- A firing that raises no flag and is not silent has come to good. -/
theorem fireStep_clean (known : s.known = true) (loud : ¬Silent pt b s)
    (clean : (fireStep pt b s).1.sc.anyFail = false) : b.sc.anyFail = false ∧ (outcomeOf pt b s).Good := by
  by_cases inject : s.action = "INJECT"
  · obtain ⟨before, type, ws, formed, created⟩ := inject_clean inject clean
    have some_ : 0 < ws.length := by
      rw [List.length_pos_iff]
      rintro rfl
      exact loud (Or.inl ⟨inject, type, formed⟩)
    refine ⟨before, ?_, fun _ => lt_of_lt_of_eq some_ created.symm⟩
    simp only [outcomeOf, if_pos inject, formed, created, Nat.lt_irrefl, decide_false]
  · have recover : s.action = "RECOVER" := by
      simpa [ScenarioStep.known, inject] using known
    rw [fireStep_recover pt b recover] at clean
    obtain ⟨before, single⟩ := fireRecover_clean clean
    refine ⟨before, ?_, fun other => absurd other inject⟩
    change (if s.action = "INJECT" then _ else refusedBy _ _ _) = false
    rw [if_neg inject]
    by_cases all : s.slaveSpec = "ALL"
    · exact Bool.eq_false_of_not_eq_true fun refused => loud (Or.inr ⟨recover, all, refused⟩)
    · exact single all

theorem run_clean {steps : List (ScenarioStep K)} (known : ∀ s ∈ steps, s.known = true)
    (loud : ∀ v ∈ visits (fireStep pt) b steps, ¬Silent pt v.1 v.2)
    (clean : (run (fireStep pt) b steps).sc.anyFail = false) :
    b.sc.anyFail = false ∧ ∀ v ∈ visits (fireStep pt) b steps, (outcomeOf pt v.1 v.2).Good := by
  induction steps generalizing b with
  | nil => exact ⟨clean, fun v visited => by cases visited⟩
  | cons s steps ih =>
    rw [List.forall_mem_cons] at known
    rw [visits, List.forall_mem_cons] at loud ⊢
    obtain ⟨after, rest⟩ := ih known.2 loud.2 clean
    obtain ⟨before, good⟩ := fireStep_clean known.1 loud.1 after
    exact ⟨before, good, rest⟩

end Outcomes

section Flags
variable {steps : List (ScenarioStep K)}

/-- The step as it was loaded. -/
def unfired (s : ScenarioStep K) : ScenarioStep K := { s with fired := false }

theorem unfired_driven (now : Int) (s : ScenarioStep K) : unfired (driven now s) = unfired s := by
  unfold driven
  split <;> rfl

/-- A drive adds the due steps to those that have fired. -/
theorem fired_driven (now : Int) : (((steps.map (driven now)).filter (·.fired)).map unfired).Perm
    ((steps.filter (·.fired)).map unfired ++ steps.filter (due now)) := by
  induction steps with
  | nil => exact List.Perm.refl _
  | cons s steps ih =>
    rw [List.map_cons]
    by_cases goes : due now s = true
    · have waits : s.fired = false := by
        unfold due at goes
        simp only [Bool.not_or, Bool.and_eq_true, Bool.not_eq_true'] at goes
        exact goes.1
      have marked : driven now s = { s with fired := true } := if_pos goes
      have same : unfired s = s := by rw [unfired, ← waits]
      rw [marked, List.filter_cons_of_pos rfl, List.filter_cons_of_neg (by rw [waits]; decide),
        List.filter_cons_of_pos goes, List.map_cons]
      change (unfired s :: _).Perm _
      rw [same]
      exact (ih.cons s).trans List.perm_middle.symm
    · have stays : driven now s = s := if_neg goes
      rw [stays, List.filter_cons_of_neg goes]
      by_cases fired : s.fired = true
      · rw [List.filter_cons_of_pos fired, List.filter_cons_of_pos fired, List.map_cons, List.map_cons,
          List.cons_append]
        exact ih.cons _
      · rw [List.filter_cons_of_neg fired, List.filter_cons_of_neg fired]
        exact ih

end Flags

inductive ScriptEvent (K : Type) [Zero K] where
  | drive (nowMs : Int)
  | reset
  | finish (durationMs : Int) (aborted : Bool)
  | tickSessions (dtMs : UInt32)
  | injectFault (req : FaultOverride K)
  | recoverFault (h : FaultHandle)
  | abortFault (h : FaultHandle)

section Runs
variable [IntCast K] (truncate : K → Int) (pt : SimPointTable K) (file : ScenarioFile K)

/-- What the outcomes tell of the script. -/
structure Accounted (t : Bench K × List (Outcome K)) : Prop where
  steps : (t.1.sc.steps.map unfired).Perm (ScenarioStep.accepted truncate file.elements)
  fired : (t.2.map (·.step)).Perm ((t.1.sc.steps.filter (·.fired)).map unfired)
  clean : t.1.sc.anyFail = false → AllAccepted truncate file.elements ∧ ∀ o ∈ t.2, o.Good

variable {truncate file} {t : Bench K × List (Outcome K)} in
theorem Accounted.known (holds : Accounted truncate file t) : ∀ s ∈ t.1.sc.steps, s.known = true := by
  intro s member
  have listed := holds.steps.mem_iff.mp (List.mem_map_of_mem member)
  exact (List.mem_filter.mp listed).2

variable {truncate file} in
/-- A script that has just been loaded. -/
theorem accounted_new {ti : TimedInjector K} (loaded : (ScenarioScript.load {} truncate file).2 = true) :
    Accounted truncate file (⟨(ScenarioScript.load {} truncate file).1, ti⟩, []) := by
  have steps := load_steps loaded
  have perm : (ScenarioScript.load {} truncate file).1.steps.Perm (ScenarioStep.accepted truncate file.elements) := by
    rw [steps]
    exact List.perm_insertionSort _ _
  have fresh : ∀ s ∈ ScenarioStep.accepted truncate file.elements, s.fired = false :=
    fun s => ScenarioStep.accepted_fired
  have same : (ScenarioStep.accepted truncate file.elements).map unfired =
      ScenarioStep.accepted truncate file.elements := by
    apply (List.map_congr_left fun s member => ?_).trans (List.map_id _)
    rw [unfired, ← fresh s member]
    rfl
  refine ⟨?_, ?_, fun clean => ⟨load_anyFail loaded clean, fun o member => by cases member⟩⟩
  · exact (perm.map unfired).trans (List.Perm.of_eq same)
  · have none : (ScenarioScript.load {} truncate file).1.steps.filter (·.fired) = [] := by
      rw [List.filter_eq_nil_iff]
      intro s member
      rw [fresh s (perm.mem_iff.mp member)]
      decide
    change List.Perm [] (((ScenarioScript.load {} truncate file).1.steps.filter (·.fired)).map unfired)
    rw [none]
    exact List.Perm.refl _

variable [ToString K] [Add K] [Sub K] [Neg K] [Mul K] [Div K] [LT K] [DecidableLT K]

def scriptStep : Step (Bench K) (ScriptEvent K) ScenarioReport := fun b event =>
  match event with
  | .drive nowMs =>
      let r := b.sc.drive nowMs b.ti pt
      (⟨r.1, r.2.1⟩, [])
  | .reset => ({ b with sc := b.sc.reset }, [])
  | .finish durationMs aborted =>
      let sc := b.sc.finishReport durationMs aborted
      ({ b with sc := sc }, [sc.report])
  | .tickSessions dtMs => ({ b with ti := b.ti.tickSessions dtMs }, [])
  | .injectFault req => ({ b with ti := (b.ti.trigger req).1 }, [])
  | .recoverFault h => ({ b with ti := (b.ti.recover h 0).1 }, [])
  | .abortFault h => ({ b with ti := (b.ti.abort h).1 }, [])

/-- The steps that a drive fires, each with what it finds. -/
def firings (b : Bench K) (nowMs : Int) : List (Bench K × ScenarioStep K) :=
  visits (fireStep pt) ⟨b.sc.begun nowMs, b.ti⟩ (b.sc.steps.filter (due nowMs))

/-- The outcomes since the script was loaded or reset. -/
def account (b : Bench K) (outcomes : List (Outcome K)) (event : ScriptEvent K) (_ : List ScenarioReport) :
    List (Outcome K) :=
  match event with
  | .drive nowMs => outcomes ++ (firings pt b nowMs).map fun v => outcomeOf pt v.1 v.2
  | .reset => []
  | _ => outcomes

/-- The script with its injector beside the outcomes of its steps. -/
def accounted : Step (Bench K × List (Outcome K)) (ScriptEvent K) ScenarioReport :=
  watch (scriptStep pt) (account pt)

/-- A report of `PASS` means that every step of the file was taken over and has fired, and none has failed. -/
def Sound (t : Bench K × List (Outcome K)) (event : ScriptEvent K) : Prop :=
  match event with
  | .finish durationMs aborted => (t.1.sc.finishReport durationMs aborted).report.result = "PASS" →
      AllAccepted truncate file.elements ∧
        (t.2.map (·.step)).Perm (ScenarioStep.accepted truncate file.elements) ∧ ∀ o ∈ t.2, o.Good
  | _ => True

/-- No step fails in silence, and a script that has dropped a step is not reset. -/
def Outspoken (t : Bench K × List (Outcome K)) (event : ScriptEvent K) : Prop :=
  match event with
  | .drive nowMs => ∀ v ∈ firings pt t.1 nowMs, ¬Silent pt v.1 v.2
  | .reset => AllAccepted truncate file.elements
  | _ => True

variable {truncate pt file} {t : Bench K × List (Outcome K)}

theorem Accounted.drive (holds : Accounted truncate file t) {nowMs : Int}
    (loud : ∀ v ∈ firings pt t.1 nowMs, ¬Silent pt v.1 v.2) :
    Accounted truncate file (accounted pt t (.drive nowMs)).1 := by
  have after : (accounted pt t (.drive nowMs)).1.1.sc = { (fireDue nowMs pt t.1.sc t.1.ti).1 with
      steps := t.1.sc.steps.map (driven nowMs) } := congrArg Prod.fst (drive_eq nowMs pt t.1.sc t.1.ti)
  have outcomes : (accounted pt t (.drive nowMs)).1.2 =
      t.2 ++ (firings pt t.1 nowMs).map fun v => outcomeOf pt v.1 v.2 := rfl
  have inner := fireDue_run nowMs pt t.1.sc t.1.ti
  refine ⟨?_, ?_, ?_⟩
  · rw [after, List.map_map]
    have same : unfired ∘ driven nowMs = unfired (K := K) := funext (unfired_driven nowMs)
    rw [same]
    exact holds.steps
  · have names : ((firings pt t.1 nowMs).map fun v => outcomeOf pt v.1 v.2).map (·.step) =
        t.1.sc.steps.filter (due nowMs) := by
      rw [List.map_map]
      exact visits_map_snd ..
    rw [after, outcomes, List.map_append, names]
    exact (holds.fired.append_right _).trans (fired_driven nowMs).symm
  · intro clean
    rw [after] at clean
    have ended : (run (fireStep pt) ⟨t.1.sc.begun nowMs, t.1.ti⟩
        (t.1.sc.steps.filter (due nowMs))).sc.anyFail = false := by
      rw [← inner]
      exact clean
    obtain ⟨before, good⟩ := run_clean (fun s member => holds.known s (List.mem_filter.mp member).1) loud ended
    have began : (t.1.sc.begun nowMs).anyFail = t.1.sc.anyFail := by
      unfold begun
      split <;> rfl
    obtain ⟨all, old⟩ := holds.clean (began.symm.trans before)
    refine ⟨all, ?_⟩
    rw [outcomes, List.forall_mem_append, List.forall_mem_map]
    exact ⟨old, good⟩

theorem Accounted.step (holds : Accounted truncate file t) (event : ScriptEvent K)
    (outspoken : Outspoken truncate pt file t event) : Accounted truncate file (accounted pt t event).1 := by
  cases event with
  | drive nowMs => exact holds.drive outspoken
  | reset =>
    have none : (t.1.sc.reset.steps.filter (·.fired)).map unfired = [] := by
      rw [List.map_eq_nil_iff, List.filter_eq_nil_iff]
      intro s member
      obtain ⟨s', -, rfl⟩ := List.mem_map.mp member
      exact Bool.false_ne_true
    refine ⟨?_, ?_, fun _ => ⟨outspoken, fun o member => by cases member⟩⟩
    · change (List.map unfired (t.1.sc.steps.map unfired)).Perm _
      rw [List.map_map]
      exact holds.steps
    · change List.Perm [] ((t.1.sc.reset.steps.filter (·.fired)).map unfired)
      rw [none]
  | _ => exact ⟨holds.steps, holds.fired, holds.clean⟩

/-- In a run of a loaded scenario, no report is better than it should be. -/
def VerdictsSound (truncate : K → Int) (pt : SimPointTable K) (file : ScenarioFile K) (ti : TimedInjector K)
    (events : List (ScriptEvent K)) : Prop :=
  ∀ v ∈ visits (accounted pt) (⟨(ScenarioScript.load {} truncate file).1, ti⟩, []) events, Sound truncate file v.1 v.2

theorem verdicts_sound (truncate : K → Int) (pt : SimPointTable K) (file : ScenarioFile K) (ti : TimedInjector K)
    (events : List (ScriptEvent K)) (loaded : (ScenarioScript.load {} truncate file).2 = true)
    (outspoken : ∀ v ∈ visits (accounted pt) (⟨(ScenarioScript.load {} truncate file).1, ti⟩, []) events,
      Outspoken truncate pt file v.1 v.2) : VerdictsSound truncate pt file ti events := by
  have along := reached_invariant (accounted pt) events (accounted_new loaded)
    (fun t event holds meets => holds.step event meets) outspoken
  intro v visited
  have holds := along _ (visit_mem_reached visited).1
  obtain ⟨t, event⟩ := v
  cases event with
  | finish durationMs aborted =>
    intro pass
    obtain ⟨-, flag, fired⟩ := result_pass_iff.mp pass
    obtain ⟨all, good⟩ := holds.clean flag
    refine ⟨all, ?_, good⟩
    have every : t.1.sc.steps.filter (·.fired) = t.1.sc.steps := List.filter_eq_self.mpr (List.all_eq_true.mp fired)
    exact (every ▸ holds.fired).trans holds.steps
  | _ => trivial

end Runs

section Drills

/-- A scenario that injects one fault of a slave. -/
def oneInject (fault register : String) : ScenarioFile Int := .document "drill" (.object
  [("steps", .array [.object [("action", .string "INJECT"), ("fault", .string fault), ("scope", .string "cluster"),
    ("slave", .integer 1), ("register", .string register)]])])

theorem verdicts_sound_link : VerdictsSound id {} (oneInject "FR-SIM-05c" "") {} [.drive 0, .finish 0 false] := by
  apply verdicts_sound _ _ _ _ _ (by rfl)
  intro v visited
  simp only [visits, List.mem_cons, List.not_mem_nil, or_false] at visited
  rcases visited with rfl | rfl
  · intro v visited
    cases List.mem_singleton.mp visited
    rintro (⟨-, type, formed⟩ | ⟨action, -⟩)
    · cases formed
    · exact absurd action (by decide)
  · trivial

/-- The register of the step is on no slave, and the run passes. -/
theorem verdicts_sound_fails :
    ¬VerdictsSound id {} (oneInject "FR-SIM-05a" "MaxTemp") {} [.drive 0, .finish 0 false] := by
  intro sound
  have law := (sound _ (List.mem_cons_of_mem _ (List.mem_singleton_self _)) (by rfl)).2.2
  have created := (law _ (List.mem_singleton_self _)).2 (by rfl)
  exact absurd created (by decide)

end Drills
end ScenarioScript
end EnerSentry.Sim
