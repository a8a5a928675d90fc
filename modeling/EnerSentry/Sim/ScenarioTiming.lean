import EnerSentry.Lib.Runs
import EnerSentry.Sim.SimulatorEngine

/-!
When the steps of a scenario fire. The offsets are counted from the start of the scenario,
and the engine compares them with its own clock. The steps go in their order and none goes
twice, but they are on time exactly as long as the two clocks have no offset between them.
-/

namespace EnerSentry.Sim
open EnerSentry.Lib.Runs

variable {K : Type} [Zero K]

/-- A scenario as it is played: its steps in the order of the file, the engine's clock when it was started and when
it was last looked at, and the steps that have fired. -/
structure Playing (K : Type) [Zero K] where
  steps : List (ScenarioStep K)
  times : Option (Int × Int) := none
  played : List (ScenarioStep K) := []

namespace Playing
variable (p : Playing K) (now : Int)

/-- The steps by their offsets, those with one offset as in the file. -/
def order : List (ScenarioStep K) := p.steps.insertionSort ScenarioStep.before

/-- What has fired is what the time since the start allows, each step once and in order. -/
def OnTime : Prop :=
  p.played = match p.times with
    | none => []
    | some (start, last) => p.order.filter fun s => s.tMs.toInt ≤ last - start

/-- When the scenario started, if it is looked at now. -/
def startMs : Int := (p.times.map Prod.fst).getD now

def look (fired : List (ScenarioStep K)) : Playing K :=
  { p with times := some (p.startMs now, now), played := p.played ++ fired }

/-- The engine's clock has come to the offset, whatever the scenario's. -/
def past (s : ScenarioStep K) : Bool := p.times.any fun t => s.tMs.toInt ≤ t.2

def marked (s : ScenarioStep K) : ScenarioStep K := { s with fired := p.past s }

theorem order_sorted : p.order.Pairwise ScenarioStep.before := List.pairwise_insertionSort _ _

variable {p} in
theorem marked_waiting {s : ScenarioStep K} (waits : p.past s = false) (fresh : s.fired = false) : p.marked s = s := by
  rw [marked, waits, ← fresh]

variable {p} in
theorem past_before {x y : ScenarioStep K} (earlier : x.before y) (past : p.past y = true) : p.past x = true := by
  unfold Playing.past at past ⊢
  cases times : p.times with
  | none =>
    rw [times] at past
    cases past
  | some t =>
    rw [times] at past
    have before : y.tMs.toInt ≤ t.2 := of_decide_eq_true past
    exact decide_eq_true (le_trans earlier before)

end Playing

def EngineOutput.step? : EngineOutput K → Option (ScenarioStep K)
  | .fired s => some s
  | .report _ => none

namespace SimulatorEngine

/-- What becomes of the scenario that is played. -/
def follow [IntCast K] (truncate : K → Int) (e : SimulatorEngine K) (m : Option (Playing K)) (event : EngineEvent K)
    (out : List (EngineOutput K)) : Option (Playing K) :=
  match event with
  | .start tickMs table emulator readings =>
      if (e.start tickMs table emulator readings).scenario.isNone then none else m
  | .stop => none
  | .load path file =>
      if path.isEmpty then m
      else if (ScenarioScript.load {} truncate file).2 then
        some { steps := ScenarioStep.accepted truncate file.elements }
      else m
  | .tick => if e.running then m.map (·.look e.nowMs (out.filterMap EngineOutput.step?)) else m
  | _ => m

/-- The script agrees with what has been played of it. -/
structure InStep (e : SimulatorEngine K) (sc : ScenarioScript K) (p : Playing K) : Prop where
  fresh : ∀ s ∈ p.steps, s.fired = false
  steps : sc.steps = p.order.map p.marked
  played : p.played = p.order.filter p.past
  paused : e.scenarioRunning = false → ∀ s ∈ p.steps, p.past s = true
  clock : ∀ t, p.times = some t → e.running = true ∧ 0 ≤ t.1 ∧ t.2 ≤ e.nowMs

structure Followed (t : SimulatorEngine K × Option (Playing K)) : Prop where
  live : t.1.running = true → t.1.fi.isSome = true
  loaded : t.1.scenario = none ↔ t.2 = none
  inStep : ∀ sc p, t.1.scenario = some sc → t.2 = some p → t.1.InStep sc p

section Firing
variable {p : Playing K} {now : Int} {s : ScenarioStep K}

/-- On an ordered list two stages take what one takes. -/
theorem filter_stages {A : Type} {r : A → A → Prop} {f g : A → Bool} {l : List A} (ordered : l.Pairwise r)
    (down : ∀ x y, r x y → f y = true → f x = true) (wider : ∀ x, f x = true → g x = true) :
    l.filter f ++ l.filter (fun x => !f x && g x) = l.filter g := by
  induction ordered with
  | nil => rfl
  | @cons x l above rest ih =>
    by_cases first : f x = true
    · rw [List.filter_cons_of_pos first, List.filter_cons_of_neg (by simp [first]),
        List.filter_cons_of_pos (wider x first), List.cons_append, ih]
    · have none : ∀ y ∈ x :: l, f y = false := by
        intro y member
        rcases List.mem_cons.mp member with rfl | later
        · exact Bool.eq_false_of_not_eq_true first
        · exact Bool.eq_false_of_not_eq_true fun taken => first (down x y (above y later) taken)
      rw [List.filter_eq_nil_iff.mpr fun y member => by rw [none y member]; decide, List.nil_append]
      exact List.filter_congr fun y member => by rw [none y member, Bool.not_false, Bool.true_and]

theorem newlyFired_map (old : List (ScenarioStep K)) (f : ScenarioStep K → ScenarioStep K) :
    newlyFired old (old.map f) = old.filter fun s => !s.fired && (f s).fired := by
  induction old with
  | nil => rfl
  | cons s old ih =>
    rw [newlyFired] at ih
    by_cases fires : (!s.fired && (f s).fired) = true
    · simp [newlyFired, fires, ih]
    · simp [newlyFired, fires, ih]

end Firing

section Drive
variable {e : SimulatorEngine K} {sc : ScenarioScript K} {p : Playing K} {s : ScenarioStep K}

theorem past_look (now : Int) (fired : List (ScenarioStep K)) (s : ScenarioStep K) :
    (p.look now fired).past s = decide (s.tMs.toInt ≤ now) := rfl

theorem InStep.of_past (holds : e.InStep sc p) (past : p.past s = true) : s.tMs.toInt ≤ e.nowMs := by
  unfold Playing.past at past
  cases times : p.times with
  | none =>
    rw [times] at past
    cases past
  | some t =>
    rw [times] at past
    have before : s.tMs.toInt ≤ t.2 := of_decide_eq_true past
    exact before.trans (holds.clock t times).2.2

theorem InStep.driven_marked (holds : e.InStep sc p) (fired : List (ScenarioStep K)) :
    ScenarioScript.driven e.nowMs (p.marked s) = (p.look e.nowMs fired).marked s := by
  unfold Playing.marked
  rw [past_look]
  by_cases past : p.past s = true
  · have reached := holds.of_past past
    rw [ScenarioScript.driven, ScenarioScript.due, past, decide_eq_true reached]
    rfl
  · rw [ScenarioScript.driven, ScenarioScript.due, Bool.eq_false_of_not_eq_true past]
    by_cases reached : s.tMs.toInt ≤ e.nowMs
    · simp [reached]
    · simp [reached]

theorem InStep.order_fresh (holds : e.InStep sc p) (member : s ∈ p.order) : s.fired = false :=
  holds.fresh s ((List.mem_insertionSort _).mp member)

/-- What a drive fires comes behind what has been played. -/
theorem InStep.played_drive (holds : e.InStep sc p) (fired : List (ScenarioStep K)) :
    p.played ++ newlyFired sc.steps (sc.steps.map (ScenarioScript.driven e.nowMs)) =
      p.order.filter (p.look e.nowMs fired).past := by
  have fires : ∀ s, (!(p.marked s).fired && (ScenarioScript.driven e.nowMs (p.marked s)).fired) =
      (!p.past s && (p.look e.nowMs fired).past s) := by
    intro s
    rw [holds.driven_marked fired]
    rfl
  have unmarked : ∀ s ∈ p.order.filter (fun s => !p.past s && (p.look e.nowMs fired).past s), p.marked s = s := by
    intro s member
    obtain ⟨member, fires⟩ := List.mem_filter.mp member
    have waits : p.past s = false := by
      rw [Bool.and_eq_true, Bool.not_eq_true'] at fires
      exact fires.1
    exact Playing.marked_waiting waits (holds.order_fresh member)
  calc p.played ++ newlyFired sc.steps (sc.steps.map (ScenarioScript.driven e.nowMs))
      = p.order.filter p.past ++
          ((p.order.map p.marked).filter fun s => !s.fired && (ScenarioScript.driven e.nowMs s).fired) := by
        rw [holds.played, newlyFired_map, holds.steps]
    _ = p.order.filter p.past ++
          ((p.order.filter fun s => !p.past s && (p.look e.nowMs fired).past s).map p.marked) := by
        rw [List.filter_map]
        congr 3
        funext s
        exact fires s
    _ = p.order.filter p.past ++ p.order.filter fun s => !p.past s && (p.look e.nowMs fired).past s := by
        rw [List.map_congr_left unmarked, List.map_id']
    _ = p.order.filter (p.look e.nowMs fired).past := by
        exact filter_stages p.order_sorted (fun x y => p.past_before) fun x past => decide_eq_true (holds.of_past past)

/-- The script stays in step while the engine leaves it alone. -/
theorem InStep.transfer {e' : SimulatorEngine K} (holds : e.InStep sc p) (running : e'.running = e.running)
    (playing : e'.scenarioRunning = e.scenarioRunning) (later : e.running = true → e.nowMs ≤ e'.nowMs) :
    e'.InStep sc p where
  fresh := holds.fresh
  steps := holds.steps
  played := holds.played
  paused waits := holds.paused (playing ▸ waits)
  clock t times := by
    obtain ⟨runs, first, last⟩ := holds.clock t times
    exact ⟨running ▸ runs, first, last.trans (later runs)⟩

theorem nowMs_nonneg (e : SimulatorEngine K) : 0 ≤ e.nowMs :=
  Int.mul_nonneg (Int.natCast_nonneg _) (Int.natCast_nonneg _)

theorem nowMs_tick {e' : SimulatorEngine K} (count : e'.tickCount = e.tickCount + 1) (same : e'.tickMs = e.tickMs) :
    e.nowMs ≤ e'.nowMs := by
  have next : e'.nowMs = e.nowMs + e.tickMs.toNat := by
    unfold nowMs
    rw [count, same, Int.natCast_add, Int.add_mul, Int.natCast_one, Int.one_mul]
  omega

theorem InStep.clock_look (holds : e.InStep sc p) (runs : e.running = true) (fired : List (ScenarioStep K)) :
    ∀ t, (p.look e.nowMs fired).times = some t → e.running = true ∧ 0 ≤ t.1 ∧ t.2 ≤ e.nowMs := by
  intro t times
  cases times
  refine ⟨runs, ?_, le_refl _⟩
  unfold Playing.startMs
  cases known : p.times with
  | none => exact nowMs_nonneg e
  | some t => exact (holds.clock t known).2.1

/-- A look at a scenario that is played to its end changes nothing. -/
theorem InStep.look_paused (holds : e.InStep sc p) (runs : e.running = true) (paused : e.scenarioRunning = false) :
    e.InStep sc (p.look e.nowMs []) := by
  have all : ∀ s ∈ p.order, p.past s = (p.look e.nowMs []).past s := by
    intro s member
    have past := holds.paused paused s ((List.mem_insertionSort _).mp member)
    rw [past, past_look, decide_eq_true (holds.of_past past)]
  refine ⟨holds.fresh, ?_, ?_, ?_, holds.clock_look runs []⟩
  · rw [holds.steps]
    apply List.map_congr_left
    intro s member
    rw [Playing.marked, Playing.marked, all s member]
  · calc (p.look e.nowMs []).played = p.order.filter p.past := (List.append_nil _).trans holds.played
      _ = p.order.filter (p.look e.nowMs []).past := List.filter_congr all
  · intro waits s member
    rw [← all s ((List.mem_insertionSort _).mpr member)]
    exact holds.paused waits s member

end Drive

theorem filterMap_fired (steps : List (ScenarioStep K)) :
    (steps.map EngineOutput.fired).filterMap EngineOutput.step? = steps := by
  rw [List.filterMap_map]
  exact List.filterMap_some

section Runs
variable {t : SimulatorEngine K × Option (Playing K)}

theorem Followed.withFi (holds : Followed t) (fi : Option (TimedInjector K)) (live : t.1.fi.isSome = fi.isSome) :
    Followed ({ t.1 with fi := fi }, t.2) :=
  ⟨fun runs => live ▸ holds.live runs, holds.loaded, fun sc p loaded played =>
    (holds.inStep sc p loaded played).transfer rfl rfl fun _ => le_refl _⟩

theorem followed_new : Followed (({}, none) : SimulatorEngine K × Option (Playing K)) := by
  constructor
  case live =>
    intro runs
    cases runs
  case loaded => exact ⟨fun _ => rfl, fun _ => rfl⟩
  case inStep =>
    intro sc p loaded
    cases loaded

/-- At a pass of the loop, no offset of the scenario lies between the time since its start and the engine's clock. -/
def ClocksAgree (t : SimulatorEngine K × Option (Playing K)) (event : EngineEvent K) : Prop :=
  match event with
  | .tick => t.1.running = true → ∀ p, t.2 = some p → ∀ s ∈ p.steps,
      ¬(t.1.nowMs - p.startMs t.1.nowMs < s.tMs.toInt ∧ s.tMs.toInt ≤ t.1.nowMs)
  | _ => True

def OnTime (t : SimulatorEngine K × Option (Playing K)) : Prop := ∀ p, t.2 = some p → p.OnTime

/-- What has been played after a look is what is due, if the clocks tell the same. -/
theorem InStep.onTime_iff {e : SimulatorEngine K} {sc : ScenarioScript K} {p : Playing K} {start last : Int}
    (holds : e.InStep sc p) (times : p.times = some (start, last)) :
    p.OnTime ↔ ∀ s ∈ p.steps, ¬(last - start < s.tMs.toInt ∧ s.tMs.toInt ≤ last) := by
  have first : 0 ≤ start := (holds.clock (start, last) times).2.1
  have past : ∀ s, p.past s = decide (s.tMs.toInt ≤ last) := by
    intro s
    rw [Playing.past, times]
    rfl
  unfold Playing.OnTime
  rw [times, holds.played]
  constructor
  · rintro same s member ⟨early, reached⟩
    have listed : s ∈ p.order := (List.mem_insertionSort _).mpr member
    have fired : s ∈ p.order.filter p.past := List.mem_filter.mpr ⟨listed, (past s).trans (decide_eq_true reached)⟩
    rw [same] at fired
    exact absurd (of_decide_eq_true (List.mem_filter.mp fired).2) (by omega)
  · intro none
    apply List.filter_congr
    intro s listed
    have apart := none s ((List.mem_insertionSort _).mp listed)
    rw [past, decide_eq_decide]
    omega

variable [IntCast K] {truncate : K → Int}

theorem Followed.start (holds : Followed t) (tickMs : UInt32) (table : TableLoad K) (emulator : Bool)
    (readings : Nat → Int) :
    Followed (t.1.start tickMs table emulator readings,
      follow truncate t.1 t.2 (.start tickMs table emulator readings) []) := by
  have same : ∀ e' : SimulatorEngine K, e'.scenario = t.1.scenario →
      (if e'.scenario.isNone then none else t.2) = t.2 := by
    intro e' kept
    rw [kept]
    split
    case isTrue none => exact (holds.loaded.mp (Option.isNone_iff_eq_none.mp none)).symm
    case isFalse => rfl
  unfold follow SimulatorEngine.start
  by_cases runs : t.1.running = true
  · simp only [if_pos runs, same t.1 rfl]
    exact holds
  · simp only [if_neg runs]
    have waiting : ∀ e' : SimulatorEngine K, e'.scenario = t.1.scenario →
        e'.scenarioRunning = t.1.scenarioRunning → ∀ sc p, e'.scenario = some sc → t.2 = some p → e'.InStep sc p := by
      intro e' kept playing sc p loaded played
      have before := holds.inStep sc p (kept ▸ loaded) played
      refine ⟨before.fresh, before.steps, before.played, fun waits => before.paused (playing ▸ waits), ?_⟩
      intro times known
      exact absurd (before.clock times known).1 runs
    cases table with
    | throws => exact ⟨fun runs' => absurd runs' runs, by simp, by simp⟩
    | missing =>
      rw [same _ rfl]
      exact ⟨fun runs' => absurd runs' runs, holds.loaded, waiting _ rfl rfl⟩
    | loaded pt =>
      cases emulator with
      | false =>
        simp only [Bool.false_eq_true, if_false, same _ rfl]
        exact ⟨fun runs' => absurd runs' runs, holds.loaded, waiting _ rfl rfl⟩
      | true =>
        simp only [if_true, same _ rfl]
        exact ⟨fun _ => rfl, holds.loaded, waiting _ rfl rfl⟩

theorem Followed.load (holds : Followed t) (path : String) (file : ScenarioFile K) :
    Followed (t.1.loadScenario truncate path file, follow truncate t.1 t.2 (.load path file) []) := by
  unfold follow loadScenario
  by_cases blank : path.isEmpty = true
  · simp only [if_pos blank]
    exact holds
  · by_cases ok : (ScenarioScript.load {} truncate file).2 = true
    · simp only [if_neg blank, if_pos ok]
      refine ⟨holds.live, by simp, ?_⟩
      rintro sc p loaded played
      cases loaded
      cases played
      constructor
      case fresh => exact fun s => ScenarioStep.accepted_fired
      case steps =>
        rw [ScenarioScript.load_steps ok]
        apply (List.map_id _).symm.trans
        apply List.map_congr_left
        intro s member
        exact (Playing.marked_waiting rfl (ScenarioStep.accepted_fired ((List.mem_insertionSort _).mp member))).symm
      case played => exact (List.filter_eq_nil_iff.mpr fun s _ => by simp [Playing.past]).symm
      case paused =>
        intro waits
        cases waits
      case clock =>
        intro times known
        cases known
    · simp only [if_neg blank, if_neg ok]
      exact holds

variable [ToString K] [Add K] [Sub K] [Neg K] [Mul K] [Div K] [LT K] [DecidableLT K]

/-- A pass of the loop keeps the script in step with what is played. -/
theorem InStep.dataTick {e : SimulatorEngine K} {sc : ScenarioScript K} {p : Playing K} {ti : TimedInjector K}
    (holds : e.InStep sc p) (runs : e.running = true) (live : e.fi = some ti) (loaded : e.scenario = some sc) :
    ∀ sc', e.dataTick.1.scenario = some sc' →
      e.dataTick.1.InStep sc' (p.look e.nowMs (e.dataTick.2.filterMap EngineOutput.step?)) := by
  intro sc' after
  cases playing : e.scenarioRunning with
  | false =>
    simp only [SimulatorEngine.dataTick, runs, live, loaded, playing] at after ⊢
    cases after
    exact (holds.look_paused runs playing).transfer runs.symm playing.symm fun _ => nowMs_tick rfl rfl
  | true =>
    simp only [SimulatorEngine.dataTick, runs, live, loaded, playing, filterMap_fired] at after ⊢
    cases after
    rw [ScenarioScript.drive_eq]
    have steps : sc.steps.map (ScenarioScript.driven e.nowMs) = p.order.map
        (p.look e.nowMs (newlyFired sc.steps (sc.steps.map (ScenarioScript.driven e.nowMs)))).marked := by
      rw [holds.steps, List.map_map]
      apply List.map_congr_left
      intro s member
      exact holds.driven_marked _
    refine ⟨holds.fresh, steps, holds.played_drive _, ?_, ?_⟩
    · intro ended s member
      have all : (sc.steps.map (ScenarioScript.driven e.nowMs)).all (·.fired) = true := by
        simpa [ScenarioScript.allFired] using ended
      rw [steps, List.all_map, List.all_eq_true] at all
      exact all s ((List.mem_insertionSort _).mpr member)
    · intro t times
      obtain ⟨-, first, last⟩ := holds.clock_look runs _ t times
      exact ⟨rfl, first, last.trans (nowMs_tick rfl rfl)⟩

theorem Followed.tick (holds : Followed t) :
    Followed (t.1.dataTick.1, follow truncate t.1 t.2 .tick t.1.dataTick.2) := by
  unfold follow
  cases runs : t.1.running with
  | false =>
    have same : t.1.dataTick = (t.1, []) := by
      unfold SimulatorEngine.dataTick
      rw [runs]
    rw [same]
    exact holds
  | true =>
    obtain ⟨ti, live⟩ := Option.isSome_iff_exists.mp (holds.live runs)
    rw [if_pos rfl]
    cases loaded : t.1.scenario with
    | none =>
      have idle : t.1.dataTick =
          ({ t.1 with
              fi := some ((ti.tickSessions t.1.tickMs).tickSessions t.1.tickMs)
              tickCount := t.1.tickCount + 1 }, []) := by
        unfold SimulatorEngine.dataTick
        simp only [runs, live, loaded]
      rw [idle, holds.loaded.mp loaded]
      exact ⟨fun _ => rfl, by simp [loaded], fun sc p _ played => by cases played⟩
    | some sc =>
      cases played : t.2 with
      | none => cases (holds.loaded.mpr played).symm.trans loaded
      | some p =>
        have inStep := (holds.inStep sc p loaded played).dataTick runs live loaded
        have stays : t.1.dataTick.1.scenario.isSome = true ∧ t.1.dataTick.1.fi.isSome = true := by
          unfold SimulatorEngine.dataTick
          rw [runs, live, loaded]
          cases t.1.scenarioRunning <;> exact ⟨rfl, rfl⟩
        refine ⟨fun _ => stays.2, ?_, ?_⟩
        · have some := stays.1
          simp [Option.isSome_iff_ne_none.mp some]
        · rintro sc' q after looked
          cases looked
          exact inStep sc' after

/-- The engine beside the scenario it plays. -/
def played (truncate : K → Int) :
    Step (SimulatorEngine K × Option (Playing K)) (EngineEvent K) (EngineOutput K) :=
  watch (step truncate) (follow truncate)

theorem Followed.step (holds : Followed t) (event : EngineEvent K) : Followed (played truncate t event).1 := by
  cases event with
  | start tickMs table emulator readings => exact holds.start tickMs table emulator readings
  | stop =>
    have closed : (t.1.stop).1.scenario = none ∧ (t.1.stop).1.running = false := by
      unfold SimulatorEngine.stop
      split <;> exact ⟨rfl, rfl⟩
    refine ⟨fun runs => ?_, ⟨fun _ => rfl, fun _ => closed.1⟩, fun sc p loaded => ?_⟩
    · exact absurd (closed.2.symm.trans runs) (by decide)
    · cases closed.1.symm.trans loaded
  | load path file => exact holds.load path file
  | tick => exact holds.tick
  | injectFault req => exact holds.withFi _ (by simp)
  | recoverFault h => exact holds.withFi _ (by simp)
  | abortFault h => exact holds.withFi _ (by simp)

/-- A pass of the loop is on time exactly if the clocks tell the same. -/
theorem Followed.onTime_tick (holds : Followed t) (runs : t.1.running = true) :
    OnTime (played truncate t .tick).1 ↔ ClocksAgree t .tick := by
  have after : (played truncate t .tick).1.2 =
      t.2.map fun p => p.look t.1.nowMs (t.1.dataTick.2.filterMap EngineOutput.step?) := if_pos runs
  have next : Followed (played truncate t .tick).1 := holds.step .tick
  cases playing : t.2 with
  | none =>
    rw [playing] at after
    simp only [OnTime, ClocksAgree, playing]
    constructor
    · intro _ _ p other
      cases other
    · intro _ p other
      cases after.symm.trans other
  | some p =>
    rw [playing] at after
    have some' : (played truncate t .tick).1.1.scenario ≠ none := by
      intro none
      cases after.symm.trans (next.loaded.mp none)
    obtain ⟨sc, loaded⟩ := Option.ne_none_iff_exists'.mp some'
    have law := (next.inStep sc _ loaded after).onTime_iff rfl
    constructor
    · intro onTime _ q other
      cases playing.symm.trans other
      exact law.mp (onTime _ after)
    · intro agree q other
      cases after.symm.trans other
      exact law.mpr (agree runs p playing)

/-- The other events play nothing. -/
theorem onTime_other {event : EngineEvent K} (onTime : OnTime t) (other : event = .tick → t.1.running = false) :
    OnTime (played truncate t event).1 := by
  intro q after
  cases event with
  | start tickMs table emulator readings =>
    change (if _ then none else t.2) = some q at after
    split at after
    · cases after
    · exact onTime q after
  | stop => cases after
  | load path file =>
    change (if _ then t.2 else if _ then some _ else t.2) = some q at after
    split at after
    · exact onTime q after
    · split at after
      · cases after
        rfl
      · exact onTime q after
  | tick =>
    have same : t.2 = some q := by
      change (if t.1.running = true then _ else t.2) = some q at after
      rwa [if_neg (by rw [other rfl]; decide)] at after
    exact onTime q same
  | injectFault req => exact onTime q after
  | recoverFault h => exact onTime q after
  | abortFault h => exact onTime q after

/-- In every state of a run the scenario in progress has fired the steps that are due by the time since it was
started, each once and in order. -/
def PlaysOnTime (truncate : K → Int) (events : List (EngineEvent K)) : Prop :=
  ∀ t ∈ reached (played truncate) ({}, none) events, OnTime t

/-- Whatever the clocks, the steps fire in their order, and none of them twice. -/
theorem played_in_order (events : List (EngineEvent K)) :
    ∀ t ∈ reached (played truncate) ({}, none) events, ∀ p, t.2 = some p → p.played <+: p.order := by
  have followed := reached_always (played truncate) events followed_new fun _ event holds => holds.step event
  intro t member p playing
  cases loaded : t.1.scenario with
  | none => cases ((followed t member).loaded.mp loaded).symm.trans playing
  | some sc =>
    have stages := filter_stages (g := fun _ => true) p.order_sorted (fun x y => p.past_before) fun _ _ => rfl
    rw [((followed t member).inStep sc p loaded playing).played]
    exact ⟨_, stages.trans (List.filter_true _)⟩

theorem plays_on_time_iff (truncate : K → Int) (events : List (EngineEvent K)) :
    PlaysOnTime truncate events ↔ ∀ v ∈ visits (played truncate) ({}, none) events, ClocksAgree v.1 v.2 := by
  have one : ∀ t event, Followed t → OnTime t →
      (ClocksAgree t event ↔ OnTime (played truncate t event).1) := by
    intro t event holds onTime
    by_cases looks : event = .tick ∧ t.1.running = true
    · rw [looks.1]
      exact (holds.onTime_tick looks.2).symm
    · have other : event = .tick → t.1.running = false := fun tick =>
        Bool.eq_false_of_not_eq_true fun runs => looks ⟨tick, runs⟩
      refine ⟨fun _ => onTime_other onTime other, fun _ => ?_⟩
      cases event with
      | tick => exact fun runs => absurd (runs.symm.trans (other rfl)) (by decide)
      | _ => trivial
  have silent : OnTime (({}, none) : SimulatorEngine K × Option (Playing K)) := by
    intro p playing
    cases playing
  exact reached_iff (played truncate) events followed_new (fun _ event holds => holds.step event) silent
    (fun _ holds => holds)
    (fun t event holds onTime agree => (one t event holds onTime).mp agree)
    (fun t event holds onTime apart after => apart ((one t event holds onTime).mpr after))

end Runs

/-- A scenario with one step. -/
def single (t : Int) : ScenarioFile Int := .document "drill" (.object
  [("steps", .array [.object [("t", .integer t), ("action", .string "RECOVER")]])])

/-- A step at 100 ms fires at once when its scenario is loaded after the first tick of 100 ms. -/
theorem plays_on_time_fails : ¬PlaysOnTime id
    [.start 100 (.loaded {}) true fun _ => 0, .tick, .load "drill" (single 100), .tick] := by
  intro holds
  have law := (holds _ run_mem_reached) ⟨[{ tMs := 100, action := "RECOVER" }], some (100, 100),
    [{ tMs := 100, action := "RECOVER" }]⟩ (by rfl)
  have early : [({ tMs := 100, action := "RECOVER" } : ScenarioStep Int)] = [] := law
  cases early

end SimulatorEngine
end EnerSentry.Sim
