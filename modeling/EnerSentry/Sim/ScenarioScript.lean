import EnerSentry.Sim.PointGenerator
import EnerSentry.Sim.ScenarioFile

/-!
The scenario driver of the device simulator: it loads a scenario, fires the steps that are
due at each tick of the engine and writes the report. An `INJECT` is expanded against the
point table into fault sessions, whose handles are kept under the key of the step until a
`RECOVER` with the same key takes them.
-/

namespace EnerSentry.Sim

/-- The points by slave, in the order of the slave ids. -/
structure SimPointTable (K : Type) where
  bySlave : List (UInt8 × List (SimPoint K)) := []
  ascending : (bySlave.map Prod.fst).Pairwise (· < ·) := by simp

namespace SimPointTable
variable {K : Type}

def allSlaveIds (pt : SimPointTable K) : List UInt8 := pt.bySlave.map Prod.fst

def onSlave (pt : SimPointTable K) (slave : UInt8) : List (SimPoint K) :=
  match pt.bySlave.find? (·.1 == slave) with
  | some entry => entry.2
  | none => []

end SimPointTable

/-- The injector with the readings of the steady clock that its calls are going to make. -/
structure TimedInjector (K : Type) [Zero K] where
  fi : FaultInjector K := {}
  readings : Nat → Int := fun _ => 0

namespace TimedInjector
variable {K : Type} [Zero K]

def trigger (ti : TimedInjector K) (req : FaultOverride K) : TimedInjector K × FaultHandle :=
  let r := ti.fi.trigger req (ti.readings 0) (ti.readings 1)
  ({ fi := r.1, readings := fun n => ti.readings (n + 2) }, r.2)

def recover (ti : TimedInjector K) (h : FaultHandle) (recoverValue : K) : TimedInjector K × Bool :=
  let r := ti.fi.recover h recoverValue (ti.readings 0)
  ({ fi := r.1, readings := fun n => ti.readings (n + 1) }, r.2)

def abort (ti : TimedInjector K) (h : FaultHandle) : TimedInjector K × Bool :=
  let r := ti.fi.abort h
  ({ ti with fi := r.1 }, r.2)

def tickSessions [Add K] [Sub K] [Neg K] [Mul K] [Div K] [IntCast K] [LT K] [DecidableLT K]
    (ti : TimedInjector K) (dtMs : UInt32) : TimedInjector K :=
  { fi := ti.fi.tickSessions dtMs (ti.readings 0) (fun i => ti.readings (i + 1))
    readings := fun n => ti.readings (n + 1 + ti.fi.sessions.length) }

end TimedInjector

/-- A line of the event stream, but for its wall clock time. -/
structure ScenarioEvent where
  level : String
  event : String
  slave : UInt8
  reg : UInt16
  fault : Option String
  detail : String
  deriving DecidableEq

structure ScenarioReport where
  scenarioName : String := ""
  durationMs : Int := 0
  faultsInjected : List (String × Nat) := []
  result : String := ""
  notes : String := ""
  deriving DecidableEq

structure ScenarioScript (K : Type) [Zero K] where
  steps : List (ScenarioStep K) := []
  name : String := ""
  startMs : Int := 0
  started : Bool := false
  finished : Bool := false
  anyFail : Bool := false
  events : List ScenarioEvent := []
  report : ScenarioReport := {}
  handles : String → List FaultHandle := fun _ => []

namespace ScenarioScript

section Parsing

/-- The value of the leading decimal digits, if there is one. -/
def digits : List Char → Option Nat
  | [] => none
  | c :: cs =>
      if c.isDigit then some (((c :: cs).takeWhile Char.isDigit).foldl (fun n d => 10 * n + (d.toNat - 48)) 0)
      else none

/-- The number a text starts with, after blanks and a sign. -/
def strtoll (text : List Char) : Option Int :=
  match text.dropWhile (fun c => c == ' ' || ('\t' ≤ c && c ≤ '\r')) with
  | '-' :: cs => (digits cs).map fun n => max (-(n : Int)) (-2 ^ 63)
  | '+' :: cs => (digits cs).map fun n => min (n : Int) (2 ^ 63 - 1)
  | cs => (digits cs).map fun n => min (n : Int) (2 ^ 63 - 1)

def toInt64 (s : String) (otherwise : Int) : Int := (strtoll s.toList).getD otherwise

def faultTypeFromCode (code : String) : Option FaultType :=
  if code == "FR-SIM-05a" then some .overTemp
  else if code == "FR-SIM-05b" then some .cellVoltage
  else if code == "FR-SIM-05c" then some .commLoss
  else if code == "FR-SIM-05d" then some .crcError
  else if code == "FR-SIM-05e" then some .timeout
  else none

/-- What fits in the buffer the patterns are printed to. -/
def printed (pattern : String) : List Char := pattern.toList.take 31

/-- A number with at least three digits. -/
def padded (idx : Nat) : String := "".pushn '0' (3 - (toString idx).length) ++ toString idx

variable {K : Type}

def findPointBySuffix (pt : SimPointTable K) (slave : UInt8) (regName : String) (idx : Option Nat) :
    Option (SimPoint K) :=
  match idx with
  | some i =>
      let pat3 := printed ("_" ++ regName ++ "_" ++ padded i)
      let patPlain := printed ("_" ++ regName ++ "_" ++ toString i)
      (pt.onSlave slave).find? fun p => p.enabled && (pat3 <:+ p.pointName.toList || patPlain <:+ p.pointName.toList)
  | none =>
      let pat := ("_" ++ regName).toList
      (pt.onSlave slave).find? fun p => p.enabled && pat <:+ p.pointName.toList

end Parsing

variable {K : Type} [Zero K]

section Load
variable [IntCast K]

def loadStep (sc : ScenarioScript K) (s : ScenarioStep K) : ScenarioScript K :=
  if s.known then { sc with steps := sc.steps ++ [s] }
  else
    { sc with
      anyFail := true
      report := { sc.report with notes := sc.report.notes ++ "bad action '" ++ s.action ++ "'; " } }

/-- The steps in front of one that cannot be read stay, as they are. -/
def loadSteps (truncate : K → Int) (sc : ScenarioScript K) :
    List (Json K) → Except (ScenarioScript K) (ScenarioScript K)
  | [] => .ok { sc with steps := sc.steps.insertionSort ScenarioStep.before }
  | j :: js =>
      match ScenarioStep.read truncate j with
      | .ok s => loadSteps truncate (sc.loadStep s) js
      | .error what => .error { sc with report := { sc.report with notes := "exception: " ++ what } }

def load (sc : ScenarioScript K) (truncate : K → Int) (file : ScenarioFile K) : ScenarioScript K × Bool :=
  let sc : ScenarioScript K := { startMs := sc.startMs }
  match file with
  | .unreadable path => ({ sc with report := { notes := "open failed: " ++ path } }, false)
  | .invalid path => ({ sc with report := { notes := "parse failed (invalid JSON): " ++ path } }, false)
  | .document path doc =>
      match doc with
      | .object _ =>
          match doc.value "name" "" Json.getString with
          | .error what => ({ sc with report := { notes := "exception: " ++ what } }, false)
          | .ok name =>
              match doc.member "steps" with
              | some (.array elements) =>
                  match loadSteps truncate { sc with name := name } elements with
                  | .ok sc => (sc, !sc.steps.isEmpty || !sc.anyFail)
                  | .error sc => (sc, false)
              | _ => ({ sc with name := name, report := { notes := "missing steps[]: " ++ path } }, false)
      | _ => ({ sc with report := { notes := "parse failed (invalid JSON): " ++ path } }, false)

end Load

def reset (sc : ScenarioScript K) : ScenarioScript K :=
  { steps := sc.steps.map fun s => { s with fired := false }, name := sc.name, startMs := sc.startMs }

def allFired (sc : ScenarioScript K) : Bool := sc.steps.all (·.fired)

def fail (sc : ScenarioScript K) (note : String) : ScenarioScript K :=
  { sc with anyFail := true, report := { sc.report with notes := sc.report.notes ++ note } }

def appendEvent (sc : ScenarioScript K) (level event : String) (slave : UInt8) (reg : UInt16) (fault detail : String) :
    ScenarioScript K :=
  let line : ScenarioEvent :=
    { level, event, slave, reg, fault := if fault.isEmpty then none else some fault, detail }
  { sc with events := sc.events ++ [line] }

def handleKey (s : ScenarioStep K) : String := s.fault ++ "|" ++ s.scope ++ "|" ++ s.slaveSpec ++ "|" ++ s.regName

/-- The first drive is the start of the scenario. -/
def begun (sc : ScenarioScript K) (nowMs : Int) : ScenarioScript K :=
  if sc.started then sc else { sc with started := true, startMs := nowMs }

section Fire
variable [ToString K]

/-- The script and the injector while a step is expanded, and how many sessions it has created. -/
structure Expansion (K : Type) [Zero K] where
  sc : ScenarioScript K
  ti : TimedInjector K
  injected : Nat := 0

def pushReq (s : ScenarioStep K) (type : FaultType) (scope : Scope) (x : Expansion K) (slave : UInt8) (reg : UInt16) :
    Expansion K :=
  let r := x.ti.trigger
    { type, scope, slave, reg, targetValue := s.targetValue, rampRate := s.rampRate,
      durationMs := s.durationMs.toInt32 }
  if r.2 == invalidFaultHandle then
    { x with sc := x.sc.fail ("trigger failed slave=" ++ toString slave ++ "; "), ti := r.1 }
  else
    let kept := { x.sc with
      handles := Function.update x.sc.handles (handleKey s) (x.sc.handles (handleKey s) ++ [r.2]) }
    let detail := "target=" ++ toString s.targetValue ++ " ramp=" ++ toString s.rampRate ++
      (if 0 ≤ s.alarmBit then " alarmBit=" ++ toString s.alarmBit.toInt else "")
    { sc := kept.appendEvent "WARN" "FAULT_INJECT" slave reg s.fault detail, ti := r.1, injected := x.injected + 1 }

/-- A cell of the expansion of a step. A missing one is a failure. -/
def pushCell (s : ScenarioStep K) (type : FaultType) (pt : SimPointTable K) (slave : UInt8) (x : Expansion K)
    (i : Nat) : Expansion K :=
  match findPointBySuffix pt slave s.regName (some i) with
  | some p => pushReq s type .point x slave p.registerAddr
  | none =>
      { x with
        sc := x.sc.fail
          ("point '" ++ s.regName ++ "_" ++ toString i ++ "' not found on slave " ++ toString slave ++ "; ") }

/-- The register of a step on one slave. A slave without it is passed over. -/
def pushRegister (s : ScenarioStep K) (type : FaultType) (pt : SimPointTable K) (x : Expansion K) (slave : UInt8) :
    Expansion K :=
  match findPointBySuffix pt slave s.regName none with
  | some p => pushReq s type .point x slave p.registerAddr
  | none => x

def countFault (faults : List (String × Nat)) (fault : String) (injected : Nat) : List (String × Nat) :=
  if faults.any (·.1 == fault) then
    faults.modify (faults.findIdx (·.1 == fault)) fun e => (e.1, e.2 + injected)
  else if 0 < injected then faults ++ [(fault, injected)]
  else faults

/-- The slaves a step names, if it names them well. -/
def slavesOf (s : ScenarioStep K) (pt : SimPointTable K) : Option (List UInt8) :=
  if s.slaveSpec == "ALL" then some pt.allSlaveIds
  else
    let sid := toInt64 s.slaveSpec 0
    if sid ≤ 0 ∨ 255 < sid then none else some [UInt8.ofInt sid]

def onLink (s : ScenarioStep K) (type : FaultType) : Bool := type == .commLoss || s.scope == "pcs" || s.scope == "link"

def onCells (s : ScenarioStep K) : Bool := s.scope == "cell" && 1 < s.count

def expand (s : ScenarioStep K) (type : FaultType) (pt : SimPointTable K) (slaves : List UInt8) (x : Expansion K) :
    Expansion K :=
  if onLink s type then slaves.foldl (fun x slave => pushReq s type .slave x slave 0) x
  else if onCells s then
    slaves.foldl (fun x slave => (List.range s.count.toInt.toNat).foldl (pushCell s type pt slave) x) x
  else slaves.foldl (pushRegister s type pt) x

def fireInject (sc : ScenarioScript K) (s : ScenarioStep K) (ti : TimedInjector K) (pt : SimPointTable K) :
    ScenarioScript K × TimedInjector K :=
  match faultTypeFromCode s.fault with
  | none =>
      ((sc.fail ("unknown fault code '" ++ s.fault ++ "'; ")).appendEvent "ERROR" "FAULT_INJECT_UNKNOWN" 0 0 s.fault
        "unknown fault code", ti)
  | some type =>
      match slavesOf s pt with
      | none => (sc.fail ("bad slave '" ++ s.slaveSpec ++ "'; "), ti)
      | some slaves =>
          if !onLink s type && s.regName.isEmpty then
            (sc.fail ("register required for scope '" ++ s.scope ++ "'; "), ti)
          else
            let x := expand s type pt slaves { sc, ti }
            let faults := countFault x.sc.report.faultsInjected s.fault x.injected
            ({ x.sc with report := { x.sc.report with faultsInjected := faults } }, x.ti)

def fireRecover (sc : ScenarioScript K) (s : ScenarioStep K) (ti : TimedInjector K) :
    ScenarioScript K × TimedInjector K :=
  let key := handleKey s
  match sc.handles key with
  | [] => (sc.appendEvent "INFO" "FAULT_RECOVER_SKIP" 0 0 s.fault "no matching inject handle", ti)
  | h :: rest =>
      if s.slaveSpec == "ALL" then
        let ti := (h :: rest).foldl (fun ti h => (ti.recover h s.targetValue).1) ti
        let sc := sc.appendEvent "INFO" "FAULT_RECOVER" 0 0 s.fault
          ("recovering ALL (" ++ toString (h :: rest).length ++ " handles) target=" ++ toString s.targetValue)
        ({ sc with handles := Function.update sc.handles key [] }, ti)
      else
        let sc := { sc with handles := Function.update sc.handles key rest }
        let r := ti.recover h s.targetValue
        let sc := if r.2 then sc else sc.fail ("recover failed handle=" ++ toString h ++ "; ")
        (sc.appendEvent "INFO" "FAULT_RECOVER" 0 0 s.fault ("recovering handle=" ++ toString h), r.1)

def fire (sc : ScenarioScript K) (s : ScenarioStep K) (ti : TimedInjector K) (pt : SimPointTable K) :
    ScenarioScript K × TimedInjector K :=
  if s.action == "INJECT" then sc.fireInject s ti pt
  else if s.action == "RECOVER" then sc.fireRecover s ti
  else (sc, ti)

/-- The loop over the steps: those that have fired now, with the script, the injector and their number. -/
def driveLoop (nowMs : Int) (pt : SimPointTable K) : List (ScenarioStep K) →
    ScenarioScript K × TimedInjector K × Nat → List (ScenarioStep K) × ScenarioScript K × TimedInjector K × Nat
  | [], b => ([], b)
  | s :: rest, b =>
      if s.fired || nowMs < s.tMs.toInt then
        let r := driveLoop nowMs pt rest b
        (s :: r.1, r.2)
      else
        let now := { s with fired := true }
        let f := b.1.fire now b.2.1 pt
        let r := driveLoop nowMs pt rest (f.1, f.2, b.2.2 + 1)
        (now :: r.1, r.2)

def drive (sc : ScenarioScript K) (nowMs : Int) (ti : TimedInjector K) (pt : SimPointTable K) :
    ScenarioScript K × TimedInjector K × Nat :=
  let sc := sc.begun nowMs
  let r := driveLoop nowMs pt sc.steps (sc, ti, 0)
  ({ r.2.1 with steps := r.1 }, r.2.2.1, r.2.2.2)

end Fire

/-- A note is put behind those there are. -/
def addNote (notes note : String) : String := (if notes.isEmpty then "" else notes ++ "; ") ++ note

def finishReport (sc : ScenarioScript K) (durationMs : Int) (aborted : Bool) : ScenarioScript K :=
  let report := { sc.report with scenarioName := sc.name, durationMs := durationMs }
  let report :=
    if aborted then
      { report with
        result := "INCONCLUSIVE", notes := addNote report.notes "scenario aborted before completion" }
    else if sc.anyFail then { report with result := "FAIL" }
    else if sc.allFired then { report with result := "PASS" }
    else { report with result := "INCONCLUSIVE", notes := addNote report.notes "not all steps fired" }
  { sc with finished := true, report := report }

section Loading
variable [IntCast K] {truncate : K → Int}

theorem loadSteps_ok {sc sc' : ScenarioScript K} {elements : List (Json K)}
    (ok : loadSteps truncate sc elements = .ok sc') :
    sc'.steps = (sc.steps ++ ScenarioStep.accepted truncate elements).insertionSort ScenarioStep.before := by
  induction elements generalizing sc with
  | nil =>
    cases ok
    simp [ScenarioStep.accepted]
  | cons j js ih =>
    rw [loadSteps] at ok
    cases read : ScenarioStep.read truncate j with
    | error what =>
      rw [read] at ok
      cases ok
    | ok s =>
      rw [read] at ok
      have rest := ih ok
      by_cases known : s.known
      · have taken : ScenarioStep.accepted truncate (j :: js) = s :: ScenarioStep.accepted truncate js := by
          simp [ScenarioStep.accepted, read, Except.toOption, known]
        rw [rest, loadStep, if_pos known, taken, List.append_assoc, List.singleton_append]
      · have dropped : ScenarioStep.accepted truncate (j :: js) = ScenarioStep.accepted truncate js := by
          simp [ScenarioStep.accepted, read, Except.toOption, known]
        rw [rest, loadStep, if_neg known, dropped]

/-- A scenario that is loaded has the accepted steps of its file by their offsets, and all else is new. -/
theorem load_steps {sc : ScenarioScript K} {file : ScenarioFile K} (ok : (sc.load truncate file).2 = true) :
    (sc.load truncate file).1.steps =
      (ScenarioStep.accepted truncate file.elements).insertionSort ScenarioStep.before := by
  unfold load at ok ⊢
  cases file with
  | unreadable path => cases ok
  | invalid path => cases ok
  | document path doc =>
    cases doc with
    | object members =>
      simp only [ScenarioFile.elements] at ok ⊢
      cases named : (Json.object members).value "name" "" Json.getString with
      | error what => simp [named] at ok
      | ok name =>
        simp only [named] at ok ⊢
        cases held : (Json.object members).member "steps" with
        | none => simp [held] at ok
        | some j =>
          cases j with
          | array elements =>
            simp only [held] at ok ⊢
            split at ok <;> rename_i sc' made
            · simpa using loadSteps_ok made
            · cases ok
          | _ => simp [held] at ok
    | _ => cases ok

variable (truncate) in
theorem loadSteps_handles (sc : ScenarioScript K) (elements : List (Json K)) :
    (∀ sc', loadSteps truncate sc elements = .ok sc' → sc'.handles = sc.handles) ∧
      ∀ sc', loadSteps truncate sc elements = .error sc' → sc'.handles = sc.handles := by
  induction elements generalizing sc with
  | nil =>
    constructor
    · intro sc' ok
      cases ok
      rfl
    · intro sc' stopped
      cases stopped
  | cons j js ih =>
    unfold loadSteps
    cases ScenarioStep.read truncate j with
    | error what =>
      constructor
      · intro sc' ok
        cases ok
      · intro sc' stopped
        cases stopped
        rfl
    | ok s =>
      have same : (sc.loadStep s).handles = sc.handles := by
        unfold loadStep
        split <;> rfl
      exact same ▸ ih (sc.loadStep s)

/-- No handles wait in a script that has just been loaded. -/
theorem load_handles (sc : ScenarioScript K) (file : ScenarioFile K) :
    (sc.load truncate file).1.handles = fun _ => [] := by
  unfold load
  cases file with
  | unreadable path => rfl
  | invalid path => rfl
  | document path doc =>
    cases doc with
    | object members =>
      cases named : (Json.object members).value "name" "" Json.getString with
      | error what => simp only [named]
      | ok name =>
        cases held : (Json.object members).member "steps" with
        | none => simp only [named, held]
        | some j =>
          cases j with
          | array elements =>
            obtain ⟨ok, stopped⟩ := loadSteps_handles truncate
              ({ startMs := sc.startMs, name := name } : ScenarioScript K) elements
            simp only [named, held]
            split
            case h_1 sc' made => exact ok sc' made
            case h_2 sc' made => exact stopped sc' made
          | _ => simp only [named, held]
    | _ => rfl

end Loading

section Driving
variable (nowMs : Int)

@[simp] theorem begun_steps (sc : ScenarioScript K) : (sc.begun nowMs).steps = sc.steps := by
  unfold begun
  split <;> rfl

/-- The step is to be fired now. -/
def due (s : ScenarioStep K) : Bool := !(s.fired || nowMs < s.tMs.toInt)

def driven (s : ScenarioStep K) : ScenarioStep K := if due nowMs s then { s with fired := true } else s

variable [ToString K] (pt : SimPointTable K)

def fireNext (b : ScenarioScript K × TimedInjector K × Nat) (s : ScenarioStep K) :
    ScenarioScript K × TimedInjector K × Nat :=
  let f := b.1.fire { s with fired := true } b.2.1 pt
  (f.1, f.2, b.2.2 + 1)

/-- The loop marks the due steps and fires them one after the other. -/
theorem driveLoop_eq (steps : List (ScenarioStep K)) (b : ScenarioScript K × TimedInjector K × Nat) :
    driveLoop nowMs pt steps b = (steps.map (driven nowMs), (steps.filter (due nowMs)).foldl (fireNext pt) b) := by
  induction steps generalizing b with
  | nil => rfl
  | cons s rest ih =>
    by_cases later : (s.fired || decide (nowMs < s.tMs.toInt)) = true
    · have waits : due nowMs s = false := by rw [due, later, Bool.not_true]
      rw [driveLoop, if_pos later, ih, List.map_cons, driven, if_neg (by rw [waits]; decide),
        List.filter_cons_of_neg (by rw [waits]; decide)]
    · have goes : due nowMs s = true := by rw [due, Bool.eq_false_of_not_eq_true later, Bool.not_false]
      rw [driveLoop, if_neg later, List.map_cons, driven, if_pos goes, List.filter_cons_of_pos goes, List.foldl_cons]
      simp only [ih]
      rfl

/-- The script and the injector after the due steps of a drive. -/
def fireDue (sc : ScenarioScript K) (ti : TimedInjector K) : ScenarioScript K × TimedInjector K × Nat :=
  (sc.steps.filter (due nowMs)).foldl (fireNext pt) (sc.begun nowMs, ti, 0)

theorem drive_eq (sc : ScenarioScript K) (ti : TimedInjector K) :
    sc.drive nowMs ti pt =
      ({ (fireDue nowMs pt sc ti).1 with steps := sc.steps.map (driven nowMs) }, (fireDue nowMs pt sc ti).2) := by
  simp only [drive, driveLoop_eq, begun_steps]
  rfl

end Driving

end ScenarioScript
end EnerSentry.Sim
