import Mathlib.Data.List.Sort
import EnerSentry.Sim.FaultInjector
import EnerSentry.Sim.Json

/-!
Scenario files of the device simulator: a JSON document with a list of steps, each of which
injects a fault or recovers from one. A field that is missing has a default, one of the
wrong type is an error that ends the reading.
-/

namespace EnerSentry.Sim

structure ScenarioStep (K : Type) [Zero K] where
  tMs : Int64 := 0
  action : String := ""
  fault : String := ""
  scope : String := ""
  slaveSpec : String := ""
  regName : String := ""
  count : Int32 := 1
  targetValue : K := 0
  rampRate : K := 0
  durationMs : Int64 := 0
  alarmBit : Int32 := -1
  fired : Bool := false
  deriving DecidableEq

namespace ScenarioStep
variable {K : Type} [Zero K]

/-- The slave is a text, or a number written out. -/
def readSlave (j : Json K) : String :=
  match j.member "slave" with
  | some (.string s) => s
  | some (.integer i) => toString (Int32.ofInt i).toInt
  | _ => ""

def read [IntCast K] (truncate : K → Int) (j : Json K) : Except String (ScenarioStep K) := do
  let tMs ← j.value "t" 0 (Json.getInt64 truncate)
  let action ← j.value "action" "" Json.getString
  let fault ← j.value "fault" "" Json.getString
  let scope ← j.value "scope" "" Json.getString
  let regName ← j.value "register" "" Json.getString
  let count ← j.value "count" 1 (Json.getInt truncate)
  let targetValue ← j.value "targetValue" 0 Json.getNumber
  let rampRate ← j.value "rampRate" 0 Json.getNumber
  let durationMs ← j.value "durationMs" 0 (Json.getInt64 truncate)
  let alarmBit ← j.value "alarmBit" (-1) (Json.getInt truncate)
  return { tMs, action, fault, scope, slaveSpec := readSlave j, regName, count, targetValue, rampRate, durationMs,
           alarmBit }

/-- A step is read as one that has not fired. -/
theorem read_fired [IntCast K] {truncate : K → Int} {j : Json K} {s : ScenarioStep K}
    (found : read truncate j = .ok s) : s.fired = false := by
  unfold read at found
  simp only [Json.bind_eq_ok] at found
  obtain ⟨t, -, action, -, fault, -, scope, -, register, -, count, -, target, -, ramp, -, duration, -, bit, -, made⟩ :=
    found
  cases made
  rfl

/-- The actions a scenario may ask for. -/
def known (s : ScenarioStep K) : Bool := s.action == "INJECT" || s.action == "RECOVER"

def before (a b : ScenarioStep K) : Prop := a.tMs.toInt ≤ b.tMs.toInt

instance : DecidableRel (before (K := K)) := fun a b => inferInstanceAs (Decidable (a.tMs.toInt ≤ b.tMs.toInt))

/-- The steps of a list of elements that a load takes over, in the order of the file. -/
def accepted [IntCast K] (truncate : K → Int) (elements : List (Json K)) : List (ScenarioStep K) :=
  (elements.filterMap fun j => (read truncate j).toOption).filter known

theorem accepted_fired [IntCast K] {truncate : K → Int} {elements : List (Json K)} {s : ScenarioStep K}
    (member : s ∈ accepted truncate elements) : s.fired = false := by
  obtain ⟨j, -, found⟩ := List.mem_filterMap.mp (List.mem_filter.mp member).1
  cases made : read truncate j with
  | error what =>
    rw [made] at found
    cases found
  | ok s' =>
    rw [made] at found
    cases found
    exact read_fired made

instance : IsTrans (ScenarioStep K) before := ⟨fun _ _ _ => Int.le_trans⟩

instance : Std.Total (before (K := K)) := ⟨fun a b => Int.le_total a.tMs.toInt b.tMs.toInt⟩

end ScenarioStep

/-- What is found under the path of a scenario: no file or an empty one, a text that is no JSON, or a document. -/
inductive ScenarioFile (K : Type) where
  | unreadable (path : String)
  | invalid (path : String)
  | document (path : String) (doc : Json K)

/-- The elements of the list of steps. -/
def ScenarioFile.elements {K : Type} (file : ScenarioFile K) : List (Json K) :=
  match file with
  | .document _ doc =>
      match doc.member "steps" with
      | some (.array elements) => elements
      | _ => []
  | _ => []

end EnerSentry.Sim
