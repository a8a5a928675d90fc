import EnerSentry.Business.AlarmLifeCycle
import EnerSentry.Protocol.PointTableFile

/-!
The alarm rules as they are loaded from their file. The loader takes the entries one by one
and names a point by its id, and the engine keeps one rule for an id: of the enabled rules of
a file that name one point it is the last.
-/

namespace EnerSentry.Business
open EnerSentry.Lib EnerSentry.Protocol EnerSentry.Sim

/-- What is found under the path of a rules file. One that cannot be opened reads as empty. -/
inductive RulesFile (K : Type) where
  | empty (path : String)
  | malformed (path : String)
  | document (path : String) (root : Json K)

variable {K : Type} [Zero K]

structure LoadedRules (K : Type) [Zero K] where
  okCount : Int
  out : List (AlarmRule K)
  err : String
  deriving DecidableEq

/-- What an entry of the file comes to. -/
inductive RuleEntry (K : Type) [Zero K] where
  | rule (r : AlarmRule K)
  | issue (text : String)

namespace AlarmRuleLoader

def levelFromString (s : String) : Option AlarmLevel :=
  if s == "Info" || s == "info" then some .info
  else if s == "Warning" || s == "warning" then some .warning
  else if s == "Critical" || s == "critical" then some .critical
  else none

/-- Zero stands for a name that is not found. -/
def resolvePointId (pt : PointTable K) (name : String) : UInt32 :=
  match pt.allPoints.find? (·.pointName == name) with
  | some pr => pr.pointId
  | none => 0

section Source
variable [IntCast K] (num : NumberReading K) (pt : PointTable K)

def readEntry (j : Json K) : Except String (RuleEntry K) := do
  let name ← j.value "pointName" "" Json.getString
  if name == "" then return .issue "empty pointName; "
  let pointId := resolvePointId pt name
  if pointId == 0 then return .issue ("point '" ++ name ++ "' not found in point table; ")
  let lvl ← j.value "level" "Warning" Json.getString
  match levelFromString lvl with
  | none => return .issue ("bad level '" ++ lvl ++ "' for " ++ name ++ "; ")
  | some level => do
      let onThreshold ← j.value "onThreshold" 0 Json.getNumber
      let offThreshold ← j.value "offThreshold" 0 Json.getNumber
      let dir ← j.value "direction" "high" Json.getString
      let enabled ← j.value "enabled" true JsonValue.getBool
      let onDelayMs ← j.value "onDelayMs" 3000 (JsonValue.getUInt32 num)
      let offDelayMs ← j.value "offDelayMs" 3000 (JsonValue.getUInt32 num)
      let suppressWindowMs ← j.value "suppressWindowMs" 60000 (JsonValue.getUInt32 num)
      return .rule { pointId, level, direction := if dir == "low" then .low else .high,
                     onThreshold := num.toFloat onThreshold, offThreshold := num.toFloat offThreshold, enabled,
                     onDelayMs, offDelayMs, suppressWindowMs }

def readEntries (loaded : LoadedRules K) : List (Json K) → Except String (LoadedRules K)
  | [] => .ok loaded
  | j :: rest => do
      match ← readEntry num pt j with
      | .rule r => readEntries { loaded with out := loaded.out ++ [r], okCount := loaded.okCount + 1 } rest
      | .issue text => readEntries { loaded with err := loaded.err ++ text } rest

/-- The rules go behind those that are in `out`; an exception is one of a value's type. -/
def loadFromFile (out : List (AlarmRule K)) : RulesFile K → Except String (LoadedRules K)
  | .empty path => .ok { okCount := -1, out, err := "open failed: " ++ path }
  | .malformed path => .ok { okCount := -1, out, err := "missing rules[]: " ++ path }
  | .document path root =>
      match root.member "rules" with
      | some (.array entries) => readEntries num pt { okCount := 0, out, err := "" } entries
      | _ => .ok { okCount := -1, out, err := "missing rules[]: " ++ path }

end Source

/-- The entries of a file. -/
def entriesOf : RulesFile K → List (Json K)
  | .document _ root =>
      match root.member "rules" with
      | some (.array entries) => entries
      | _ => []
  | _ => []

section Entries
variable [IntCast K] {num : NumberReading K} {pt : PointTable K} {r s : AlarmRule K} {loaded after : LoadedRules K}
  {entries : List (Json K)} {file : RulesFile K}

/-- The entry is one that is loaded, as this rule. -/
def Reads (num : NumberReading K) (pt : PointTable K) (j : Json K) (r : AlarmRule K) : Prop :=
  readEntry num pt j = .ok (.rule r)

/-- Entries that are loaded, enabled and name one point set the same. -/
def Unambiguous (num : NumberReading K) (pt : PointTable K) (file : RulesFile K) : Prop :=
  ∀ j ∈ entriesOf file, ∀ k ∈ entriesOf file, ∀ r s, Reads num pt j r → Reads num pt k s →
    r.enabled = true → s.enabled = true → r.pointId = s.pointId → r = s

theorem readEntries_cons {j : Json K} (done : readEntries num pt loaded (j :: entries) = .ok after) :
    (∃ r, Reads num pt j r ∧
        readEntries num pt { loaded with out := loaded.out ++ [r], okCount := loaded.okCount + 1 } entries =
          .ok after) ∨
      ∃ text, readEntry num pt j = .ok (.issue text) ∧
        readEntries num pt { loaded with err := loaded.err ++ text } entries = .ok after := by
  rw [readEntries, Json.bind_eq_ok] at done
  obtain ⟨entry, read, rest⟩ := done
  cases entry with
  | rule r => exact Or.inl ⟨r, read, rest⟩
  | issue text => exact Or.inr ⟨text, read, rest⟩

/-- The rules that come out are those of the entries that are loaded. -/
theorem mem_readEntries (done : readEntries num pt loaded entries = .ok after) :
    r ∈ after.out ↔ r ∈ loaded.out ∨ ∃ j ∈ entries, Reads num pt j r := by
  induction entries generalizing loaded with
  | nil =>
    rw [readEntries, Except.ok.injEq] at done
    rw [done]
    simp
  | cons j entries ih =>
    rw [List.exists_mem_cons_iff]
    rcases readEntries_cons done with ⟨s, read, rest⟩ | ⟨text, read, rest⟩
    · have only : Reads num pt j r ↔ r = s := by
        rw [Reads, read]
        simp [eq_comm]
      rw [ih rest, List.mem_append, List.mem_singleton, only, or_assoc]
    · have none : ¬Reads num pt j r := by
        rw [Reads, read]
        simp
      rw [ih rest, or_iff_right none]

/-- The rules are counted. -/
theorem okCount_readEntries (done : readEntries num pt loaded entries = .ok after) :
    after.okCount - loaded.okCount = after.out.length - loaded.out.length := by
  induction entries generalizing loaded with
  | nil =>
    rw [readEntries, Except.ok.injEq] at done
    rw [done, sub_self, sub_self]
  | cons j entries ih =>
    rcases readEntries_cons done with ⟨s, read, rest⟩ | ⟨text, read, rest⟩
    · have counted := ih rest
      simp only [List.length_append, List.length_singleton] at counted
      omega
    · have counted := ih rest
      exact counted

/-- Of a file that is accepted the rules that come out are those of its entries, and are counted. -/
theorem loadFromFile_rules (done : loadFromFile num pt [] file = .ok loaded) (accepted : 0 ≤ loaded.okCount) :
    loaded.okCount = loaded.out.length ∧ ∀ r, r ∈ loaded.out ↔ ∃ j ∈ entriesOf file, Reads num pt j r := by
  have rejected : ∀ err, ({ okCount := -1, out := [], err } : LoadedRules K) ≠ loaded := by
    intro err same
    rw [← same] at accepted
    exact absurd accepted (Int.negSucc_not_nonneg 0).mp
  cases file with
  | empty path => exact absurd (Except.ok.inj done) (rejected _)
  | malformed path => exact absurd (Except.ok.inj done) (rejected _)
  | document path root =>
    rw [loadFromFile] at done
    simp only [entriesOf]
    split at done
    · have counted := okCount_readEntries done
      constructor
      · rwa [List.length_nil, sub_zero, Int.ofNat_zero, sub_zero] at counted
      · intro r
        rw [mem_readEntries done]
        exact or_iff_right List.not_mem_nil
    · exact absurd (Except.ok.inj done) (rejected _)

end Entries

end AlarmRuleLoader

namespace AlarmEngine
variable {K : Type*} [Zero K] {e : AlarmEngine K} {rules : List (AlarmRule K)} {r : AlarmRule K} {p : UInt32}

/-- The samples of its point are evaluated by this rule. -/
def InForce (e : AlarmEngine K) (r : AlarmRule K) : Prop := e.rules r.pointId = some r

theorem mem_of_newRules (found : newRules rules p = some r) : r ∈ rules ∧ r.enabled = true ∧ r.pointId = p := by
  induction rules using List.reverseRecOn with
  | nil => exact absurd found (Option.some_ne_none r).symm
  | append_singleton rules s ih =>
    rw [newRules_concat] at found
    split at found
    · rename_i own
      rw [← Option.some.inj found]
      exact ⟨List.mem_append_right _ List.mem_cons_self, own.1, own.2.symm⟩
    · obtain ⟨member, enabled, named⟩ := ih found
      exact ⟨List.mem_append_left _ member, enabled, named⟩

/-- Every enabled rule is the one of its point if no two of them differ on a point. -/
theorem newRules_all_iff (rules : List (AlarmRule K)) :
    (∀ r ∈ rules, r.enabled = true → newRules rules r.pointId = some r) ↔
      ∀ r ∈ rules, ∀ s ∈ rules, r.enabled = true → s.enabled = true → r.pointId = s.pointId → r = s := by
  constructor
  · intro all r first s second enabled enabled' named
    have own := all r first enabled
    rw [named, all s second enabled'] at own
    exact (Option.some.inj own).symm
  · intro apart r member enabled
    cases found : newRules rules r.pointId with
    | none => exact absurd ⟨r, member, enabled, rfl⟩ ((newRules_eq_none_iff r.pointId).mp found)
    | some s =>
      obtain ⟨among, enabled', named⟩ := mem_of_newRules found
      rw [apart s among r member enabled' enabled named]

variable [LT K] [DecidableLT K] [BEq K] [ToString K]

/-- Only a reload changes the rules. -/
theorem rules_step (input : AlarmInput K) (keeps : ∀ rules, input ≠ .reloadRules rules) :
    (step e input).1.rules = e.rules := by
  cases input with
  | dataUpdated pid value nowMono nowEpoch =>
    cases evaluated (e := e) pid value nowMono nowEpoch with
    | ignored unwatched same silent => exact congrArg AlarmEngine.rules same
    | waitsOn r watches on moves early quiet => exact moves.rules
    | swallows r due window moves quiet => exact moves.rules
    | raises r due window moves seq queue published => exact moves.rules
    | waitsOff r watches on off early moves quiet => exact moves.rules
    | calms r watches on off elapsed idle moves quiet => exact moves.rules
    | recovers r watches on off elapsed alarming moves seq queue told => exact moves.rules
    | between r watches on off moves quiet => exact moves.rules
  | reloadRules rules => exact absurd rfl (keeps rules)
  | suppressPoint pid expires now => rfl
  | unsuppressPoint pid => rfl
  | setStormConfig cfg => rfl
  | acknowledgeAlarm id user => exact (acknowledgeAlarm_frame id user).2.2.2
  | acknowledgeAlarms ids user => exact (acknowledgeAlarms_frame ids user).2.2.2
  | stormFlush nowMono =>
    rcases onStormFlush_cases (e := e) nowMono with ⟨-, idle⟩ | ⟨-, active, rest, -, flushed⟩
    · rw [step, idle]
    · rw [step, flushed]

theorem rules_run (inputs : List (AlarmInput K)) (keeps : ∀ input ∈ inputs, ∀ rules, input ≠ .reloadRules rules) :
    (Runs.run step e inputs).rules = e.rules := by
  induction inputs generalizing e with
  | nil => rfl
  | cons input inputs ih =>
    rw [List.forall_mem_cons] at keeps
    rw [Runs.run, ih keeps.2, rules_step input keeps.1]

end AlarmEngine

section InForce
variable [IntCast K] [LT K] [DecidableLT K] [BEq K] [ToString K] {num : NumberReading K} {pt : PointTable K}
  {file : RulesFile K} {loaded : LoadedRules K}

end InForce

/-- A table with one point. -/
def cellTable : PointTable Int :=
  { byPointId := (∅ : AList fun _ : UInt32 => LoadedPoint Int).insert 7
      { pointId := 7, scaleFactor := 1, offset := 0, pointName := "Cell-01" } }

def exactNumbers : NumberReading Int := ⟨id, id, id⟩

/-- An entry for that point. -/
def cellEntry (direction : String) (on off : Int) : Json Int :=
  .object [("pointName", .string "Cell-01"), ("direction", .string direction), ("onThreshold", .integer on),
    ("offThreshold", .integer off)]

def cellRule (direction : AlarmDirection) (on off : Int) : AlarmRule Int :=
  { pointId := 7, direction, onThreshold := on, offThreshold := off }

def cellRules (entries : List (Json Int)) : RulesFile Int :=
  .document "alarm_rules.json" (.object [("rules", .array entries)])

end EnerSentry.Business
