import EnerSentry.Lib.Runs
import EnerSentry.Protocol.PollScheduler

/-!
The circuit breaker over whole runs. A record of the calls counts the failed responses of a slave since its last
success or registration; the count grades the slave, and the grade fixes the interval at which it is polled. The
third failure of a count is reported, and the eighth, and no other.
-/

namespace EnerSentry.Protocol
open EnerSentry.Lib

/-- What the calls say of a registered slave: the interval it was registered with, its failed responses since its
last success or registration, and its last probe, which is its registration, a failure from the eighth on or the
beginning of probing. -/
structure SlaveRecord where
  interval : Int
  failures : Nat := 0
  probed : Int
  deriving DecidableEq, Repr

def SlaveRecord.failed (r : SlaveRecord) (now : Int) : SlaveRecord :=
  { r with failures := r.failures + 1, probed := if 8 ≤ r.failures + 1 then now else r.probed }

/-- The grade of a slave agrees with its record. -/
structure SlavePollState.Graded (s : SlavePollState) (r : SlaveRecord) : Prop where
  counted : s.consecutiveFailures = r.failures
  original : s.originalIntervalMs = r.interval
  probed : s.lastProbeTimeMs = r.probed
  tripled : wrap32 (r.interval * 3) = r.interval * 3
  healthy : s.health = .healthy → r.failures < 3 ∧ s.currentIntervalMs = r.interval
  degraded : s.health = .degraded → 3 ≤ r.failures ∧ r.failures ≤ 7 ∧ s.currentIntervalMs = r.interval * 3
  tripped : s.health = .isolated ∨ s.health = .probing → 8 ≤ r.failures ∧ s.currentIntervalMs = 30000

namespace SlavePollState
variable (s : SlavePollState) (now : Int)

theorem consecutiveFailures_succeeded : (s.succeeded now).consecutiveFailures = 0 := by
  simp only [succeeded]
  split <;> rfl

@[simp] theorem health_succeeded : (s.succeeded now).health = .healthy := by
  simp only [succeeded]
  split
  · assumption
  · rfl

theorem consecutiveFailures_failed : (s.failed now).consecutiveFailures = wrap32 (s.consecutiveFailures + 1) := by
  simp only [failed]
  split
  · split <;> rfl
  · split <;> rfl

/-- A failure from the eighth on isolates a slave, and every failure leaves it isolated. -/
theorem isolated_failed (many : 8 ≤ wrap32 (s.consecutiveFailures + 1) ∨ s.health = .isolated) :
    (s.failed now).health = .isolated := by
  simp only [failed]
  rcases many with many | isolated
  · rw [if_neg (by omega), if_pos many]
  · simp only [isolated]
    split
    · rfl
    · split <;> rfl

/-- A failure does not make a slave probe. -/
theorem probing_of_failed {now : Int} (probing : (s.failed now).health = .probing) : s.health = .probing := by
  simp only [failed] at probing
  grind

variable {s} {r : SlaveRecord} (graded : s.Graded r)
include graded

theorem Graded.succeeded : (s.succeeded now).Graded { r with failures := 0 } := by
  have original : (s.succeeded now).originalIntervalMs = s.originalIntervalMs := by
    simp only [SlavePollState.succeeded]
    split <;> rfl
  have probed : (s.succeeded now).lastProbeTimeMs = s.lastProbeTimeMs := by
    simp only [SlavePollState.succeeded]
    split <;> rfl
  have interval : (s.succeeded now).currentIntervalMs = r.interval := by
    simp only [SlavePollState.succeeded]
    split
    · exact (graded.healthy ‹_›).2
    · exact graded.original
  exact {
    counted := consecutiveFailures_succeeded s now
    original := original.trans graded.original
    probed := probed.trans graded.probed
    tripled := graded.tripled
    healthy := fun _ => ⟨Nat.zero_lt_succ 2, interval⟩
    degraded := by simp
    tripped := by simp }

/-- A failure is only counted, or it is the third one or one from the eighth on. -/
theorem Graded.failed_cases (few : r.failures + 1 < 2 ^ 31) :
    (s.failed now = { s with consecutiveSuccesses := 0, consecutiveFailures := r.failures + 1 } ∧
      (s.health = .healthy ∧ r.failures < 2 ∨ s.health = .degraded ∧ r.failures < 7)) ∨
    (s.health = .healthy ∧ r.failures = 2 ∧
      s.failed now = { s with
        consecutiveSuccesses := 0
        consecutiveFailures := r.failures + 1
        health := .degraded
        currentIntervalMs := r.interval * 3 }) ∨
    (7 ≤ r.failures ∧ s.health ≠ .healthy ∧ (s.health = .degraded → r.failures = 7) ∧
      s.failed now = { s with
        consecutiveSuccesses := 0
        consecutiveFailures := r.failures + 1
        health := .isolated
        currentIntervalMs := 30000
        lastProbeTimeMs := now }) := by
  have count : wrap32 (s.consecutiveFailures + 1) = r.failures + 1 := by
    rw [graded.counted]
    exact wrap32_of_fits (by omega) (by omega)
  simp only [SlavePollState.failed, count, graded.original, graded.tripled]
  cases health : s.health with
  | healthy =>
    have early := (graded.healthy health).1
    by_cases third : r.failures = 2
    · right
      left
      rw [if_pos (by omega), if_pos rfl]
      exact ⟨rfl, third, rfl⟩
    · left
      rw [if_neg (by omega), if_neg (by omega)]
      exact ⟨rfl, Or.inl ⟨rfl, by omega⟩⟩
  | degraded =>
    obtain ⟨low, high, -⟩ := graded.degraded health
    by_cases eighth : r.failures = 7
    · right
      right
      rw [if_neg (by omega), if_pos (by omega)]
      exact ⟨by omega, by simp, fun _ => eighth, rfl⟩
    · left
      rw [if_pos (by omega), if_neg (by simp)]
      exact ⟨rfl, Or.inr ⟨rfl, by omega⟩⟩
  | isolated =>
    have many := (graded.tripped (Or.inl health)).1
    right
    right
    rw [if_neg (by omega), if_pos (by omega)]
    exact ⟨by omega, by simp, by simp, rfl⟩
  | probing =>
    have many := (graded.tripped (Or.inr health)).1
    right
    right
    rw [if_neg (by omega), if_pos (by omega)]
    exact ⟨by omega, by simp, by simp, rfl⟩

theorem Graded.failed (few : r.failures + 1 < 2 ^ 31) : (s.failed now).Graded (r.failed now) := by
  rcases graded.failed_cases now few with
    ⟨after, ⟨was, early⟩ | ⟨was, early⟩⟩ | ⟨was, third, after⟩ | ⟨many, -, -, after⟩
  · have kept := graded.healthy was
    have probed : (r.failed now).probed = r.probed := if_neg (by omega)
    rw [after]
    exact ⟨rfl, graded.original, graded.probed.trans probed.symm, graded.tripled,
      fun _ => ⟨Nat.succ_lt_succ early, kept.2⟩, by simp [was], by simp [was]⟩
  · obtain ⟨low, -, interval⟩ := graded.degraded was
    have probed : (r.failed now).probed = r.probed := if_neg (by omega)
    rw [after]
    exact ⟨rfl, graded.original, graded.probed.trans probed.symm, graded.tripled, by simp [was],
      fun _ => ⟨Nat.le_succ_of_le low, Nat.succ_le_of_lt early, interval⟩, by simp [was]⟩
  · have probed : (r.failed now).probed = r.probed := if_neg (by omega)
    have count : (r.failed now).failures = 3 := congrArg (· + 1) third
    rw [after]
    exact ⟨rfl, graded.original, graded.probed.trans probed.symm, graded.tripled, by simp,
      fun _ => ⟨count.ge, by omega, rfl⟩, by simp⟩
  · have probed : (r.failed now).probed = now := if_pos (by omega)
    rw [after]
    exact ⟨rfl, graded.original, probed.symm, graded.tripled, by simp, by simp,
      fun _ => ⟨Nat.succ_le_succ many, rfl⟩⟩

theorem Graded.probing (isolated : s.health = .isolated) :
    ({ s with health := .probing, lastProbeTimeMs := now } : SlavePollState).Graded { r with probed := now } := by
  have tripped := graded.tripped (Or.inl isolated)
  exact ⟨graded.counted, graded.original, rfl, graded.tripled, by simp, by simp, fun _ => tripped⟩

end SlavePollState

def SchedulerSignal.slaveId : SchedulerSignal → UInt8
  | .slaveDegraded slaveId _ => slaveId
  | .slaveIsolated slaveId _ => slaveId
  | .slaveRecovered slaveId => slaveId
  | .slaveProbing slaveId => slaveId

/-- A report that the breaker of a slave has gone one grade down. -/
def SchedulerSignal.isTrip : SchedulerSignal → Bool
  | .slaveDegraded _ _ | .slaveIsolated _ _ => true
  | _ => false

def tripsOf (slave : UInt8) (signals : List SchedulerSignal) : List SchedulerSignal :=
  signals.filter fun signal => signal.slaveId = slave && signal.isTrip

@[simp] theorem tripsOf_nil (slave : UInt8) : tripsOf slave [] = [] := rfl

@[simp] theorem tripsOf_append (slave : UInt8) (signals later : List SchedulerSignal) :
    tripsOf slave (signals ++ later) = tripsOf slave signals ++ tripsOf slave later :=
  List.filter_append ..

theorem tripsOf_other {slave slaveId : UInt8} {signals : List SchedulerSignal} (other : slaveId ≠ slave)
    (from_one : ∀ signal ∈ signals, signal.slaveId = slaveId) : tripsOf slave signals = [] := by
  apply List.filter_eq_nil_iff.mpr
  intro signal sent
  simp [from_one signal sent, other]

/-- The report of the failure that is number `n` of its slave. -/
def tripAt (slave : UInt8) (n : Nat) : List SchedulerSignal :=
  if n = 3 then [.slaveDegraded slave 3] else if n = 8 then [.slaveIsolated slave 8] else []

/-- The reports of the failures up to number `n`. -/
def tripsUpTo (slave : UInt8) (n : Nat) : List SchedulerSignal :=
  if n < 3 then [] else if n < 8 then [.slaveDegraded slave 3] else [.slaveDegraded slave 3, .slaveIsolated slave 8]

theorem tripsUpTo_succ (slave : UInt8) (n : Nat) :
    tripsUpTo slave (n + 1) = tripsUpTo slave n ++ tripAt slave (n + 1) := by
  unfold tripsUpTo tripAt
  rcases Nat.lt_trichotomy n 7 with early | rfl | late
  · rcases Nat.lt_trichotomy n 2 with low | rfl | high
    · rw [if_pos (by omega), if_pos (by omega), if_neg (by omega), if_neg (by omega), List.nil_append]
    · rfl
    · rw [if_neg (by omega), if_pos (by omega), if_neg (by omega), if_pos (by omega), if_neg (by omega),
        if_neg (by omega), List.append_nil]
  · rfl
  · rw [if_neg (by omega), if_neg (by omega), if_neg (by omega), if_neg (by omega), if_neg (by omega),
      if_neg (by omega), List.append_nil]

/-- There are two reports at most, in this order. -/
theorem tripsUpTo_prefix (slave : UInt8) (n : Nat) :
    tripsUpTo slave n <+: [.slaveDegraded slave 3, .slaveIsolated slave 8] := by
  unfold tripsUpTo
  split
  · exact List.nil_prefix
  · split
    · exact List.prefix_append _ _
    · exact List.prefix_rfl

namespace SlavePollState
variable (s : SlavePollState) (slave : UInt8) (now : Int)

/-- What the scheduler reports when a poll of the slave fails. -/
def failureSignals : List SchedulerSignal :=
  if s.health = .healthy ∧ (s.failed now).health = .degraded then
    [.slaveDegraded slave (s.failed now).consecutiveFailures]
  else if s.health ≠ .isolated ∧ s.health ≠ .probing ∧ (s.failed now).health = .isolated then
    [.slaveIsolated slave (s.failed now).consecutiveFailures]
  else []

theorem tripsOf_failureSignals : tripsOf slave (s.failureSignals slave now) = s.failureSignals slave now := by
  apply List.filter_eq_self.mpr
  intro signal sent
  simp only [failureSignals] at sent
  grind [SchedulerSignal.slaveId, SchedulerSignal.isTrip]

/-- The third failure is reported, and the eighth, and no other. -/
theorem Graded.failureSignals_eq {s : SlavePollState} {r : SlaveRecord} (graded : s.Graded r)
    (few : r.failures + 1 < 2 ^ 31) : s.failureSignals slave now = tripAt slave (r.failures + 1) := by
  unfold failureSignals tripAt
  rcases graded.failed_cases now few with
    ⟨after, ⟨was, early⟩ | ⟨was, early⟩⟩ | ⟨was, third, after⟩ | ⟨many, notHealthy, eighth, after⟩
  · simp only [after, was]
    rw [if_neg (by simp), if_neg (by simp), if_neg (by omega), if_neg (by omega)]
  · have low := (graded.degraded was).1
    simp only [after, was]
    rw [if_neg (by simp), if_neg (by simp), if_neg (by omega), if_neg (by omega)]
  · simp only [after, was, third]
    rfl
  · simp only [after]
    cases was : s.health with
    | healthy => exact absurd was notHealthy
    | degraded =>
      rw [eighth was]
      rfl
    | isolated =>
      have later := (graded.tripped (Or.inl was)).1
      rw [if_neg (by simp), if_neg (by simp), if_neg (by omega), if_neg (by omega)]
    | probing =>
      have later := (graded.tripped (Or.inr was)).1
      rw [if_neg (by simp), if_neg (by simp), if_neg (by omega), if_neg (by omega)]

end SlavePollState

namespace PollScheduler
variable {s : PollScheduler}

theorem slaveStates_onResponseReceived (slave : UInt8) (ok : Bool) (now : Int) :
    (s.onResponseReceived slave ok now).1.slaveStates = Function.update s.slaveStates slave
      ((s.slaveStates slave).map fun before => if ok then before.succeeded now else before.failed now) := by
  simp only [onResponseReceived]
  cases known : s.slaveStates slave with
  | none =>
    rw [Option.map_none, ← known, Function.update_eq_self]
    split <;> simp_all
  | some before => cases ok <;> rfl

theorem slaveId_onResponseReceived {slave : UInt8} {ok : Bool} {now : Int} :
    ∀ signal ∈ (s.onResponseReceived slave ok now).2, signal.slaveId = slave := by
  intro signal sent
  simp only [onResponseReceived] at sent
  cases known : s.slaveStates slave with
  | none => simp [known] at sent
  | some before =>
    cases ok with
    | true => grind [SchedulerSignal.slaveId]
    | false => grind [SchedulerSignal.slaveId]

theorem signals_failure {slave : UInt8} {now : Int} {before : SlavePollState}
    (known : s.slaveStates slave = some before) :
    (s.onResponseReceived slave false now).2 = before.failureSignals slave now := by
  simp only [onResponseReceived, known]
  rfl

theorem tripsOf_success {slave : UInt8} {now : Int} {before : SlavePollState}
    (known : s.slaveStates slave = some before) :
    tripsOf slave (s.onResponseReceived slave true now).2 = [] := by
  simp only [onResponseReceived, known, if_true]
  split
  · rfl
  · exact List.filter_eq_nil_iff.mpr (by simp [SchedulerSignal.isTrip])

/-- No response makes a slave probe. -/
theorem probing_of_response {slave slaveId : UInt8} {ok : Bool} {now : Int}
    (probing : (s.onResponseReceived slaveId ok now).1.healthOf slave = .probing) : s.healthOf slave = .probing := by
  rw [healthOf, slaveStates_onResponseReceived] at probing
  rw [healthOf]
  by_cases own : slave = slaveId
  · subst own
    rw [Function.update_self] at probing
    cases known : s.slaveStates slave with
    | none => simp [known] at probing
    | some before =>
      cases ok with
      | true => simp [known] at probing
      | false => exact before.probing_of_failed (by simpa [known] using probing)
  · rwa [Function.update_of_ne own] at probing

/-- A slave that is isolated and due begins to probe; nothing else happens. -/
theorem enterProbingIfDue_cases (s : PollScheduler) (slave : UInt8) (now : Int) :
    s.enterProbingIfDue slave now = (s, []) ∨
      ∃ before, s.slaveStates slave = some before ∧ before.health = .isolated ∧
        30000 ≤ wrap64 (now - before.lastProbeTimeMs) ∧
        (s.enterProbingIfDue slave now).1.slaveStates = Function.update s.slaveStates slave
          (some { before with health := .probing, lastProbeTimeMs := now }) ∧
        (s.enterProbingIfDue slave now).2 = [.slaveProbing slave] := by
  unfold enterProbingIfDue
  cases known : s.slaveStates slave with
  | none => exact Or.inl rfl
  | some before =>
    by_cases due : before.health = .isolated ∧ 30000 ≤ wrap64 (now - before.lastProbeTimeMs)
    · right
      simp only [if_pos due]
      exact ⟨before, rfl, due.1, due.2, rfl, trivial⟩
    · exact Or.inl (if_neg due)

end PollScheduler

/-- The calls that move the breakers, and the passing of time. -/
inductive BreakerCall where
  | registerSlave (slaveId linkId : UInt8) (originalIntervalMs : Int)
  | unregisterSlave (slaveId : UInt8)
  | onResponseReceived (slaveId : UInt8) (success : Bool)
  | enterProbingIfDue (slaveId : UInt8)
  | advanceClock (ms : Int)
  deriving DecidableEq, Repr

/-- A success of the slave, or its registration. -/
def BreakerCall.resets (slave : UInt8) : BreakerCall → Prop
  | .registerSlave slaveId _ _ => slaveId = slave
  | .onResponseReceived slaveId success => slaveId = slave ∧ success = true
  | _ => False

/-- The scheduler with the time of its clock. -/
structure ClockedScheduler where
  scheduler : PollScheduler := {}
  nowMs : Int := 0

/-- The record of a slave after a call and what the scheduler reported on it. -/
def recorded (slave : UInt8) (now : Int) (signals : List SchedulerSignal) (r : Option SlaveRecord) :
    BreakerCall → Option SlaveRecord
  | .registerSlave slaveId _ interval => if slaveId = slave then some { interval := interval, probed := now } else r
  | .unregisterSlave slaveId => if slaveId = slave then none else r
  | .onResponseReceived slaveId success =>
      if slaveId = slave then r.map fun r => if success then { r with failures := 0 } else r.failed now else r
  | .enterProbingIfDue _ => if .slaveProbing slave ∈ signals then r.map fun r => { r with probed := now } else r
  | .advanceClock _ => r

/-- The reports due to a slave at a call: at its third failed response and at its eighth. -/
def tripsDue (slave : UInt8) (r : Option SlaveRecord) : BreakerCall → List SchedulerSignal
  | .onResponseReceived slaveId false =>
      if slaveId = slave then r.elim [] fun r => tripAt slave (r.failures + 1) else []
  | _ => []

namespace ClockedScheduler

def step : Runs.Step ClockedScheduler BreakerCall SchedulerSignal := fun w call =>
  match call with
  | .registerSlave slaveId linkId originalIntervalMs =>
      ({ w with scheduler := w.scheduler.registerSlave slaveId linkId originalIntervalMs w.nowMs }, [])
  | .unregisterSlave slaveId => ({ w with scheduler := w.scheduler.unregisterSlave slaveId }, [])
  | .onResponseReceived slaveId success =>
      let (scheduler, signals) := w.scheduler.onResponseReceived slaveId success w.nowMs
      ({ w with scheduler := scheduler }, signals)
  | .enterProbingIfDue slaveId =>
      let (scheduler, signals) := w.scheduler.enterProbingIfDue slaveId w.nowMs
      ({ w with scheduler := scheduler }, signals)
  | .advanceClock ms => ({ w with nowMs := wrap64 (w.nowMs + ms) }, [])

/-- The scheduler beside the records of its slaves. -/
def observed : Runs.Step (ClockedScheduler × (UInt8 → Option SlaveRecord)) BreakerCall SchedulerSignal :=
  Runs.watch step fun w records call signals slave => recorded slave w.nowMs signals (records slave) call

/-- No number of a call leaves its type: three times a registered interval and the count of the failures are
numbers of 32 bits, the time since the last probe is one of 64. -/
def Fits (t : ClockedScheduler × (UInt8 → Option SlaveRecord)) : BreakerCall → Prop
  | .registerSlave _ _ interval => -2 ^ 31 ≤ interval * 3 ∧ interval * 3 < 2 ^ 31
  | .onResponseReceived slave false => ∀ r ∈ t.2 slave, r.failures + 1 < 2 ^ 31
  | .enterProbingIfDue slave => ∀ r ∈ t.2 slave, -2 ^ 63 ≤ t.1.nowMs - r.probed ∧ t.1.nowMs - r.probed < 2 ^ 63
  | _ => True

instance (t : ClockedScheduler × (UInt8 → Option SlaveRecord)) : DecidablePred (Fits t)
  | .registerSlave _ _ _ => inferInstanceAs (Decidable (_ ∧ _))
  | .onResponseReceived slave false => inferInstanceAs (Decidable (∀ r ∈ t.2 slave, _))
  | .enterProbingIfDue slave => inferInstanceAs (Decidable (∀ r ∈ t.2 slave, _))
  | .unregisterSlave _ | .onResponseReceived _ true | .advanceClock _ => inferInstanceAs (Decidable True)

/-- The slaves that are registered are those with a record, and they are graded by it. -/
def AllGraded (t : ClockedScheduler × (UInt8 → Option SlaveRecord)) : Prop :=
  ∀ slave, Option.Rel (fun r s => SlavePollState.Graded s r) (t.2 slave) (t.1.scheduler.slaveStates slave)

variable {t : ClockedScheduler × (UInt8 → Option SlaveRecord)} {slave : UInt8}

theorem AllGraded.known (graded : AllGraded t) {r : SlaveRecord} (recorded : t.2 slave = some r) :
    ∃ s, t.1.scheduler.slaveStates slave = some s ∧ s.Graded r := by
  have both := graded slave
  rw [recorded] at both
  generalize t.1.scheduler.slaveStates slave = state at both
  cases both with
  | some grade => exact ⟨_, rfl, grade⟩

theorem AllGraded.recorded (graded : AllGraded t) {s : SlavePollState}
    (known : t.1.scheduler.slaveStates slave = some s) : ∃ r, t.2 slave = some r ∧ s.Graded r := by
  have both := graded slave
  rw [known] at both
  generalize t.2 slave = record at both
  cases both with
  | some grade => exact ⟨_, rfl, grade⟩

/-- A call that concerns one slave leaves all graded if it leaves that one graded. -/
theorem AllGraded.only (graded : AllGraded t) {t' : ClockedScheduler × (UInt8 → Option SlaveRecord)} (slaveId : UInt8)
    (own : Option.Rel (fun r s => SlavePollState.Graded s r) (t'.2 slaveId) (t'.1.scheduler.slaveStates slaveId))
    (records : ∀ slave ≠ slaveId, t'.2 slave = t.2 slave)
    (states : ∀ slave ≠ slaveId, t'.1.scheduler.slaveStates slave = t.1.scheduler.slaveStates slave) :
    AllGraded t' := by
  intro slave
  by_cases same : slave = slaveId
  · rw [same]
    exact own
  · rw [records slave same, states slave same]
    exact graded slave

theorem AllGraded.response (graded : AllGraded t) (slaveId : UInt8) (success : Bool)
    (fits : Fits t (.onResponseReceived slaveId success)) :
    AllGraded (observed t (.onResponseReceived slaveId success)).1 := by
  have states := PollScheduler.slaveStates_onResponseReceived (s := t.1.scheduler) slaveId success t.1.nowMs
  apply graded.only slaveId
  · have before := graded slaveId
    change Option.Rel _ (if slaveId = slaveId then _ else _) ((t.1.scheduler.onResponseReceived slaveId success
      t.1.nowMs).1.slaveStates slaveId)
    rw [states, if_pos rfl, Function.update_self]
    cases record : t.2 slaveId with
    | none =>
      rw [record] at before
      generalize t.1.scheduler.slaveStates slaveId = state at before
      cases before
      exact .none
    | some r =>
      obtain ⟨s, known, grade⟩ := graded.known record
      rw [known]
      cases success with
      | true => exact .some (grade.succeeded _)
      | false => exact .some (grade.failed _ (fits r record))
  · intro slave other
    exact if_neg (Ne.symm other)
  · intro slave other
    exact (congrFun states slave).trans (Function.update_of_ne other _ _)

theorem AllGraded.probing (graded : AllGraded t) (slaveId : UInt8) :
    AllGraded (observed t (.enterProbingIfDue slaveId)).1 := by
  intro slave
  have before := graded slave
  change Option.Rel _ (if .slaveProbing slave ∈ (t.1.scheduler.enterProbingIfDue slaveId t.1.nowMs).2 then _ else
    t.2 slave) ((t.1.scheduler.enterProbingIfDue slaveId t.1.nowMs).1.slaveStates slave)
  rcases t.1.scheduler.enterProbingIfDue_cases slaveId t.1.nowMs with quiet | ⟨s, known, isolated, -, probes, signals⟩
  · rw [quiet, if_neg List.not_mem_nil]
    exact before
  · rw [probes, signals]
    by_cases same : slaveId = slave
    · subst same
      obtain ⟨r, record, grade⟩ := graded.recorded known
      rw [if_pos (List.mem_singleton_self _), record, Function.update_self]
      exact .some (grade.probing _ isolated)
    · rw [if_neg (by simpa using Ne.symm same), Function.update_of_ne (Ne.symm same)]
      exact before

/-- A call whose numbers fit leaves all slaves graded. -/
theorem AllGraded.step (graded : AllGraded t) (call : BreakerCall) (fits : Fits t call) :
    AllGraded (observed t call).1 := by
  cases call with
  | registerSlave slaveId linkId interval =>
    apply graded.only slaveId
    · change Option.Rel _ (if slaveId = slaveId then _ else _)
        (Function.update t.1.scheduler.slaveStates slaveId _ slaveId)
      rw [if_pos rfl, Function.update_self]
      exact .some ⟨rfl, rfl, rfl, wrap32_of_fits fits.1 fits.2, fun _ => ⟨Nat.zero_lt_succ 2, rfl⟩, by simp, by simp⟩
    · intro slave other
      exact if_neg (Ne.symm other)
    · intro slave other
      exact Function.update_of_ne other _ _
  | unregisterSlave slaveId =>
    apply graded.only slaveId
    · change Option.Rel _ (if slaveId = slaveId then _ else _)
        (Function.update t.1.scheduler.slaveStates slaveId _ slaveId)
      rw [if_pos rfl, Function.update_self]
      exact .none
    · intro slave other
      exact if_neg (Ne.symm other)
    · intro slave other
      exact Function.update_of_ne other _ _
  | onResponseReceived slaveId success => exact graded.response slaveId success fits
  | enterProbingIfDue slaveId => exact graded.probing slaveId
  | advanceClock ms => exact graded

/-- A call reports the trips that are due, and no others. -/
theorem trips_step (graded : AllGraded t) (call : BreakerCall) (fits : Fits t call) (slave : UInt8) :
    tripsOf slave (observed t call).2 = tripsDue slave (t.2 slave) call := by
  cases call with
  | registerSlave | unregisterSlave | advanceClock => rfl
  | enterProbingIfDue slaveId =>
    change tripsOf slave (t.1.scheduler.enterProbingIfDue slaveId t.1.nowMs).2 = []
    rcases t.1.scheduler.enterProbingIfDue_cases slaveId t.1.nowMs with quiet | ⟨s, -, -, -, -, signals⟩
    · rw [quiet]
      rfl
    · rw [signals]
      simp [tripsOf, SchedulerSignal.isTrip]
  | onResponseReceived slaveId success =>
    change tripsOf slave (t.1.scheduler.onResponseReceived slaveId success t.1.nowMs).2 = _
    by_cases same : slaveId = slave
    · subst same
      cases known : t.1.scheduler.slaveStates slaveId with
      | none =>
        have unknown : t.2 slaveId = none := by
          by_contra some_
          obtain ⟨r, record⟩ := Option.ne_none_iff_exists'.mp some_
          obtain ⟨s, present, -⟩ := graded.known record
          rw [known] at present
          cases present
        cases success <;> simp [PollScheduler.onResponseReceived, known, unknown, tripsDue]
      | some s =>
        obtain ⟨r, record, grade⟩ := graded.recorded known
        cases success with
        | true => exact PollScheduler.tripsOf_success known
        | false =>
          rw [PollScheduler.signals_failure known, SlavePollState.tripsOf_failureSignals,
            grade.failureSignals_eq _ _ (fits r record), tripsDue, if_pos rfl, record]
          rfl
    · rw [tripsOf_other same PollScheduler.slaveId_onResponseReceived]
      cases success with
      | true => rfl
      | false => exact (if_neg same).symm

/-- A success or a registration begins a new count. -/
theorem recorded_reset {r r' : Option SlaveRecord} {call : BreakerCall} {now : Int} {signals : List SchedulerSignal}
    (resets : call.resets slave) (after : recorded slave now signals r call = r') : ∀ x ∈ r', x.failures = 0 := by
  subst after
  intro x present
  cases call with
  | registerSlave slaveId linkId interval =>
    have own : slaveId = slave := resets
    rw [Option.mem_def, recorded, if_pos own] at present
    rw [← Option.some.inj present]
  | onResponseReceived slaveId success =>
    rw [Option.mem_def, recorded, if_pos resets.1, resets.2] at present
    obtain ⟨before, -, rfl⟩ := Option.map_eq_some_iff.mp present
    rfl
  | unregisterSlave | enterProbingIfDue | advanceClock => exact absurd resets not_false

/-- Any other call leaves a slave without a record as it is. -/
theorem recorded_none {call : BreakerCall} (now : Int) (signals : List SchedulerSignal) (steady : ¬call.resets slave) :
    recorded slave now signals none call = none ∧ tripsDue slave none call = [] := by
  cases call with
  | registerSlave slaveId linkId interval => exact ⟨if_neg steady, rfl⟩
  | unregisterSlave => exact ⟨ite_self _, rfl⟩
  | onResponseReceived slaveId success => exact ⟨ite_self _, by cases success <;> simp [tripsDue]⟩
  | enterProbingIfDue => exact ⟨ite_self _, rfl⟩
  | advanceClock => exact ⟨rfl, rfl⟩

/-- On any other call a record ends, or the count goes on with the reports that are due to it. -/
theorem recorded_some {call : BreakerCall} (now : Int) (signals : List SchedulerSignal) (r : SlaveRecord)
    (steady : ¬call.resets slave) :
    (recorded slave now signals (some r) call = none ∧ tripsDue slave (some r) call = []) ∨
      ∃ r', recorded slave now signals (some r) call = some r' ∧
        tripsUpTo slave r'.failures = tripsUpTo slave r.failures ++ tripsDue slave (some r) call := by
  cases call with
  | registerSlave slaveId linkId interval =>
    exact Or.inr ⟨r, if_neg steady, (List.append_nil _).symm⟩
  | unregisterSlave slaveId =>
    by_cases same : slaveId = slave
    · exact Or.inl ⟨if_pos same, rfl⟩
    · exact Or.inr ⟨r, if_neg same, (List.append_nil _).symm⟩
  | onResponseReceived slaveId success =>
    by_cases same : slaveId = slave
    · cases success with
      | true => exact absurd ⟨same, rfl⟩ steady
      | false =>
        refine Or.inr ⟨r.failed now, if_pos same, ?_⟩
        rw [tripsDue, if_pos same]
        exact tripsUpTo_succ slave r.failures
    · refine Or.inr ⟨r, if_neg same, ?_⟩
      cases success with
      | true => exact (List.append_nil _).symm
      | false => rw [tripsDue, if_neg same, List.append_nil]
  | enterProbingIfDue slaveId =>
    rw [recorded]
    split
    · exact Or.inr ⟨_, rfl, (List.append_nil _).symm⟩
    · exact Or.inr ⟨r, rfl, (List.append_nil _).symm⟩
  | advanceClock ms => exact Or.inr ⟨r, rfl, (List.append_nil _).symm⟩

/-- As long as a slave neither succeeds nor is registered, its reports go on with its count. -/
theorem trips_run (graded : AllGraded t) (slave : UInt8) (calls : List BreakerCall)
    (fits : ∀ v ∈ Runs.visits observed t calls, Fits v.1 v.2) (steady : ∀ call ∈ calls, ¬call.resets slave) :
    ∃ n, (t.2 slave = none → n = 0) ∧ tripsUpTo slave ((t.2 slave).elim 0 (·.failures)) ++
      tripsOf slave (Runs.outputs observed t calls) = tripsUpTo slave n := by
  induction calls generalizing t with
  | nil => exact ⟨_, fun unknown => by rw [unknown, Option.elim_none], List.append_nil _⟩
  | cons call calls ih =>
    simp only [Runs.visits, List.forall_mem_cons] at fits steady
    obtain ⟨n, unknown, rest⟩ := ih (graded.step call fits.1) fits.2 steady.2
    have due := trips_step graded call fits.1 slave
    have next : (observed t call).1.2 slave =
      recorded slave t.1.nowMs (ClockedScheduler.step t.1 call).2 (t.2 slave) call := rfl
    rw [Runs.outputs, tripsOf_append, due, ← List.append_assoc]
    rw [next] at unknown rest
    cases before : t.2 slave with
    | none =>
      obtain ⟨kept, quiet⟩ := recorded_none t.1.nowMs (ClockedScheduler.step t.1 call).2 steady.1
      rw [before, kept] at unknown rest
      rw [quiet, List.append_nil]
      exact ⟨n, unknown, rest⟩
    | some r =>
      rw [before] at unknown rest
      rcases recorded_some t.1.nowMs (ClockedScheduler.step t.1 call).2 r steady.1 with
        ⟨ended, quiet⟩ | ⟨r', kept, grows⟩
      · rw [ended] at rest
        obtain rfl := unknown ended
        have silent : tripsOf slave (Runs.outputs observed (observed t call).1 calls) = [] := rest
        rw [quiet, silent, List.append_nil, List.append_nil]
        exact ⟨r.failures, by simp, rfl⟩
      · rw [kept] at rest
        rw [Option.elim_some, ← grows]
        exact ⟨n, by simp, rest⟩

/-- The reports on a slave from one success or registration to the next. -/
theorem trips_between (graded : AllGraded t) {reset : BreakerCall} {between : List BreakerCall}
    (fits : Fits t reset) (fits_between : ∀ v ∈ Runs.visits observed (observed t reset).1 between, Fits v.1 v.2)
    (resets : reset.resets slave) (steady : ∀ call ∈ between, ¬call.resets slave) :
    tripsOf slave (Runs.outputs observed (observed t reset).1 between) <+:
      [.slaveDegraded slave 3, .slaveIsolated slave 8] := by
  obtain ⟨n, -, trips⟩ := trips_run (graded.step reset fits) slave between fits_between steady
  have zero : ((observed t reset).1.2 slave).elim 0 (·.failures) = 0 := by
    cases after : (observed t reset).1.2 slave with
    | none => rfl
    | some r => exact recorded_reset resets after r rfl
  rw [zero] at trips
  change tripsOf slave (Runs.outputs observed (observed t reset).1 between) = tripsUpTo slave n at trips
  rw [trips]
  exact tripsUpTo_prefix slave n

/-- A slave begins to probe when it is isolated and thirty seconds have passed since its last probe. -/
theorem probing_due (graded : AllGraded t) {call : BreakerCall} (fits : Fits t call)
    (probing : (observed t call).1.1.scheduler.healthOf slave = .probing)
    (entered : t.1.scheduler.healthOf slave ≠ .probing) :
    ∃ r, t.2 slave = some r ∧ t.1.scheduler.healthOf slave = .isolated ∧ r.probed + 30000 ≤ t.1.nowMs := by
  have other {s : PollScheduler} (same : s.slaveStates slave = t.1.scheduler.slaveStates slave) :
      s.healthOf slave ≠ .probing := by
    rwa [PollScheduler.healthOf, same]
  cases call with
  | registerSlave slaveId linkId interval =>
    by_cases own : slaveId = slave
    · subst own
      change (t.1.scheduler.registerSlave slaveId linkId interval t.1.nowMs).healthOf slaveId = _ at probing
      simp [PollScheduler.healthOf, PollScheduler.registerSlave] at probing
    · exact absurd probing (other (Function.update_of_ne (Ne.symm own) _ _))
  | unregisterSlave slaveId =>
    by_cases own : slaveId = slave
    · subst own
      change (t.1.scheduler.unregisterSlave slaveId).healthOf slaveId = _ at probing
      simp [PollScheduler.healthOf, PollScheduler.unregisterSlave] at probing
    · exact absurd probing (other (Function.update_of_ne (Ne.symm own) _ _))
  | onResponseReceived slaveId success => exact absurd (PollScheduler.probing_of_response probing) entered
  | enterProbingIfDue slaveId =>
    change (t.1.scheduler.enterProbingIfDue slaveId t.1.nowMs).1.healthOf slave = _ at probing
    rcases t.1.scheduler.enterProbingIfDue_cases slaveId t.1.nowMs with quiet | ⟨s, known, isolated, due, states, -⟩
    · rw [quiet] at probing
      exact absurd probing entered
    · by_cases own : slaveId = slave
      · subst own
        obtain ⟨r, record, grade⟩ := graded.recorded known
        obtain ⟨low, high⟩ := fits r record
        rw [grade.probed, wrap64_of_fits low high] at due
        exact ⟨r, record, by rw [PollScheduler.healthOf, known]; exact isolated, by omega⟩
      · refine absurd probing (other ?_)
        rw [states, Function.update_of_ne (Ne.symm own)]
  | advanceClock ms => exact absurd probing entered

theorem response_success (t : ClockedScheduler × (UInt8 → Option SlaveRecord)) {slave : UInt8} {s : SlavePollState}
    (known : t.1.scheduler.slaveStates slave = some s) :
    (observed t (.onResponseReceived slave true)).1.1.scheduler.slaveStates slave = some (s.succeeded t.1.nowMs) := by
  change (t.1.scheduler.onResponseReceived slave true t.1.nowMs).1.slaveStates slave = _
  rw [PollScheduler.slaveStates_onResponseReceived, Function.update_self, known]
  rfl

/-- The breakers of a scheduler in every run whose numbers fit their types: the grades of its slaves by their failed
responses, the way back from them, the way into probing, the reports at the third failure and at the eighth, and
those between two successes or registrations of a slave. -/
theorem breaker_invariant (nowMs : Int) (calls : List BreakerCall)
    (fits : ∀ v ∈ Runs.visits observed ({ nowMs := nowMs }, fun _ => none) calls, Fits v.1 v.2) :
    (∀ t ∈ Runs.reached observed ({ nowMs := nowMs }, fun _ => none) calls, ∀ slave r, t.2 slave = some r →
      ∃ s, t.1.scheduler.slaveStates slave = some s ∧
        (s.health = .healthy → r.failures < 3 ∧ s.currentIntervalMs = r.interval) ∧
        (s.health = .degraded → 3 ≤ r.failures ∧ r.failures ≤ 7 ∧ s.currentIntervalMs = r.interval * 3) ∧
        (s.health = .isolated ∨ s.health = .probing → 8 ≤ r.failures ∧ s.currentIntervalMs = 30000)) ∧
    (∀ v ∈ Runs.visits observed ({ nowMs := nowMs }, fun _ => none) calls, ∀ slave r,
      v.2 = .onResponseReceived slave true → v.1.2 slave = some r →
        ∃ s, (observed v.1 v.2).1.1.scheduler.slaveStates slave = some s ∧ s.health = .healthy ∧
          s.consecutiveFailures = 0 ∧ s.currentIntervalMs = r.interval) ∧
    (∀ v ∈ Runs.visits observed ({ nowMs := nowMs }, fun _ => none) calls, ∀ slave,
      (observed v.1 v.2).1.1.scheduler.healthOf slave = .probing → v.1.1.scheduler.healthOf slave ≠ .probing →
        ∃ r, v.1.2 slave = some r ∧ v.1.1.scheduler.healthOf slave = .isolated ∧
          r.probed + 30000 ≤ v.1.1.nowMs) ∧
    (∀ v ∈ Runs.visits observed ({ nowMs := nowMs }, fun _ => none) calls, ∀ slave,
      tripsOf slave (observed v.1 v.2).2 = tripsDue slave (v.1.2 slave) v.2) ∧
    (∀ slave before reset between after, calls = before ++ reset :: between ++ after →
      reset.resets slave → (∀ call ∈ between, ¬call.resets slave) →
        tripsOf slave (Runs.outputs observed
          (Runs.run observed ({ nowMs := nowMs }, fun _ => none) (before ++ [reset])) between) <+:
          [.slaveDegraded slave 3, .slaveIsolated slave 8]) := by
  have graded := Runs.reached_invariant observed calls (s := ({ nowMs := nowMs }, fun _ => none)) (I := AllGraded)
    (fun _ => .none) (fun t call holds allowed => AllGraded.step holds call allowed) fits
  have visited_graded {v : (ClockedScheduler × (UInt8 → Option SlaveRecord)) × BreakerCall}
      (visited : v ∈ Runs.visits observed ({ nowMs := nowMs }, fun _ => none) calls) : AllGraded v.1 :=
    graded v.1 (Runs.visit_mem_reached visited).1
  refine ⟨fun t member slave r record => ?_, fun v visited slave r call record => ?_,
    fun v visited slave probing entered => probing_due (visited_graded visited) (fits v visited) probing entered,
    fun v visited slave => trips_step (visited_graded visited) v.2 (fits v visited) slave,
    fun slave before reset between after split resets steady => ?_⟩
  · obtain ⟨s, known, grade⟩ := (graded t member).known record
    exact ⟨s, known, grade.healthy, grade.degraded, grade.tripped⟩
  · obtain ⟨s, known, grade⟩ := (visited_graded visited).known record
    have healthy := s.health_succeeded v.1.1.nowMs
    rw [call, response_success v.1 known]
    exact ⟨_, rfl, healthy, s.consecutiveFailures_succeeded _, ((grade.succeeded _).healthy healthy).2⟩
  · have reached : Runs.run observed ({ nowMs := nowMs }, fun _ => none) before ∈
        Runs.reached observed ({ nowMs := nowMs }, fun _ => none) calls :=
      Runs.mem_reached_iff.mpr ⟨before, ⟨reset :: between ++ after, by rw [split, List.append_assoc]⟩, rfl⟩
    rw [split, List.append_assoc, Runs.visits_append, List.cons_append, Runs.visits, Runs.visits_append] at fits
    simp only [List.forall_mem_append, List.forall_mem_cons] at fits
    rw [Runs.run_concat]
    exact trips_between (graded _ reached) fits.2.1 fits.2.2.1 resets steady

/-- Nine failures, a probe that fails and one that does not. -/
def probedTwice : List BreakerCall :=
  .registerSlave 17 1 1000 :: List.replicate 9 (.onResponseReceived 17 false) ++
    [.advanceClock 30000, .enterProbingIfDue 17, .onResponseReceived 17 false, .advanceClock 30000,
      .enterProbingIfDue 17, .onResponseReceived 17 true]

example : Runs.outputs step {} probedTwice =
    [.slaveDegraded 17 3, .slaveIsolated 17 8, .slaveProbing 17, .slaveProbing 17, .slaveRecovered 17] := by decide

theorem breaker_invariant_probedTwice :
    ∃ r s, (Runs.run observed ({ nowMs := 0 }, fun _ => none) probedTwice).2 17 = some r ∧
      (Runs.run observed ({ nowMs := 0 }, fun _ => none) probedTwice).1.scheduler.slaveStates 17 = some s ∧
        (s.health = .healthy → r.failures < 3 ∧ s.currentIntervalMs = r.interval) ∧
        (s.health = .degraded → 3 ≤ r.failures ∧ r.failures ≤ 7 ∧ s.currentIntervalMs = r.interval * 3) ∧
        (s.health = .isolated ∨ s.health = .probing → 8 ≤ r.failures ∧ s.currentIntervalMs = 30000) := by
  have record : (Runs.run observed ({ nowMs := 0 }, fun _ => none) probedTwice).2 17 =
      some { interval := 1000, failures := 0, probed := 60000 } := by
    decide +kernel
  obtain ⟨s, known, grades⟩ :=
    (breaker_invariant 0 probedTwice (by decide +kernel)).1 _ Runs.run_mem_reached 17 _ record
  exact ⟨_, s, record, known, grades⟩

/-- A slave that is registered for every eleven days or so, and three failures. -/
def seldomPolled : List BreakerCall :=
  .registerSlave 17 1 1000000000 :: List.replicate 3 (.onResponseReceived 17 false)

/-- Three times its interval is no `int`. -/
theorem seldomPolled_overflows :
    ¬∀ t ∈ Runs.reached observed ({ nowMs := 0 }, fun _ => none) seldomPolled, ∀ slave r, t.2 slave = some r →
      ∃ s, t.1.scheduler.slaveStates slave = some s ∧
        (s.health = .healthy → r.failures < 3 ∧ s.currentIntervalMs = r.interval) ∧
        (s.health = .degraded → 3 ≤ r.failures ∧ r.failures ≤ 7 ∧ s.currentIntervalMs = r.interval * 3) ∧
        (s.health = .isolated ∨ s.health = .probing → 8 ≤ r.failures ∧ s.currentIntervalMs = 30000) := by
  intro always
  have state : (Runs.run observed ({ nowMs := 0 }, fun _ => none) seldomPolled).1.scheduler.slaveStates 17 =
      some { consecutiveFailures := 3, health := .degraded, originalIntervalMs := 1000000000,
             currentIntervalMs := -1294967296, linkId := 1 } := by
    decide
  have record : (Runs.run observed ({ nowMs := 0 }, fun _ => none) seldomPolled).2 17 =
      some { interval := 1000000000, failures := 3, probed := 0 } := by
    decide
  obtain ⟨s, known, -, degraded, -⟩ := always _ Runs.run_mem_reached 17 _ record
  obtain rfl := Option.some.inj (state.symm.trans known)
  exact absurd (degraded rfl).2.2 (by simp)

end ClockedScheduler
end EnerSentry.Protocol
