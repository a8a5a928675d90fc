import EnerSentry.Sim.ScenarioExpansion

/-!
Whether a `RECOVER` undoes the `INJECT` it belongs to. The handles of an injection wait
under the key of its step, first in first out. A step for all slaves takes every one of
them, any other step takes the first only. Between the steps the sessions go their own way
and an operator may inject, recover and abort.
-/

namespace EnerSentry.Sim
open EnerSentry.Lib.Runs

variable {K : Type} [Zero K]

/-- The four fields of a step by which injections and recoveries are paired. -/
structure StepKey where
  fault : String
  scope : String
  slaveSpec : String
  regName : String
  deriving DecidableEq

def ScenarioStep.key (s : ScenarioStep K) : StepKey := ⟨s.fault, s.scope, s.slaveSpec, s.regName⟩

/-- The fields as they are joined to one text. -/
def StepKey.text (key : StepKey) : String := key.fault ++ "|" ++ key.scope ++ "|" ++ key.slaveSpec ++ "|" ++ key.regName

namespace ScenarioScript

/-- A step that has fired; an injection with the places of its sessions, from the first up to the last. -/
inductive Firing where
  | inject (key : StepKey) (first last : Nat)
  | recover (key : StepKey)

def Firing.key : Firing → StepKey
  | inject key _ _ => key
  | recover key => key

/-- The injections of a key since its last recovery. -/
def openSince (key : StepKey) (open_ : List (Nat × Nat)) : Firing → List (Nat × Nat)
  | .inject other first last => if other = key then open_ ++ [(first, last)] else open_
  | .recover other => if other = key then [] else open_

def openInjections (key : StepKey) (log : List Firing) : List (Nat × Nat) := log.foldl (openSince key) []

/-- The places whose handles wait under a text. -/
def waitingAfter (text : String) (places : List Nat) : Firing → List Nat
  | .inject key first last => if key.text = text then places ++ List.range' first (last - first) else places
  | .recover key =>
      if key.text = text then if key.slaveSpec = "ALL" then [] else places.tail else places

def waiting (text : String) (log : List Firing) : List Nat := log.foldl (waitingAfter text) []

section Logs
variable {key : StepKey} {log : List Firing} {i : Nat}

/-- The text of a key is that of no other key that has fired. -/
def Unshared (key : StepKey) (log : List Firing) : Prop := ∀ f ∈ log, f.key.text = key.text → f.key = key

/-- What waits has been injected under the text. -/
theorem exists_inject {text : String} (waits : i ∈ waiting text log) :
    ∃ key first last, .inject key first last ∈ log ∧ key.text = text ∧ first ≤ i ∧ i < last := by
  induction log using List.reverseRecOn with
  | nil => cases waits
  | append_singleton log f ih =>
    rw [waiting, List.foldl_concat] at waits
    have older : i ∈ waiting text log →
        ∃ key first last, .inject key first last ∈ log ++ [f] ∧ key.text = text ∧ first ≤ i ∧ i < last := by
      intro before
      obtain ⟨key, first, last, member, found⟩ := ih before
      exact ⟨key, first, last, List.mem_append_left _ member, found⟩
    cases f with
    | inject key first last =>
      by_cases same : key.text = text
      · rw [waitingAfter, if_pos same, List.mem_append] at waits
        rcases waits with before | now
        · exact older before
        · rw [List.mem_range'_1] at now
          exact ⟨key, first, last, List.mem_append_right _ (List.mem_singleton_self _), same, now.1, by omega⟩
      · rw [waitingAfter, if_neg same] at waits
        exact older waits
    | recover key =>
      by_cases same : key.text = text
      · rw [waitingAfter, if_pos same] at waits
        by_cases all : key.slaveSpec = "ALL"
        · rw [if_pos all] at waits
          cases waits
        · rw [if_neg all] at waits
          exact older (List.mem_of_mem_tail waits)
      · rw [waitingAfter, if_neg same] at waits
        exact older waits

/-- The injections since the last recovery wait behind all others. -/
theorem waiting_suffix (unshared : Unshared key log) :
    ((openInjections key log).flatMap fun p => List.range' p.1 (p.2 - p.1)) <:+ waiting key.text log := by
  induction log using List.reverseRecOn with
  | nil => exact List.suffix_refl _
  | append_singleton log f ih =>
    have before := ih fun g member => unshared g (List.mem_append_left _ member)
    have own := unshared f (List.mem_append_right _ (List.mem_singleton_self _))
    rw [openInjections, waiting, List.foldl_concat, List.foldl_concat]
    cases f with
    | inject other first last =>
      by_cases same : other = key
      · rw [openSince, waitingAfter, if_pos same, if_pos (congrArg _ same), List.flatMap_append]
        obtain ⟨old, split⟩ := before
        refine ⟨old, ?_⟩
        rw [← List.append_assoc]
        exact congrArg₂ _ split (List.append_nil _)
      · rw [openSince, waitingAfter, if_neg same, if_neg fun text : other.text = key.text => same (own text)]
        exact before
    | recover other =>
      by_cases same : other = key
      · rw [openSince, if_pos same]
        exact List.nil_suffix
      · rw [openSince, waitingAfter, if_neg same, if_neg fun text : other.text = key.text => same (own text)]
        exact before

end Logs

inductive BenchEvent (K : Type) [Zero K] where
  | load (file : ScenarioFile K)
  | fire (s : ScenarioStep K)
  | reset
  | tickSessions (dtMs : UInt32)
  | injectFault (req : FaultOverride K)
  | recoverFault (h : FaultHandle)
  | abortFault (h : FaultHandle)

/-- Which step each session was created by, and what has fired since the script was loaded or reset. -/
structure Origins where
  origin : List (Option StepKey) := []
  log : List Firing := []

section Bench
variable [ToString K] [Add K] [Sub K] [Neg K] [Mul K] [Div K] [IntCast K] [LT K] [DecidableLT K]
variable (truncate : K → Int) (pt : SimPointTable K)

def benchStep : Step (Bench K) (BenchEvent K) Empty := fun b event =>
  match event with
  | .load file =>
      let sc := ScenarioScript.load {} truncate file
      (if sc.2 then { b with sc := sc.1 } else b, [])
  | .fire s => fireStep pt b s
  | .reset => ({ b with sc := b.sc.reset }, [])
  | .tickSessions dtMs => ({ b with ti := b.ti.tickSessions dtMs }, [])
  | .injectFault req => ({ b with ti := (b.ti.trigger req).1 }, [])
  | .recoverFault h => ({ b with ti := (b.ti.recover h 0).1 }, [])
  | .abortFault h => ({ b with ti := (b.ti.abort h).1 }, [])

def owner : BenchEvent K → Option StepKey
  | .fire s => if s.action = "INJECT" then some s.key else none
  | _ => none

/-- The log after an event, which has taken the number of sessions from one to another. -/
def logAfter (log : List Firing) (first last : Nat) : BenchEvent K → List Firing
  | .load file => if (ScenarioScript.load {} truncate file).2 then [] else log
  | .fire s =>
      if s.action = "INJECT" then log ++ [.inject s.key first last]
      else if s.action = "RECOVER" then log ++ [.recover s.key]
      else log
  | .reset => []
  | _ => log

def record (b : Bench K) (m : Origins) (event : BenchEvent K) (_ : List Empty) : Origins :=
  let after := (benchStep truncate pt b event).1
  { origin := m.origin ++ List.replicate (after.count - b.count) (owner event)
    log := logAfter truncate m.log b.count after.count event }

/-- The script and the injector beside the origins of the sessions. -/
def traced : Step (Bench K × Origins) (BenchEvent K) Empty := watch (benchStep truncate pt) (record truncate pt)

/-- A `RECOVER` that belongs to one `INJECT` ends what is left of it, and touches only sessions of its own key. -/
def Undoes (t : Bench K × Origins) (event : BenchEvent K) : Prop :=
  match event with
  | .fire s => s.action = "RECOVER" →
      (∀ first last, openInjections s.key t.2.log = [(first, last)] → ∀ i : Nat, first ≤ i → i < last →
        ∀ x, t.1.ti.fi.sessions[i]? = some x → x.state = .active →
          ∀ x', (benchStep truncate pt t.1 event).1.ti.fi.sessions[i]? = some x' → x'.state ≠ .active) ∧
      ∀ i : Nat, t.2.origin[i]? ≠ some (some s.key) →
        (benchStep truncate pt t.1 event).1.ti.fi.sessions[i]? = t.1.ti.fi.sessions[i]?
  | _ => True

/-- No handle has been given out twice and no other key has the text of the step's. -/
def Distinct (t : Bench K × Origins) (s : ScenarioStep K) : Prop := t.1.count < handleLimit ∧ Unshared s.key t.2.log

/-- The step is for all slaves, or no active session of its injection is behind the first handle of the key. -/
def Reaches (t : Bench K × Origins) (s : ScenarioStep K) : Prop :=
  s.slaveSpec = "ALL" ∨ ∀ first last, openInjections s.key t.2.log = [(first, last)] →
    ∀ i : Nat, first ≤ i → i < last → ∀ x, t.1.ti.fi.sessions[i]? = some x → x.state = .active →
      (t.1.sc.handles (handleKey s)).head? = some x.handle

/-- What the origins tell of the script and the injector. -/
structure Traced (t : Bench K × Origins) : Prop where
  length : t.2.origin.length = t.1.count
  logged : ∀ key first last, Firing.inject key first last ∈ t.2.log →
    last ≤ t.1.count ∧ ∀ i : Nat, first ≤ i → i < last → t.2.origin[i]? = some (some key)
  numbered : t.1.count < handleLimit → t.1.ti.fi.Numbered ∧
    ∀ text, t.1.sc.handles text = (waiting text t.2.log).map handleOf

end Bench

section Injection
variable {pt : SimPointTable K} {s : ScenarioStep K} {type : FaultType}

/-- The script and the injector in the middle of an expansion, from where it has started. -/
structure Grown (key : String) (b : Bench K) (x : Expansion K) : Prop where
  more : b.count ≤ x.ti.fi.sessions.length
  numbered : x.ti.fi.sessions.length < handleLimit → b.ti.fi.Numbered → x.ti.fi.Numbered ∧
    ∀ text, x.sc.handles text = b.sc.handles text ++
      if text = key then (List.range' b.count (x.ti.fi.sessions.length - b.count)).map handleOf else []

theorem Grown.start (b : Bench K) (key : String) : Grown key b { sc := b.sc, ti := b.ti } where
  more := le_refl _
  numbered _ numbered := by
    refine ⟨numbered, fun text => ?_⟩
    have none : b.ti.fi.sessions.length - b.count = 0 := Nat.sub_self _
    simp [none]

variable [ToString K]

theorem Grown.push {b : Bench K} {x : Expansion K} (grown : Grown (handleKey s) b x) (w : Want) :
    Grown (handleKey s) b (push s type x w) := by
  cases w with
  | missing slave i => exact ⟨grown.more, grown.numbered⟩
  | request scope slave reg =>
    change Grown _ b (pushReq s type scope x slave reg)
    by_cases out : x.ti.fi.nextHandle = invalidFaultHandle
    · obtain ⟨same, -⟩ := pushReq_refused s type scope slave reg out
      refine ⟨same ▸ grown.more, fun room numbered => ?_⟩
      rw [same] at room
      have next := (grown.numbered room numbered).1.next
      exact absurd (next.symm.trans out) (handleOf_ne_invalid room)
    · obtain ⟨⟨req, start, now, fi⟩, length, handles, -⟩ := pushReq_created s type scope slave reg out
      have more := grown.more
      refine ⟨by omega, fun room numbered => ?_⟩
      obtain ⟨before, kept⟩ := grown.numbered (by omega) numbered
      refine ⟨fi ▸ (before.trigger req start now (by omega)).1, fun text => ?_⟩
      have range : List.range' b.count (x.ti.fi.sessions.length + 1 - b.count) =
          List.range' b.count (x.ti.fi.sessions.length - b.count) ++ [x.ti.fi.sessions.length] := by
        rw [Nat.sub_add_comm more, List.range'_concat]
        congr 2
        omega
      rw [handles, length]
      by_cases own : text = handleKey s
      · subst own
        rw [Function.update_self, kept, if_pos rfl, if_pos rfl, range, List.map_append, List.append_assoc, before.next]
        rfl
      · rw [Function.update_of_ne own, kept, if_neg own, if_neg own]

theorem Grown.inject (pt : SimPointTable K) (s : ScenarioStep K) (b : Bench K) : Grown (handleKey s) b
    { sc := (b.sc.fireInject s b.ti pt).1, ti := (b.sc.fireInject s b.ti pt).2 } := by
  have start := Grown.start b (handleKey s)
  cases formed : targets s pt with
  | none =>
    obtain ⟨ti, handles, -⟩ := fireInject_malformed b.sc b.ti formed
    refine ⟨by rw [ti]; exact start.more, fun room numbered => ?_⟩
    simp only [ti, handles] at room ⊢
    exact start.numbered room numbered
  | some found =>
    obtain ⟨type, ws⟩ := found
    obtain ⟨ti, handles, -⟩ := fireInject_targets b.sc b.ti formed
    have grown : Grown (handleKey s) b (ws.foldl (ScenarioScript.push s type) { sc := b.sc, ti := b.ti }) :=
      List.foldlRecOn (motive := Grown (handleKey s) b) ws _ start fun x grown w _ => grown.push w
    refine ⟨by rw [ti]; exact grown.more, fun room numbered => ?_⟩
    simp only [ti, handles] at room ⊢
    exact grown.numbered room numbered

end Injection

section Recovery
variable {s : ScenarioStep K} {sc : ScenarioScript K} {ti : TimedInjector K}

theorem taken_map (places : List Nat) : taken s (places.map handleOf) =
    (if s.slaveSpec = "ALL" then places else places.take 1).map handleOf := by
  unfold taken
  split
  · rfl
  · rw [List.map_take]

theorem left_map (places : List Nat) : left s (places.map handleOf) =
    (if s.slaveSpec = "ALL" then [] else places.tail).map handleOf := by
  unfold left
  split
  · rfl
  · rw [List.map_tail]

variable [ToString K]

/-- A recovery asks the handles it takes to recover and leaves the others under the key. -/
theorem fireRecover_eq (s : ScenarioStep K) (sc : ScenarioScript K) (ti : TimedInjector K) :
    (sc.fireRecover s ti).2.fi = (ti.recoverAll (taken s (sc.handles (handleKey s))) s.targetValue).fi ∧
      (sc.fireRecover s ti).1.handles =
        Function.update sc.handles (handleKey s) (left s (sc.handles (handleKey s))) := by
  cases waiting : sc.handles (handleKey s) with
  | nil =>
    have nothing : taken s [] = [] ∧ left s [] = [] := by
      unfold taken left
      split <;> exact ⟨rfl, rfl⟩
    rw [fireRecover_nil waiting, nothing.1, nothing.2]
    refine ⟨rfl, ?_⟩
    rw [← waiting, Function.update_eq_self]
    rfl
  | cons h rest =>
    unfold fireRecover taken left
    by_cases all : s.slaveSpec = "ALL"
    · simp only [waiting, all, beq_self_eq_true, if_true]
      exact ⟨rfl, rfl⟩
    · simp only [waiting, beq_iff_eq, if_neg all]
      refine ⟨rfl, ?_⟩
      cases (ti.recover h s.targetValue).2 <;> rfl

end Recovery

section Tracing
variable {truncate : K → Int} {pt : SimPointTable K} {t : Bench K × Origins} {s : ScenarioStep K}

/-- The origins of the sessions there are stay when new ones come. -/
theorem Traced.extend (holds : Traced t) {b : Bench K} {event : BenchEvent K} {log : List Firing}
    (more : t.1.count ≤ b.count)
    (logged : ∀ key first last, Firing.inject key first last ∈ log → Firing.inject key first last ∈ t.2.log ∨
      last ≤ b.count ∧ t.1.count ≤ first ∧ owner event = some key)
    (numbered : b.count < handleLimit → b.ti.fi.Numbered ∧
      ∀ text, b.sc.handles text = (waiting text log).map handleOf) :
    Traced (b, ⟨t.2.origin ++ List.replicate (b.count - t.1.count) (owner event), log⟩) := by
  have length := holds.length
  refine ⟨?_, ?_, numbered⟩
  · rw [List.length_append, List.length_replicate, length]
    change _ = b.count
    omega
  · intro key first last member
    rcases logged key first last member with old | ⟨inside, new, own⟩
    · obtain ⟨inside, origin⟩ := holds.logged key first last old
      refine ⟨inside.trans more, fun i from_ below => ?_⟩
      rw [List.getElem?_append_left (by omega)]
      exact origin i from_ below
    · refine ⟨inside, fun i from_ below => ?_⟩
      rw [List.getElem?_append_right (by omega), List.getElem?_replicate, if_pos (by omega), own]

/-- What neither fires a step nor moves a handle. -/
theorem Traced.other (holds : Traced t) {b : Bench K} {event : BenchEvent K}
    (more : t.1.count ≤ b.count) (handles : b.sc.handles = t.1.sc.handles)
    (numbered : b.count < handleLimit → t.1.ti.fi.Numbered → b.ti.fi.Numbered) :
    Traced (b, ⟨t.2.origin ++ List.replicate (b.count - t.1.count) (owner event), t.2.log⟩) := by
  apply holds.extend more (fun key first last member => Or.inl member)
  intro room
  obtain ⟨before, waits⟩ := holds.numbered (more.trans_lt room)
  exact ⟨numbered room before, fun text => handles ▸ waits text⟩

/-- A new script or one that is reset has no handles yet. -/
theorem Traced.fresh (holds : Traced t) {sc : ScenarioScript K} {event : BenchEvent K}
    (handles : sc.handles = fun _ => []) :
    Traced (({ t.1 with sc := sc } : Bench K),
      ⟨t.2.origin ++ List.replicate (t.1.count - t.1.count) (owner event), []⟩) := by
  apply holds.extend (b := { t.1 with sc := sc }) (le_refl _)
  · intro key first last member
    cases member
  · intro room
    exact ⟨(holds.numbered room).1, fun text => congrFun handles text⟩

theorem traced_new (sc : ScenarioScript K) (readings : Nat → Int) (handles : sc.handles = fun _ => []) :
    Traced ((⟨sc, { readings := readings }⟩, {}) : Bench K × Origins) where
  length := rfl
  logged key first last member := by cases member
  numbered _ := ⟨⟨rfl, rfl⟩, fun text => congrFun handles text⟩

/-- The place of a session at the head of the list of its key. -/
theorem Traced.head_handle (holds : Traced t) (room : t.1.count < handleLimit) {i : Nat} {x : FaultSession K}
    (found : t.1.ti.fi.sessions[i]? = some x) :
    (t.1.sc.handles (handleKey s)).head? = some x.handle ↔ i ∈ (waiting s.key.text t.2.log).take 1 := by
  obtain ⟨numbered, waits⟩ := holds.numbered room
  have inside : i < t.1.count := (List.getElem?_eq_some_iff.mp found).1
  have head : t.1.sc.handles (handleKey s) = (waiting s.key.text t.2.log).map handleOf := waits _
  rw [head, numbered.handle found]
  cases listed : waiting s.key.text t.2.log with
  | nil => simp
  | cons j rest =>
    have member : j ∈ waiting s.key.text t.2.log := listed ▸ List.mem_cons_self ..
    obtain ⟨key, first, last, logged, -, -, below⟩ := exists_inject member
    have bound : j < t.1.count := below.trans_le (holds.logged key first last logged).1
    simp only [List.map_cons, List.head?_cons, Option.some.injEq, List.take_succ_cons, List.take_zero,
      List.mem_singleton]
    constructor
    · intro same
      exact (handleOf_injective (bound.trans room) (inside.trans room) same).symm
    · rintro rfl
      rfl

variable [ToString K] [Add K] [Sub K] [Neg K] [Mul K] [Div K] [IntCast K] [LT K] [DecidableLT K]

/-- A step of the machine is a new state with the origins that go with it. -/
theorem traced_fst (event : BenchEvent K) : (traced truncate pt t event).1 =
    ((benchStep truncate pt t.1 event).1,
      ⟨t.2.origin ++ List.replicate ((benchStep truncate pt t.1 event).1.count - t.1.count) (owner event),
        logAfter truncate t.2.log t.1.count (benchStep truncate pt t.1 event).1.count event⟩) := rfl

theorem Traced.inject (holds : Traced t) (action : s.action = "INJECT") :
    Traced (traced truncate pt t (.fire s)).1 := by
  have grown := Grown.inject pt { s with fired := true } t.1
  have fires : (benchStep truncate pt t.1 (.fire s)).1 =
      ⟨(t.1.sc.fireInject { s with fired := true } t.1.ti pt).1,
        (t.1.sc.fireInject { s with fired := true } t.1.ti pt).2⟩ := fireStep_inject pt t.1 action
  rw [traced_fst]
  have more : t.1.count ≤ (benchStep truncate pt t.1 (.fire s)).1.count := by
    rw [fires]
    exact grown.more
  have log : logAfter truncate t.2.log t.1.count (benchStep truncate pt t.1 (.fire s)).1.count (.fire s) =
      t.2.log ++ [.inject s.key t.1.count (benchStep truncate pt t.1 (.fire s)).1.count] := if_pos action
  rw [log]
  apply holds.extend more
  · intro key first last member
    rcases List.mem_append.mp member with old | new
    · exact Or.inl old
    · cases List.mem_singleton.mp new
      exact Or.inr ⟨le_refl _, le_refl _, if_pos action⟩
  · intro room
    obtain ⟨before, waits⟩ := holds.numbered (more.trans_lt room)
    rw [fires] at room ⊢
    obtain ⟨numbered, handles⟩ := grown.numbered room before
    refine ⟨numbered, fun text => ?_⟩
    rw [waiting, List.foldl_concat, waitingAfter]
    calc (t.1.sc.fireInject { s with fired := true } t.1.ti pt).1.handles text
        = (waiting text t.2.log).map handleOf ++ if text = s.key.text then
            (List.range' t.1.count (Bench.count ⟨_, (t.1.sc.fireInject _ t.1.ti pt).2⟩ - t.1.count)).map handleOf
            else [] := by
          rw [← waits text]
          exact handles text
      _ = _ := by
          by_cases own : s.key.text = text
          · rw [if_pos own, if_pos own.symm, List.map_append]
            rfl
          · rw [if_neg own, if_neg (Ne.symm own), List.append_nil]
            rfl

theorem Traced.recover (holds : Traced t) (action : s.action = "RECOVER") :
    Traced (traced truncate pt t (.fire s)).1 := by
  have other : s.action ≠ "INJECT" := by
    rw [action]
    decide
  have fires : (benchStep truncate pt t.1 (.fire s)).1 =
      ⟨(t.1.sc.fireRecover { s with fired := true } t.1.ti).1,
        (t.1.sc.fireRecover { s with fired := true } t.1.ti).2⟩ := fireStep_recover pt t.1 action
  have log : logAfter truncate t.2.log t.1.count (benchStep truncate pt t.1 (.fire s)).1.count (.fire s) =
      t.2.log ++ [.recover s.key] := (if_neg other).trans (if_pos action)
  obtain ⟨fi, handles⟩ := fireRecover_eq { s with fired := true } t.1.sc t.1.ti
  have asked := TimedInjector.recoverAll_handles (taken { s with fired := true } (t.1.sc.handles (handleKey s)))
    s.targetValue t.1.ti
  have same : (benchStep truncate pt t.1 (.fire s)).1.count = t.1.count := by
    rw [fires]
    exact (congrArg (·.sessions.length) fi).trans (TimedInjector.length_recoverAll ..)
  rw [traced_fst, log]
  apply holds.extend same.ge
  · intro key first last member
    rcases List.mem_append.mp member with old | new
    · exact Or.inl old
    · cases List.mem_singleton.mp new
  · intro room
    obtain ⟨before, waits⟩ := holds.numbered (same ▸ room)
    rw [fires]
    refine ⟨fi ▸ before.transfer asked.1 asked.2, fun text => ?_⟩
    rw [waiting, List.foldl_concat, waitingAfter, handles]
    by_cases own : s.key.text = text
    · subst own
      rw [if_pos rfl]
      change Function.update t.1.sc.handles (handleKey s) (left s (t.1.sc.handles (handleKey s))) (handleKey s) = _
      rw [Function.update_self, waits, left_map]
      rfl
    · rw [if_neg own]
      change Function.update t.1.sc.handles s.key.text _ text = _
      rw [Function.update_of_ne (Ne.symm own), waits]
      rfl

theorem Traced.step (holds : Traced t) (event : BenchEvent K) : Traced (traced truncate pt t event).1 := by
  cases event with
  | load file =>
    by_cases ok : (ScenarioScript.load {} truncate file).2 = true
    · have loaded : (benchStep truncate pt t.1 (.load file)).1 =
          { t.1 with sc := (ScenarioScript.load {} truncate file).1 } := if_pos ok
      rw [traced_fst, logAfter, if_pos ok, loaded]
      exact holds.fresh (load_handles _ _)
    · have refused : (benchStep truncate pt t.1 (.load file)).1 = t.1 := if_neg ok
      rw [traced_fst, logAfter, if_neg ok, refused]
      exact holds.other (le_refl _) rfl fun _ numbered => numbered
  | fire s =>
    by_cases inject : s.action = "INJECT"
    · exact holds.inject inject
    · by_cases recover : s.action = "RECOVER"
      · exact holds.recover recover
      · have idle : (benchStep truncate pt t.1 (.fire s)).1 = t.1 := by
          change (⟨(t.1.sc.fire _ t.1.ti pt).1, (t.1.sc.fire _ t.1.ti pt).2⟩ : Bench K) = _
          unfold fire
          simp only [beq_iff_eq, if_neg inject, if_neg recover]
        have log : logAfter truncate t.2.log t.1.count (benchStep truncate pt t.1 (.fire s)).1.count (.fire s) =
            t.2.log := (if_neg inject).trans (if_neg recover)
        rw [traced_fst, log, idle]
        exact holds.other (le_refl _) rfl fun _ numbered => numbered
  | reset => exact holds.fresh rfl
  | tickSessions dtMs =>
    obtain ⟨next, handles⟩ := FaultInjector.handles_tickSessions t.1.ti.fi dtMs (t.1.ti.readings 0)
      fun i => t.1.ti.readings (i + 1)
    have length := congrArg List.length handles
    rw [List.length_map, List.length_map] at length
    exact holds.other length.ge rfl fun _ numbered => numbered.transfer next handles
  | injectFault req =>
    have sessions := FaultInjector.sessions_trigger t.1.ti.fi req (t.1.ti.readings 0) (t.1.ti.readings 1)
    by_cases out : t.1.ti.fi.nextHandle = invalidFaultHandle
    · have same := congrArg List.length (sessions.trans (if_pos out))
      refine holds.other same.ge rfl fun room numbered => ?_
      have room' : t.1.ti.fi.sessions.length < handleLimit := lt_of_eq_of_lt same.symm room
      exact absurd (numbered.next.symm.trans out) (handleOf_ne_invalid room')
    · have more := congrArg List.length (sessions.trans (if_neg out))
      rw [List.length_append, List.length_singleton] at more
      refine holds.other ((Nat.le_succ _).trans more.ge) rfl fun room numbered => ?_
      have room' : t.1.ti.fi.sessions.length < handleLimit := (Nat.lt_succ_self _).trans (lt_of_eq_of_lt more.symm room)
      exact (numbered.trigger req _ _ room').1
  | recoverFault h =>
    exact holds.other TimedInjector.length_recover.ge rfl fun _ => TimedInjector.recover_numbered
  | abortFault h =>
    have handles : (t.1.ti.fi.abort h).1.sessions.map (·.handle) = t.1.ti.fi.sessions.map (·.handle) :=
      FaultInjector.handles_changeFirst fun _ => rfl
    have length := congrArg List.length handles
    rw [List.length_map, List.length_map] at length
    exact holds.other length.ge rfl fun _ numbered => numbered.transfer FaultInjector.nextHandle_changeFirst handles

variable (truncate pt) in
/-- The sessions a recovery changes are those whose handles it takes. -/
theorem Traced.getElem?_recover (holds : Traced t) (action : s.action = "RECOVER") (room : t.1.count < handleLimit)
    (i : Nat) : ∃ change : FaultSession K → FaultSession K,
      (benchStep truncate pt t.1 (.fire s)).1.ti.fi.sessions[i]? = t.1.ti.fi.sessions[i]?.map change ∧
      if i ∈ (if s.slaveSpec = "ALL" then waiting s.key.text t.2.log else (waiting s.key.text t.2.log).take 1)
      then ∀ x, (change x).state ≠ .active else change = id := by
  obtain ⟨numbered, waits⟩ := holds.numbered room
  have inside : ∀ i ∈ (if s.slaveSpec = "ALL" then waiting s.key.text t.2.log else (waiting s.key.text t.2.log).take 1),
      i < t.1.ti.fi.sessions.length := by
    intro i member
    have listed : i ∈ waiting s.key.text t.2.log := by
      split at member
      · exact member
      · exact List.mem_of_mem_take member
    obtain ⟨key, first, last, logged, -, -, below⟩ := exists_inject listed
    exact below.trans_le (holds.logged key first last logged).1
  obtain ⟨change, after, -, effect⟩ := TimedInjector.getElem?_recoverAll s.targetValue numbered room inside i
  refine ⟨change, ?_, effect⟩
  obtain ⟨fi, -⟩ := fireRecover_eq { s with fired := true } t.1.sc t.1.ti
  have fires : (benchStep truncate pt t.1 (.fire s)).1.ti =
      (t.1.sc.fireRecover { s with fired := true } t.1.ti).2 := congrArg Bench.ti (fireStep_recover pt t.1 action)
  rw [fires, fi, ← after, ← taken_map, ← waits]
  rfl

/-- With all handles and keys told apart, a recovery undoes its injection exactly if it reaches what is left of it. -/
theorem Traced.undoes_iff (holds : Traced t) (distinct : Distinct t s) (action : s.action = "RECOVER") :
    Undoes truncate pt t (.fire s) ↔ Reaches t s := by
  obtain ⟨room, unshared⟩ := distinct
  have changes := fun i => holds.getElem?_recover truncate pt action room i
  constructor
  · intro undoes
    rw [Reaches, or_iff_not_imp_left]
    intro single first last only i from_ below x found active
    rw [holds.head_handle room found]
    by_contra behind
    obtain ⟨change, after, effect⟩ := changes i
    rw [if_neg single, if_neg behind] at effect
    rw [effect, Option.map_id_apply, found] at after
    exact (undoes action).1 first last only i from_ below x found active x after active
  · intro reaches _
    constructor
    · intro first last only i from_ below x found active x' after'
      obtain ⟨change, after, effect⟩ := changes i
      rw [found, Option.map_some] at after
      have reached : i ∈ (if s.slaveSpec = "ALL" then waiting s.key.text t.2.log
          else (waiting s.key.text t.2.log).take 1) := by
        by_cases all : s.slaveSpec = "ALL"
        · rw [if_pos all]
          have open_ := waiting_suffix unshared
          rw [only, List.flatMap_singleton] at open_
          exact open_.subset (List.mem_range'_1.mpr ⟨from_, by omega⟩)
        · rw [if_neg all]
          have head := reaches.resolve_left all first last only i from_ below x found active
          exact (holds.head_handle room found).mp head
      rw [if_pos reached] at effect
      cases after.symm.trans after'
      exact effect x
    · intro i foreign
      obtain ⟨change, after, effect⟩ := changes i
      have outside : i ∉ waiting s.key.text t.2.log := by
        intro listed
        obtain ⟨key, first, last, logged, text, from_, below⟩ := exists_inject listed
        have origin := (holds.logged key first last logged).2 i from_ below
        exact foreign (origin.trans (congrArg (fun key => some (some key)) (unshared _ logged text)))
      have untaken : i ∉ (if s.slaveSpec = "ALL" then waiting s.key.text t.2.log
          else (waiting s.key.text t.2.log).take 1) := by
        split
        · exact outside
        · exact fun member => outside (List.mem_of_mem_take member)
      rw [if_neg untaken] at effect
      rw [after, effect, Option.map_id_apply]

/-- At a recovery, all handles and keys are told apart and it reaches what is left of its injection. -/
def Paired (t : Bench K × Origins) (event : BenchEvent K) : Prop :=
  match event with
  | .fire s => s.action = "RECOVER" → Distinct t s ∧ Reaches t s
  | _ => True

/-- From an injector that is just started, with no script yet. -/
def newBench (readings : Nat → Int) : Bench K × Origins := (⟨{}, { readings := readings }⟩, {})

/-- In a run, every recovery undoes its injection. -/
def RecoveriesUndo (truncate : K → Int) (pt : SimPointTable K) (readings : Nat → Int) (events : List (BenchEvent K)) :
    Prop :=
  ∀ v ∈ visits (traced truncate pt) (newBench readings) events, Undoes truncate pt v.1 v.2

theorem recoveries_undo (truncate : K → Int) (pt : SimPointTable K) (readings : Nat → Int)
    (events : List (BenchEvent K))
    (paired : ∀ v ∈ visits (traced truncate pt) (newBench readings) events, Paired v.1 v.2) :
    RecoveriesUndo truncate pt readings events := by
  have along := reached_always (traced truncate pt) events (traced_new {} readings rfl)
    fun t event holds => holds.step event
  intro v visited
  have holds := along _ (visit_mem_reached visited).1
  have meets := paired v visited
  obtain ⟨t, event⟩ := v
  cases event with
  | fire s =>
    intro action
    obtain ⟨distinct, reaches⟩ := meets action
    exact (holds.undoes_iff distinct action).mpr reaches action
  | _ => trivial

end Tracing

section Drills

/-- A slave with two cells. -/
def twoCells : SimPointTable Int where
  bySlave := [(1, [{ pointName := "Rack-01_CellV_000", registerAddr := 10, scaleFactor := 1, offset := 0 },
    { pointName := "Rack-01_CellV_001", registerAddr := 11, scaleFactor := 1, offset := 0 }])]

/-- A step of the drill of cell voltages on a slave. -/
def cellDrill (action slaveSpec : String) (count : Int32) : BenchEvent Int :=
  .fire { action, fault := "FR-SIM-05b", scope := "cell", slaveSpec, regName := "CellV", count }

theorem recoveries_undo_all : RecoveriesUndo id twoCells (fun _ => 0)
    [cellDrill "INJECT" "ALL" 2, cellDrill "RECOVER" "ALL" 2] := by
  apply recoveries_undo
  intro v visited
  simp only [visits, List.mem_cons, List.not_mem_nil, or_false] at visited
  rcases visited with rfl | rfl
  · intro action
    exact absurd action (by decide)
  · intro _
    refine ⟨⟨by decide, ?_⟩, Or.inl rfl⟩
    intro f member _
    cases List.mem_singleton.mp member
    rfl

/-- Two cells are driven up together and only the first is let go again. -/
theorem recoveries_undo_fails : ¬RecoveriesUndo id twoCells (fun _ => 0)
    [cellDrill "INJECT" "1" 2, cellDrill "RECOVER" "1" 2] := by
  intro undo
  have law := (undo _ (List.mem_cons_of_mem _ (List.mem_singleton_self _)) rfl).1 0 2 (by rfl) 1 (by decide) (by decide)
  exact absurd (law _ (by rfl) (by rfl) _ (by rfl)) (by decide)

end Drills
end ScenarioScript
end EnerSentry.Sim
