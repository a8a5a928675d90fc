import EnerSentry.App.PollAttribution

/-!
The timers of the poll driver against a clock. Every tick is a single shot that nobody can call
off: it arms the next one if the driver runs when it expires, whoever started the driver since.
-/

namespace EnerSentry.App
open EnerSentry.Lib EnerSentry.Protocol

variable {K : Type*}

namespace PollWorld

/-- What the timers depend on is as it was. -/
structure SameTimers (w w' : PollWorld K) : Prop where
  armed : w'.driver.armed = w.driver.armed
  running : w'.driver.running = w.driver.running
  intervalMs : w'.driver.intervalMs = w.driver.intervalMs

section Frame
variable {w w' w'' : PollWorld K} {clock : Clock} {linkId : UInt32} {slave : UInt8}

theorem SameTimers.refl (w : PollWorld K) : w.SameTimers w := ⟨rfl, rfl, rfl⟩

theorem SameTimers.trans (first : w.SameTimers w') (second : w'.SameTimers w'') : w.SameTimers w'' :=
  ⟨second.armed.trans first.armed, second.running.trans first.running, second.intervalMs.trans first.intervalMs⟩

theorem sameTimers_onFrameError {kind : FrameErrorKind} :
    w.SameTimers (w.onFrameError clock linkId slave kind).1 := by
  simp only [onFrameError]
  split
  · exact ⟨rfl, rfl, rfl⟩
  · exact SameTimers.refl w

section Slots
variable [Zero K] [One K] [Add K] [Mul K] (cv : Conversions K)

theorem sameTimers_onResponseParsed {resp : ModbusResponse} :
    w.SameTimers (w.onResponseParsed cv clock linkId slave resp).1 := by
  simp only [onResponseParsed]
  split
  · exact SameTimers.refl w
  · split
    · exact SameTimers.refl w
    · split <;> exact ⟨rfl, rfl, rfl⟩

theorem sameTimers_onSignal (signal : EngineSignal) : w.SameTimers (w.onSignal cv clock signal).1 := by
  cases signal with
  | responseParsed linkId slave resp => exact sameTimers_onResponseParsed cv
  | frameError linkId slave kind => exact sameTimers_onFrameError

theorem sameTimers_onFrame (frame : List UInt8) : w.SameTimers (w.onFrame cv clock frame).1 := by
  have engine : w.SameTimers { w with engine := (w.engine.onFrame frame).1 } := ⟨rfl, rfl, rfl⟩
  exact Runs.reached_always (onSignal cv clock) (w.engine.onFrame frame).2 (I := w.SameTimers) engine
    (fun _ signal same => same.trans (sameTimers_onSignal cv signal)) _ Runs.run_mem_reached

theorem sameTimers_onBytesReceived (data : List UInt8) : w.SameTimers (w.onBytesReceived cv clock data).1 := by
  have start : w.SameTimers (w.receive data).1 := ⟨rfl, rfl, rfl⟩
  exact Runs.reached_always (onFrame cv clock) (w.receive data).2 (I := w.SameTimers) start
    (fun _ frame same => same.trans (sameTimers_onFrame cv frame)) _ Runs.run_mem_reached

end Slots

/-- A tick arms the next timer, with the interval unchanged, if the driver runs. -/
structure Ticked (w w' : PollWorld K) : Prop where
  armed : w'.driver.armed = w.driver.armed + 1
  running : w'.driver.running = true
  intervalMs : w'.driver.intervalMs = w.driver.intervalMs

theorem Ticked.of_same (running : w.driver.running = true) (same : w.SameTimers w') : w.Ticked w'.scheduleNext := by
  have on : w'.driver.running = true := same.running.trans running
  rw [scheduleNext, PollDriver.scheduleNext, if_pos on]
  exact ⟨congrArg (· + 1) same.armed, on, same.intervalMs⟩

theorem ticked_pollSegment (running : w.driver.running = true) (channel : Channel) (index : Nat) (seg : Segment K) :
    w.Ticked (w.pollSegment channel index seg).1 := by
  simp only [pollSegment]
  split
  · exact Ticked.of_same running ⟨rfl, rfl, rfl⟩
  · split
    · exact Ticked.of_same running ⟨rfl, rfl, rfl⟩
    · exact Ticked.of_same running ⟨rfl, rfl, rfl⟩

/-- A tick of a driver that does not run is the end of its chain. -/
theorem onPollTick_timers (w : PollWorld K) (channel : Channel) :
    (w.driver.running = false ∧ w.onPollTick channel = (w, [])) ∨
      w.driver.running = true ∧ w.Ticked (w.onPollTick channel).1 := by
  cases running : w.driver.running with
  | false =>
    left
    rw [onPollTick, running]
    exact ⟨rfl, rfl⟩
  | true =>
    right
    refine ⟨rfl, ?_⟩
    simp only [onPollTick, running, Bool.not_true, Bool.false_eq_true, if_false]
    split
    · exact Ticked.of_same running (SameTimers.refl w)
    · split
      · exact Ticked.of_same running (SameTimers.refl w)
      · exact ticked_pollSegment running ..

end Frame
end PollWorld

/-- The driver with the clock, the times at which its timers expire, and when polls were requested,
each with the interval that was set. -/
structure TimedPolling (K : Type*) where
  world : PollWorld K
  now : Int := 0
  due : List Int := []
  requests : List (Int × Int) := []

inductive TimedEvent where
  | wait (ms : Nat)
  /-- The timer at a place of the list expires. -/
  | expire (place : Nat) (channel : Channel)
  /-- Anything but a tick, which only a timer brings. -/
  | slot (e : PollEvent)

def PollOutput.isWritten : PollOutput K → Bool
  | .written .. => true
  | _ => false

namespace TimedPolling

/-- The timers that an event has armed expire one interval from now. -/
def arm (s : TimedPolling K) (before : Nat) (w : PollWorld K) : TimedPolling K :=
  { s with
    world := w
    due := s.due ++ List.replicate (w.driver.armed - before) (s.now + w.driver.intervalMs) }

/-- A request that an event has written counts with its time. -/
def note (s : TimedPolling K) (out : List (PollOutput K)) : TimedPolling K :=
  if out.any PollOutput.isWritten then { s with requests := s.requests ++ [(s.now, s.world.driver.intervalMs)] }
  else s

/-- One tick is scheduled at most, and each request comes an interval after all before it. -/
structure OneChain (s : TimedPolling K) : Prop where
  single : s.due.length ≤ 1
  paced : s.requests.Pairwise fun earlier later => earlier.1 + later.2 ≤ later.1

/-- Polling is started only when no timer is left of the last time. -/
def StartsAlone (s : TimedPolling K) : TimedEvent → Prop
  | .slot (.startPolling _) => s.due = []
  | _ => True

/-- The list of times has one entry for each armed timer, and no request lies ahead. -/
structure Clocked (s : TimedPolling K) : Prop where
  armed : s.due.length = s.world.driver.armed
  past : ∀ r ∈ s.requests, r.1 ≤ s.now

theorem starts_twice {s : TimedPolling K} {e : TimedEvent} (twice : ¬s.StartsAlone e) :
    ∃ intervalMs, e = .slot (.startPolling intervalMs) ∧ s.due ≠ [] := by
  cases e with
  | wait => exact absurd trivial twice
  | expire => exact absurd trivial twice
  | slot e =>
    cases e with
    | startPolling intervalMs => exact ⟨intervalMs, rfl, twice⟩
    | _ => exact absurd trivial twice

/-- One chain, whose next tick comes an interval after all requests. -/
structure Paced (s : TimedPolling K) : Prop extends OneChain s where
  next : ∀ time ∈ s.due, ∀ r ∈ s.requests, r.1 + s.world.driver.intervalMs ≤ time

/-- What one event does to the timers and the requests. -/
inductive Moves (s : TimedPolling K) (e : TimedEvent) (s' : TimedPolling K) : Prop where
  | kept (due : s'.due = s.due) (requests : s'.requests = s.requests) (now : s.now ≤ s'.now)
      (armed : s'.world.driver.armed = s.world.driver.armed)
      (interval : s'.world.driver.intervalMs = s.world.driver.intervalMs)
  | started (intervalMs : Int) (starts : e = .slot (.startPolling intervalMs))
      (due : s'.due = s.due ++ [s.now + intervalMs]) (requests : s'.requests = s.requests)
      (now : s'.now = s.now) (armed : s'.world.driver.armed = s.world.driver.armed + 1)
      (interval : s'.world.driver.intervalMs = intervalMs)
  | ended (place : Nat) (inside : place < s.due.length) (due : s'.due = s.due.eraseIdx place)
      (requests : s'.requests = s.requests) (now : s'.now = s.now)
      (armed : s'.world.driver.armed + 1 = s.world.driver.armed)
      (interval : s'.world.driver.intervalMs = s.world.driver.intervalMs)
  | ticked (place : Nat) (inside : place < s.due.length) (expired : s.due[place] ≤ s.now)
      (due : s'.due = s.due.eraseIdx place ++ [s.now + s.world.driver.intervalMs])
      (requests : s'.requests = s.requests ∨ s'.requests = s.requests ++ [(s.now, s.world.driver.intervalMs)])
      (now : s'.now = s.now) (armed : s'.world.driver.armed = s.world.driver.armed)
      (interval : s'.world.driver.intervalMs = s.world.driver.intervalMs)

section Moves
variable {s s' : TimedPolling K} {e : TimedEvent}

theorem moves_arm {w : PollWorld K} (same : s.world.SameTimers w) : s.Moves e (s.arm s.world.driver.armed w) := by
  have due : (s.arm s.world.driver.armed w).due = s.due := by
    rw [arm, same.armed, Nat.sub_self]
    exact List.append_nil _
  exact .kept due rfl (Int.le_refl _) same.armed same.intervalMs

/-- The list of times stays right. -/
theorem Clocked.moves (clocked : s.Clocked) (moves : s.Moves e s') : s'.Clocked := by
  have armed := clocked.armed
  have past := clocked.past
  cases moves with
  | kept due requests now count =>
    constructor
    · rw [due, count, armed]
    · intro r member
      rw [requests] at member
      exact Int.le_trans (past r member) now
  | started intervalMs starts due requests now count =>
    constructor
    · rw [due, count, List.length_append, armed, List.length_singleton]
    · intro r member
      rw [requests] at member
      rw [now]
      exact past r member
  | ended place inside due requests now count =>
    constructor
    · rw [due, List.length_eraseIdx_of_lt inside]
      omega
    · intro r member
      rw [requests] at member
      rw [now]
      exact past r member
  | ticked place inside expired due requests now count =>
    constructor
    · rw [due, count, List.length_append, List.length_eraseIdx_of_lt inside, List.length_singleton]
      omega
    · intro r member
      rw [now]
      rcases requests with same | more
      · rw [same] at member
        exact past r member
      · rw [more] at member
        rcases List.mem_append.mp member with old | new
        · exact past r old
        · rw [List.mem_singleton.mp new]

/-- One chain stays one, unless polling is started with a timer left. -/
theorem Paced.moves (clocked : s.Clocked) (paced : s.Paced) (alone : s.StartsAlone e) (moves : s.Moves e s') :
    s'.Paced := by
  have single := paced.single
  have there := clocked.moves moves
  cases moves with
  | kept due requests now count interval =>
    refine ⟨⟨?_, ?_⟩, ?_⟩
    · rw [due]
      exact single
    · rw [requests]
      exact paced.paced
    · rw [due, requests, interval]
      exact paced.next
  | started intervalMs starts due requests now count interval =>
    subst starts
    have none : s.due = [] := alone
    rw [none, List.nil_append] at due
    refine ⟨⟨?_, ?_⟩, ?_⟩
    · rw [due, List.length_singleton]
    · rw [requests]
      exact paced.paced
    · rw [due, requests, interval, List.forall_mem_singleton]
      intro r member
      have past := clocked.past r member
      omega
  | ended place inside due requests now count interval =>
    refine ⟨⟨?_, ?_⟩, ?_⟩
    · rw [due, List.length_eraseIdx_of_lt inside]
      omega
    · rw [requests]
      exact paced.paced
    · rw [due, requests, interval]
      intro time member
      exact paced.next time (List.mem_of_mem_eraseIdx member)
  | ticked place inside expired due requests now count interval =>
    have none : s.due.eraseIdx place = [] := by
      apply List.eq_nil_of_length_eq_zero
      rw [List.length_eraseIdx_of_lt inside]
      omega
    have reached : ∀ r ∈ s.requests, r.1 + s.world.driver.intervalMs ≤ s.now := by
      intro r member
      exact Int.le_trans (paced.next _ (List.getElem_mem inside) r member) expired
    rw [none, List.nil_append] at due
    refine ⟨⟨?_, ?_⟩, ?_⟩
    · rw [due, List.length_singleton]
    · rcases requests with same | more
      · rw [same]
        exact paced.paced
      · rw [more, List.pairwise_append]
        refine ⟨paced.paced, List.pairwise_singleton .., fun r member later new => ?_⟩
        rw [List.mem_singleton.mp new]
        exact reached r member
    · rw [due, interval, List.forall_mem_singleton]
      intro r member
      have past := there.past r member
      omega

end Moves

section Steps
variable [Zero K] [One K] [Add K] [Mul K] (cv : Conversions K)

def expire (s : TimedPolling K) (place : Nat) (channel : Channel) : TimedPolling K :=
  match s.due[place]? with
  | none => s
  | some time =>
      if s.now < time then s
      else
        let r := PollWorld.step cv s.world (.tick channel)
        ({ s with due := s.due.eraseIdx place }.arm (s.world.driver.armed - 1) r.1).note r.2

def step : Runs.Step (TimedPolling K) TimedEvent Empty := fun s e =>
  match e with
  | .wait ms => ({ s with now := s.now + ms }, [])
  | .expire place channel => (s.expire cv place channel, [])
  | .slot (.tick _) => (s, [])
  | .slot e => (s.arm s.world.driver.armed (PollWorld.step cv s.world e).1, [])

def fresh (points : List (PointRuntime K)) : TimedPolling K := { world := PollWorld.fresh points }

variable {cv} {s : TimedPolling K}

theorem moves_expire (clocked : s.Clocked) (place : Nat) (channel : Channel) :
    s.Moves e (s.expire cv place channel) := by
  have still : s.Moves e s := .kept rfl rfl (Int.le_refl _) rfl rfl
  rw [expire]
  split
  · exact still
  case h_2 time here =>
    obtain ⟨inside, rfl⟩ := List.getElem?_eq_some_iff.mp here
    split
    · exact still
    case isFalse late =>
      have some : s.world.driver.armed ≠ 0 := by
        have count := clocked.armed
        omega
      let used : PollWorld K := { s.world with driver := { s.world.driver with armed := s.world.driver.armed - 1 } }
      have tick : PollWorld.step cv s.world (.tick channel) = used.onPollTick channel := if_neg some
      rw [tick]
      rcases PollWorld.onPollTick_timers used channel with ⟨-, ends⟩ | ⟨-, ticked⟩
      · rw [ends]
        refine .ended place inside ?_ rfl rfl (Nat.succ_pred some) rfl
        calc s.due.eraseIdx place ++ List.replicate (used.driver.armed - (s.world.driver.armed - 1)) _
            = s.due.eraseIdx place ++ [] := by rw [Nat.sub_self, List.replicate_zero]
          _ = s.due.eraseIdx place := List.append_nil _
      · have armed : (used.onPollTick channel).1.driver.armed = s.world.driver.armed - 1 + 1 := ticked.armed
        have interval : (used.onPollTick channel).1.driver.intervalMs = s.world.driver.intervalMs := ticked.intervalMs
        have due : s.due.eraseIdx place ++ List.replicate
            ((used.onPollTick channel).1.driver.armed - (s.world.driver.armed - 1))
            (s.now + (used.onPollTick channel).1.driver.intervalMs) =
              s.due.eraseIdx place ++ [s.now + s.world.driver.intervalMs] := by
          rw [armed, interval, Nat.add_sub_cancel_left]
          rfl
        have count : (used.onPollTick channel).1.driver.armed = s.world.driver.armed := by omega
        have expired : s.due[place] ≤ s.now := Int.not_lt.mp late
        rw [note]
        split
        · exact .ticked place inside expired due (Or.inr (by rw [← interval]; rfl)) rfl count interval
        · exact .ticked place inside expired due (Or.inl rfl) rfl count interval

theorem due_startPolling (s : TimedPolling K) (intervalMs : Int) :
    (step cv s (.slot (.startPolling intervalMs))).1.due = s.due ++ [s.now + intervalMs] := by
  change s.due ++ List.replicate (s.world.driver.armed + 1 - s.world.driver.armed) (s.now + intervalMs) = _
  rw [Nat.add_sub_cancel_left]
  rfl

/-- What an event does, if the list of times is right. -/
theorem moves_step (clocked : s.Clocked) (e : TimedEvent) : s.Moves e (step cv s e).1 := by
  cases e with
  | wait ms => exact .kept rfl rfl (Int.le_add_of_nonneg_right (Int.natCast_nonneg ms)) rfl rfl
  | expire place channel => exact moves_expire clocked place channel
  | slot e =>
    cases e with
    | startPolling intervalMs => exact .started intervalMs rfl (due_startPolling s intervalMs) rfl rfl rfl rfl
    | stopPolling =>
      have due : s.due ++ List.replicate (s.world.driver.armed - s.world.driver.armed)
          (s.now + s.world.driver.intervalMs) = s.due := by
        rw [Nat.sub_self]
        exact List.append_nil _
      exact .kept due rfl (Int.le_refl _) rfl rfl
    | tick channel => exact .kept rfl rfl (Int.le_refl _) rfl rfl
    | resetPending => exact moves_arm ⟨rfl, rfl, rfl⟩
    | sboCommand cmd channel => exact moves_arm ⟨rfl, rfl, rfl⟩
    | bytes clock data => exact moves_arm (PollWorld.sameTimers_onBytesReceived cv data)
    | connectionChanged connected => exact moves_arm ⟨rfl, rfl, rfl⟩

/-- One tick is scheduled at most, and the requests keep the interval, exactly in the runs in which
polling is only ever started with no timer left of the last time. -/
theorem one_chain_iff (points : List (PointRuntime K)) (events : List TimedEvent) :
    (∀ s ∈ Runs.reached (step cv) (fresh points) events, s.OneChain) ↔
      ∀ v ∈ Runs.visits (step cv) (fresh points) events, v.1.StartsAlone v.2 := by
  apply Runs.reached_iff (step cv) events (B := Clocked) (J := Paced)
  · exact ⟨rfl, List.forall_mem_nil _⟩
  · intro s e clocked
    exact clocked.moves (moves_step clocked e)
  · exact ⟨⟨Nat.zero_le _, List.Pairwise.nil⟩, List.forall_mem_nil _⟩
  · intro s paced
    exact paced.toOneChain
  · intro s e clocked paced alone
    exact paced.moves clocked alone (moves_step clocked e)
  · intro s e clocked chain twice after
    obtain ⟨intervalMs, rfl, left⟩ := starts_twice twice
    have single := after.single
    rw [due_startPolling, List.length_append, List.length_singleton] at single
    exact left (List.eq_nil_of_length_eq_zero (by omega))

end Steps
/-- The link is lost and comes back within an interval, twice: requests go out 50 ms apart. -/
def flapping : List TimedEvent :=
  [.slot (.startPolling 100), .wait 50, .slot .stopPolling, .slot .resetPending, .slot (.startPolling 100), .wait 50,
    .expire 0 fun bytes => bytes.length, .slot .stopPolling, .slot .resetPending, .wait 50, .slot (.startPolling 100),
    .expire 0 fun bytes => bytes.length]

theorem flapping_two_chains :
    ((Runs.run (step PollWorld.integers) (fresh PollWorld.apartPoints) flapping).due.length = 3 ∧
      (Runs.run (step PollWorld.integers) (fresh PollWorld.apartPoints) flapping).requests = [(100, 100), (150, 100)]) ∧
      ¬∀ s ∈ Runs.reached (step PollWorld.integers) (fresh PollWorld.apartPoints) flapping, s.OneChain := by
  have many : (Runs.run (step PollWorld.integers) (fresh PollWorld.apartPoints) flapping).due.length = 3 := by
    decide +kernel
  refine ⟨⟨many, by decide +kernel⟩, fun chains => ?_⟩
  have single := (chains _ Runs.run_mem_reached).single
  omega

end TimedPolling
end EnerSentry.App
