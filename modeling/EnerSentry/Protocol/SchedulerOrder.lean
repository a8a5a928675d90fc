import EnerSentry.Lib.Runs
import EnerSentry.Lib.Turns
import EnerSentry.Protocol.PollScheduler

/-!
The queues of the scheduler over whole runs: what is enqueued on a link is handed out on that link,
once, and all of it when the link is drained. Normal and low tasks are handed out in the order in which
they were enqueued. A control task goes to the front of the control tasks that wait.
-/

namespace EnerSentry.Protocol
open EnerSentry.Lib

/-- The queue a task waits in. -/
inductive PollClass where
  | control | normal | low
  deriving DecidableEq, Repr

def PollTask.pollClass (task : PollTask) : PollClass :=
  if task.isControlCommand then .control
  else if task.priority = .normal then .normal
  else .low

namespace LinkState

def queue (link : LinkState) : PollClass → List PollTask
  | .control => link.highPriorityQueue
  | .normal => link.normalQueue
  | .low => link.lowPriorityQueue

def waitingCount (link : LinkState) : Nat :=
  link.highPriorityQueue.length + link.normalQueue.length + link.lowPriorityQueue.length

/-- The queue whose front the next call of `dequeueNext` hands out. -/
def serves (link : LinkState) : Option PollClass :=
  if link.params.isHalfDuplex && link.busy then none
  else
    match link.highPriorityQueue, link.normalQueue, link.lowPriorityQueue with
    | _ :: _, normal, _ =>
        match decide (link.params.maxConsecutiveSboBurst ≤ link.consecutiveSboCount), normal with
        | true, _ :: _ => some .normal
        | _, _ => some .control
    | [], normal, low =>
        match decide (link.params.maxConsecutivePreempt ≤ link.consecutivePreemptCount), normal, low with
        | true, _, _ :: _ => some .low
        | _, _ :: _, _ => some .normal
        | _, [], _ :: _ => some .low
        | _, [], [] => none

theorem queue_enqueue (link : LinkState) (task : PollTask) (cls : PollClass) :
    (link.enqueue task).queue cls =
      if task.pollClass = cls then
        if cls = .control then task :: link.queue cls else link.queue cls ++ [task]
      else link.queue cls := by
  simp only [LinkState.enqueue, PollTask.pollClass]
  split
  · cases cls <;> simp [queue]
  · split <;> cases cls <;> simp [queue]

/-- A call takes the front of the queue it serves and leaves the others. -/
theorem dequeueNext_serves {link : LinkState} {cls : PollClass} (serves : link.serves = some cls) :
    ∃ rest, link.queue cls = link.dequeueNext.2 :: rest ∧
      ∀ other, link.dequeueNext.1.queue other = if other = cls then rest else link.queue other := by
  obtain ⟨high, normal, low, preempts, sbos, busy, params⟩ := link
  simp only [LinkState.serves] at serves
  simp only [LinkState.dequeueNext]
  split at serves
  · cases serves
  · rename_i free
    rw [if_neg free]
    generalize decide (params.maxConsecutiveSboBurst ≤ sbos) = storm at serves ⊢
    generalize decide (params.maxConsecutivePreempt ≤ preempts) = starved at serves ⊢
    rcases high with _ | ⟨control, high⟩
    · rcases normal with _ | ⟨next, normal⟩ <;> rcases low with _ | ⟨least, low⟩ <;> cases starved <;>
        cases serves <;> exact ⟨_, rfl, fun other => by cases other <;> rfl⟩
    · rcases normal with _ | ⟨next, normal⟩ <;> cases storm <;>
        cases serves <;> exact ⟨_, rfl, fun other => by cases other <;> rfl⟩

theorem dequeueNext_idle {link : LinkState} (idle : link.serves = none) :
    link.dequeueNext = (link, {}) := by
  obtain ⟨high, normal, low, preempts, sbos, busy, params⟩ := link
  simp only [LinkState.serves] at idle
  simp only [LinkState.dequeueNext]
  split at idle
  · rename_i blocked
    rw [if_pos blocked]
  · rename_i free
    rw [if_neg free]
    generalize decide (params.maxConsecutiveSboBurst ≤ sbos) = storm at idle ⊢
    generalize decide (params.maxConsecutivePreempt ≤ preempts) = starved at idle ⊢
    rcases high with _ | ⟨control, high⟩
    · rcases normal with _ | ⟨next, normal⟩ <;> rcases low with _ | ⟨least, low⟩ <;> cases starved <;>
        first | rfl | cases idle
    · rcases normal with _ | ⟨next, normal⟩ <;> cases storm <;> cases idle

/-- A link that is free serves as long as anybody waits. -/
theorem serves_of_free {link : LinkState} (free : link.busy = false) (waits : 0 < link.waitingCount) :
    ∃ cls, link.serves = some cls := by
  apply Option.ne_none_iff_exists'.mp
  intro idle
  simp only [LinkState.serves, free, Bool.and_false] at idle
  simp only [waitingCount] at waits
  grind

end LinkState

/-- The calls that move the queues. -/
inductive SchedulerCall where
  | setLinkParams (linkId : UInt8) (params : LinkParams)
  | enqueue (task : PollTask)
  | dequeueNext (linkId : UInt8)
  | onLinkFree (linkId : UInt8)
  deriving DecidableEq, Repr

/-- What a call enqueues on a link in a class. -/
def SchedulerCall.entering (call : SchedulerCall) (linkId : UInt8) (cls : PollClass) : List PollTask :=
  match call with
  | .enqueue task => if task.linkId = linkId ∧ task.pollClass = cls then [task] else []
  | _ => []

def enqueuedOn (calls : List SchedulerCall) (linkId : UInt8) (cls : PollClass) : List PollTask :=
  calls.flatMap fun call => call.entering linkId cls

/-- The calls that empty a link: a frame is over, and the next task is fetched. -/
def drainLink (linkId : UInt8) (rounds : Nat) : List SchedulerCall :=
  (List.replicate rounds [.onLinkFree linkId, .dequeueNext linkId]).flatten

namespace PollScheduler

def waitingOn (s : PollScheduler) (linkId : UInt8) (cls : PollClass) : List PollTask :=
  ((s.links linkId).map fun link => link.queue cls).getD []

def waitingCount (s : PollScheduler) (linkId : UInt8) : Nat :=
  ((s.links linkId).map LinkState.waitingCount).getD 0

def serves (s : PollScheduler) (linkId : UInt8) : Option PollClass :=
  (s.links linkId).bind LinkState.serves

/-- The machine of the queues; what a fetch returns is put out. -/
def step : Runs.Step PollScheduler SchedulerCall PollTask := fun s call =>
  match call with
  | .setLinkParams linkId params => (s.setLinkParams linkId params, [])
  | .enqueue task => (s.enqueue task, [])
  | .dequeueNext linkId =>
      let (s, task) := s.dequeueNext linkId
      (s, [task])
  | .onLinkFree linkId => (s.onLinkFree linkId, [])

/-- A control task is enqueued on a link where another one waits. -/
def overtakes (s : PollScheduler) : SchedulerCall → Prop
  | .enqueue task => task.pollClass = .control ∧ s.waitingOn task.linkId .control ≠ []
  | _ => False

section Queues
variable (s : PollScheduler) (linkId other : UInt8) (cls : PollClass)

/-- A link that is not known yet has nobody waiting. -/
theorem queue_getD : ((s.links linkId).getD {}).queue cls = s.waitingOn linkId cls := by
  simp only [waitingOn]
  cases s.links linkId with
  | none => cases cls <;> rfl
  | some link => rfl

theorem waitingOn_update (link : LinkState) :
    waitingOn { s with links := Function.update s.links other (some link) } linkId cls =
      if linkId = other then link.queue cls else s.waitingOn linkId cls := by
  simp only [waitingOn]
  by_cases same : linkId = other
  · rw [same, Function.update_self, if_pos rfl]
    rfl
  · rw [Function.update_of_ne same, if_neg same]

@[simp] theorem waitingOn_setLinkParams (params : LinkParams) :
    (s.setLinkParams other params).waitingOn linkId cls = s.waitingOn linkId cls := by
  rw [setLinkParams, waitingOn_update]
  split
  · rename_i same
    subst same
    exact s.queue_getD linkId cls
  · rfl

@[simp] theorem waitingOn_onLinkFree :
    (s.onLinkFree other).waitingOn linkId cls = s.waitingOn linkId cls := by
  simp only [onLinkFree]
  cases known : s.links other with
  | none => rfl
  | some link =>
    rw [waitingOn_update]
    split
    · rename_i same
      subst same
      simp only [waitingOn, known]
      cases cls <;> rfl
    · rfl

theorem waitingOn_enqueue (task : PollTask) :
    (s.enqueue task).waitingOn linkId cls =
      if task.linkId = linkId ∧ task.pollClass = cls then
        if cls = .control then task :: s.waitingOn linkId cls else s.waitingOn linkId cls ++ [task]
      else s.waitingOn linkId cls := by
  rw [enqueue, waitingOn_update]
  by_cases same : linkId = task.linkId
  · subst same
    rw [if_pos rfl, LinkState.queue_enqueue, queue_getD]
    simp only [true_and]
  · rw [if_neg same, if_neg fun both => same both.1.symm]

variable {s linkId cls}

/-- A fetch takes the front of the queue it serves, on its own link. -/
theorem dequeueNext_serves (serves : s.serves linkId = some cls) :
    ∃ rest, s.waitingOn linkId cls = (s.dequeueNext linkId).2 :: rest ∧
      ∀ other cls', (s.dequeueNext linkId).1.waitingOn other cls' =
        if other = linkId ∧ cls' = cls then rest else s.waitingOn other cls' := by
  obtain ⟨link, known, serves⟩ := Option.bind_eq_some_iff.mp serves
  obtain ⟨rest, front, queues⟩ := LinkState.dequeueNext_serves serves
  refine ⟨rest, by simp only [waitingOn, dequeueNext, known]; exact front, fun other cls' => ?_⟩
  simp only [dequeueNext, known]
  rw [waitingOn_update, queues]
  by_cases same : other = linkId
  · subst same
    simp [waitingOn, known]
  · simp [same]

theorem dequeueNext_idle (idle : s.serves linkId = none) :
    (s.dequeueNext linkId).2 = {} ∧
      ∀ other cls', (s.dequeueNext linkId).1.waitingOn other cls' = s.waitingOn other cls' := by
  simp only [dequeueNext]
  cases known : s.links linkId with
  | none => exact ⟨rfl, fun _ _ => rfl⟩
  | some link =>
    have stays : link.dequeueNext = (link, {}) :=
      LinkState.dequeueNext_idle (by simpa [PollScheduler.serves, known] using idle)
    simp only [stays]
    refine ⟨trivial, fun other cls' => ?_⟩
    rw [waitingOn_update]
    split
    · rename_i same
      rw [same]
      simp only [waitingOn, known]
      rfl
    · rfl

theorem waitingCount_eq : s.waitingCount linkId =
    (s.waitingOn linkId .control).length + (s.waitingOn linkId .normal).length +
      (s.waitingOn linkId .low).length := by
  simp only [waitingCount, waitingOn]
  cases s.links linkId <;> rfl

/-- Once the frame on a link is over, the link serves somebody, if anybody waits. -/
theorem serves_onLinkFree (waits : 0 < s.waitingCount linkId) :
    ∃ cls, (s.onLinkFree linkId).serves linkId = some cls := by
  simp only [serves, onLinkFree]
  cases known : s.links linkId with
  | none => simp [waitingCount, known] at waits
  | some link =>
    simp only [waitingCount, known, Option.map_some, Option.getD_some] at waits
    simp only [Function.update_self, Option.bind_some]
    exact LinkState.serves_of_free rfl waits

theorem waitingCount_fetch (serves : s.serves linkId = some cls) :
    (s.dequeueNext linkId).1.waitingCount linkId + 1 = s.waitingCount linkId := by
  obtain ⟨rest, front, queues⟩ := dequeueNext_serves serves
  have count := congrArg List.length front
  simp only [waitingCount_eq, queues, List.length_cons] at count ⊢
  cases cls <;> simp <;> omega

end Queues
end PollScheduler

/-- The turns of each class on each link. -/
abbrev TurnTable := UInt8 → PollClass → Turns PollTask

namespace TurnTable

/-- A control task comes to the front of its queue and other tasks to the back. What a fetch returns is
given out for the front of the queue it serves. -/
def track (s : PollScheduler) (turns : TurnTable) (call : SchedulerCall) (out : List PollTask) : TurnTable :=
  fun linkId cls =>
    match call with
    | .enqueue task =>
        if task.linkId = linkId ∧ task.pollClass = cls then
          if cls = .control then (turns linkId cls).pushFront task else (turns linkId cls).pushBack task
        else turns linkId cls
    | .dequeueNext fetched =>
        if fetched = linkId ∧ s.serves linkId = some cls then out.foldl Turns.serve (turns linkId cls)
        else turns linkId cls
    | _ => turns linkId cls

end TurnTable

/-- The scheduler beside the turns of its tasks. -/
abbrev TurnedScheduler := PollScheduler × TurnTable

namespace TurnedScheduler

def step : Runs.Step TurnedScheduler SchedulerCall PollTask := Runs.watch PollScheduler.step TurnTable.track

def fresh : TurnedScheduler := ({}, fun _ _ => {})

/-- The turns of those who wait are the queues of the scheduler. -/
def Mirrors (w : TurnedScheduler) : Prop :=
  ∀ linkId cls, (w.2 linkId cls).waiting.map Prod.fst = w.1.waitingOn linkId cls

/-- What one call does to the turns of one class on one link. -/
inductive Moves (linkId : UInt8) (cls : PollClass) (call : SchedulerCall) :
    Turns PollTask → Turns PollTask → Prop where
  | kept {turns : Turns PollTask} (nobody : call.entering linkId cls = []) :
      Moves linkId cls call turns turns
  | back {turns : Turns PollTask} (task : PollTask) (enters : call.entering linkId cls = [task])
      (class_ne : cls ≠ .control) : Moves linkId cls call turns (turns.pushBack task)
  | front {turns : Turns PollTask} (task : PollTask) (enters : call = .enqueue task)
      (own : task.linkId = linkId) (control : task.pollClass = .control) (class_eq : cls = .control) :
      Moves linkId cls call turns (turns.pushFront task)
  | served {turns : Turns PollTask} (task : PollTask) (turn : Nat) (rest : List (PollTask × Nat))
      (fetched : call = .dequeueNext linkId) (front : turns.waiting = (task, turn) :: rest) :
      Moves linkId cls call turns (turns.serve task)

section Moves
variable {linkId : UInt8} {cls : PollClass} {call : SchedulerCall} {turns turns' : Turns PollTask}
  (moves : Moves linkId cls call turns turns')
include moves

theorem Moves.entered : turns'.entered = turns.entered ++ call.entering linkId cls := by
  cases moves with
  | kept nobody => rw [nobody, List.append_nil]
  | back task enters => rw [enters, Turns.pushBack]
  | front task enters own control class_eq =>
    subst enters class_eq
    rw [SchedulerCall.entering, if_pos ⟨own, control⟩, Turns.pushFront]
  | served task turn rest fetched front =>
    subst fetched
    rw [Turns.entered_serve front]
    exact (List.append_nil _).symm

theorem Moves.accounted (accounted : turns.Accounted) : turns'.Accounted := by
  cases moves with
  | kept => exact accounted
  | back => exact Turns.accounted_pushBack accounted
  | front => exact Turns.accounted_pushFront accounted
  | served task turn rest fetched front => exact Turns.accounted_serve front accounted

/-- Nobody comes to the front but a control task. -/
theorem Moves.inOrder (steady : ¬(∃ task, call = .enqueue task ∧ task.linkId = linkId ∧
    task.pollClass = .control ∧ cls = .control)) (inOrder : turns.InOrder) : turns'.InOrder := by
  cases moves with
  | kept => exact inOrder
  | back => exact Turns.inOrder_pushBack inOrder
  | front task enters own control class_eq => exact absurd ⟨task, enters, own, control, class_eq⟩ steady
  | served task turn rest fetched front => exact (Turns.inOrder_serve_iff front).mpr inOrder

theorem Moves.newestFirst (control : cls = .control) (accounted : turns.Accounted)
    (newest : turns.NewestFirst) : turns'.NewestFirst := by
  cases moves with
  | kept => exact newest
  | back task enters notControl => exact absurd control notControl
  | front => exact Turns.newestFirst_pushFront accounted newest
  | served task turn rest fetched front => exact Turns.newestFirst_serve front newest

/-- As long as nobody comes, who waits is served next. -/
theorem Moves.served_append_waiting (nobody : call.entering linkId cls = []) :
    turns'.served ++ turns'.waiting = turns.served ++ turns.waiting := by
  cases moves with
  | kept => rfl
  | back task enters => exact absurd (enters.symm.trans nobody) (List.cons_ne_nil _ _)
  | front task enters own control class_eq =>
    subst enters class_eq
    rw [SchedulerCall.entering, if_pos ⟨own, control⟩] at nobody
    exact absurd nobody (List.cons_ne_nil _ _)
  | served task turn rest fetched front => exact Turns.served_append_waiting_serve front

/-- Whoever is served came after all who go on waiting, where the newest is in front. -/
theorem Moves.newest_served (newest : turns.NewestFirst) {task : PollTask} {turn : Nat}
    (handed : turns'.served = turns.served ++ [(task, turn)]) :
    ∀ other ∈ turns'.waiting, other.2 < turn := by
  have nothing : turns.served ≠ turns.served ++ [(task, turn)] := by
    intro same
    exact absurd (congrArg List.length same) (by simp)
  cases moves with
  | kept => exact absurd handed nothing
  | back => exact absurd handed nothing
  | front => exact absurd handed nothing
  | served task turn rest fetched front =>
    rw [Turns.serve_eq front] at handed
    have same := List.singleton_inj.mp (List.append_cancel_left handed)
    injection same with _ same
    rw [← same]
    exact Turns.newest_served front newest

end Moves

theorem step_moves (w : TurnedScheduler) (call : SchedulerCall) (mirrors : w.Mirrors) (linkId : UInt8)
    (cls : PollClass) :
    Moves linkId cls call (w.2 linkId cls) ((step w call).1.2 linkId cls) ∧
      ((step w call).1.2 linkId cls).waiting.map Prod.fst = (step w call).1.1.waitingOn linkId cls := by
  cases call with
  | setLinkParams other params =>
    exact ⟨.kept rfl, (mirrors linkId cls).trans (w.1.waitingOn_setLinkParams linkId other cls params).symm⟩
  | onLinkFree other =>
    exact ⟨.kept rfl, (mirrors linkId cls).trans (w.1.waitingOn_onLinkFree linkId other cls).symm⟩
  | enqueue task =>
    simp only [step, Runs.watch_fst, Runs.watch_snd, PollScheduler.step, TurnTable.track,
      PollScheduler.waitingOn_enqueue]
    by_cases enters : task.linkId = linkId ∧ task.pollClass = cls
    · rw [if_pos enters, if_pos enters]
      by_cases control : cls = .control
      · rw [if_pos control, if_pos control]
        exact ⟨.front _ rfl enters.1 (enters.2.trans control) control,
          congrArg (task :: ·) (mirrors linkId cls)⟩
      · rw [if_neg control, if_neg control]
        refine ⟨.back _ (if_pos enters) control, ?_⟩
        simp only [Turns.pushBack, List.map_append, mirrors linkId cls]
        rfl
    · rw [if_neg enters, if_neg enters]
      exact ⟨.kept (if_neg enters), mirrors linkId cls⟩
  | dequeueNext fetched =>
    simp only [step, Runs.watch_fst, Runs.watch_snd, PollScheduler.step, TurnTable.track, List.foldl]
    by_cases own : fetched = linkId ∧ w.1.serves linkId = some cls
    · obtain ⟨rfl, serves⟩ := own
      obtain ⟨rest, front, queues⟩ := PollScheduler.dequeueNext_serves serves
      have waits := (mirrors fetched cls).trans front
      obtain ⟨⟨task, turn⟩, later, turns, rfl, rfl⟩ := List.map_eq_cons_iff.mp waits
      rw [if_pos ⟨rfl, serves⟩, queues, if_pos ⟨rfl, rfl⟩, Turns.serve_eq turns]
      refine ⟨?_, rfl⟩
      rw [← Turns.serve_eq turns]
      exact .served _ turn later rfl turns
    · rw [if_neg own]
      refine ⟨.kept rfl, (mirrors linkId cls).trans ?_⟩
      cases serves : w.1.serves fetched with
      | none => exact ((PollScheduler.dequeueNext_idle serves).2 linkId cls).symm
      | some served =>
        obtain ⟨rest, -, queues⟩ := PollScheduler.dequeueNext_serves serves
        rw [queues, if_neg]
        rintro ⟨rfl, rfl⟩
        exact own ⟨rfl, serves⟩

/-- Nobody is lost or served twice, and everybody but the control tasks is served in turn. -/
structure Kept (w : TurnedScheduler) : Prop where
  mirrors : w.Mirrors
  accounted : ∀ linkId cls, (w.2 linkId cls).Accounted
  inOrder : ∀ linkId cls, cls ≠ .control → (w.2 linkId cls).InOrder
  newestFirst : ∀ linkId, (w.2 linkId .control).NewestFirst

theorem kept_fresh : Kept fresh :=
  ⟨fun _ cls => by cases cls <;> rfl, fun _ _ => List.Perm.nil, fun _ _ _ => rfl, fun _ => List.Pairwise.nil⟩

theorem Kept.step {w : TurnedScheduler} (kept : w.Kept) (call : SchedulerCall) : (step w call).1.Kept := by
  refine ⟨fun linkId cls => (step_moves w call kept.mirrors linkId cls).2, fun linkId cls => ?_,
    fun linkId cls notControl => ?_, fun linkId => ?_⟩
  · exact (step_moves w call kept.mirrors linkId cls).1.accounted (kept.accounted linkId cls)
  · exact (step_moves w call kept.mirrors linkId cls).1.inOrder (fun ⟨_, _, _, _, control⟩ => notControl control)
      (kept.inOrder linkId cls notControl)
  · exact (step_moves w call kept.mirrors linkId .control).1.newestFirst rfl (kept.accounted linkId .control)
      (kept.newestFirst linkId)

theorem kept_reached (calls : List SchedulerCall) : ∀ w ∈ Runs.reached step fresh calls, w.Kept :=
  Runs.reached_always step calls kept_fresh fun _ call kept => kept.step call

theorem entered_run {w : TurnedScheduler} (kept : w.Kept) (calls : List SchedulerCall) (linkId : UInt8)
    (cls : PollClass) :
    ((Runs.run step w calls).2 linkId cls).entered =
      (w.2 linkId cls).entered ++ enqueuedOn calls linkId cls := by
  induction calls generalizing w with
  | nil => exact (List.append_nil _).symm
  | cons call calls ih =>
    rw [Runs.run, ih (kept.step call), (step_moves w call kept.mirrors linkId cls).1.entered,
      List.append_assoc]
    rfl

/-- Each round of a drain serves one task, and nobody comes. -/
theorem served_drainLink {w : TurnedScheduler} (kept : w.Kept) (linkId : UInt8) (rounds : Nat)
    (count : w.1.waitingCount linkId = rounds) (cls : PollClass) :
    ((Runs.run step w (drainLink linkId rounds)).2 linkId cls).served =
      (w.2 linkId cls).served ++ (w.2 linkId cls).waiting := by
  induction rounds generalizing w with
  | zero =>
    have nobody : (w.2 linkId cls).waiting = [] := by
      apply List.map_eq_nil_iff.mp
      rw [kept.mirrors linkId cls]
      rw [PollScheduler.waitingCount_eq] at count
      cases cls <;> exact List.eq_nil_of_length_eq_zero (by omega)
    rw [nobody, List.append_nil]
    rfl
  | succ rounds ih =>
    obtain ⟨served, serves⟩ : ∃ cls, (w.1.onLinkFree linkId).serves linkId = some cls :=
      PollScheduler.serves_onLinkFree (by omega)
    have freed := kept.step (.onLinkFree linkId)
    have fewer := PollScheduler.waitingCount_fetch serves
    have same : (w.1.onLinkFree linkId).waitingCount linkId = w.1.waitingCount linkId := by
      simp only [PollScheduler.waitingCount_eq, PollScheduler.waitingOn_onLinkFree]
    have rest := ih (freed.step (.dequeueNext linkId))
      (show ((w.1.onLinkFree linkId).dequeueNext linkId).1.waitingCount linkId = rounds by omega)
    calc ((Runs.run step w (drainLink linkId (rounds + 1))).2 linkId cls).served
        = ((step (step w (.onLinkFree linkId)).1 (.dequeueNext linkId)).1.2 linkId cls).served ++
            ((step (step w (.onLinkFree linkId)).1 (.dequeueNext linkId)).1.2 linkId cls).waiting := rest
      _ = ((step w (.onLinkFree linkId)).1.2 linkId cls).served ++
            ((step w (.onLinkFree linkId)).1.2 linkId cls).waiting :=
          (step_moves _ _ freed.mirrors linkId cls).1.served_append_waiting rfl
      _ = (w.2 linkId cls).served ++ (w.2 linkId cls).waiting :=
          (step_moves w _ kept.mirrors linkId cls).1.served_append_waiting rfl

section Control
variable {w : TurnedScheduler} (kept : w.Kept)

def ControlInOrder (w : TurnedScheduler) : Prop := ∀ linkId, (w.2 linkId .control).InOrder

theorem turns_control (task : PollTask) (control : task.pollClass = .control) :
    (step w (.enqueue task)).1.2 task.linkId .control = (w.2 task.linkId .control).pushFront task :=
  if_pos ⟨rfl, control⟩

include kept

/-- A control task that comes is in turn if all were before and none waits. -/
theorem inOrder_control_iff (task : PollTask) (control : task.pollClass = .control) :
    ((step w (.enqueue task)).1.2 task.linkId .control).InOrder ↔
      (w.2 task.linkId .control).InOrder ∧ w.1.waitingOn task.linkId .control = [] := by
  rw [turns_control task control, Turns.inOrder_pushFront_iff (kept.accounted task.linkId .control),
    ← kept.mirrors, List.map_eq_nil_iff]

theorem ControlInOrder.step {call : SchedulerCall} (inOrder : w.ControlInOrder)
    (steady : ¬w.1.overtakes call) : (TurnedScheduler.step w call).1.ControlInOrder := by
  intro linkId
  have moves := (step_moves w call kept.mirrors linkId .control).1
  by_cases comes : ∃ task, call = .enqueue task ∧ task.linkId = linkId ∧ task.pollClass = .control
  · obtain ⟨task, rfl, rfl, control⟩ := comes
    have nobody : w.1.waitingOn task.linkId .control = [] := by
      by_contra waits
      exact steady ⟨control, waits⟩
    exact (inOrder_control_iff kept task control).mpr ⟨inOrder task.linkId, nobody⟩
  · exact moves.inOrder (fun ⟨task, enters, own, control, _⟩ => comes ⟨task, enters, own, control⟩)
      (inOrder linkId)

theorem overtakes_breaks {call : SchedulerCall} (overtakes : w.1.overtakes call) :
    ¬(TurnedScheduler.step w call).1.ControlInOrder := by
  intro inOrder
  cases call with
  | enqueue task =>
    obtain ⟨control, waits⟩ := overtakes
    exact waits ((inOrder_control_iff kept task control).mp (inOrder task.linkId)).2
  | setLinkParams => exact overtakes
  | dequeueNext => exact overtakes
  | onLinkFree => exact overtakes

end Control

/-- A valid task that a fetch returns is given out for a turn on its link. -/
theorem returned_served {w : TurnedScheduler} (kept : w.Kept) (linkId : UInt8) :
    ∃ task, (step w (.dequeueNext linkId)).2 = [task] ∧ (task.isValid → ∃ cls turn,
      ((step w (.dequeueNext linkId)).1.2 linkId cls).served = (w.2 linkId cls).served ++ [(task, turn)]) := by
  refine ⟨(w.1.dequeueNext linkId).2, rfl, fun valid => ?_⟩
  cases serves : w.1.serves linkId with
  | none =>
    rw [(PollScheduler.dequeueNext_idle serves).1] at valid
    exact absurd valid (by decide)
  | some cls =>
    obtain ⟨rest, front, -⟩ := PollScheduler.dequeueNext_serves serves
    obtain ⟨⟨task, turn⟩, later, turns, same, -⟩ := List.map_eq_cons_iff.mp ((kept.mirrors linkId cls).trans front)
    have given : (step w (.dequeueNext linkId)).1.2 linkId cls =
        (w.2 linkId cls).serve (w.1.dequeueNext linkId).2 := if_pos ⟨rfl, serves⟩
    refine ⟨cls, turn, ?_⟩
    rw [given]
    simp only [Turns.serve, turns]

/-- A control task that is handed out was enqueued after all that go on waiting. -/
theorem newest_handed_out {w : TurnedScheduler} (kept : w.Kept) {call : SchedulerCall} {linkId : UInt8}
    {task : PollTask} {turn : Nat}
    (handed : ((step w call).1.2 linkId .control).served = (w.2 linkId .control).served ++ [(task, turn)]) :
    ∀ other ∈ ((step w call).1.2 linkId .control).waiting, other.2 < turn := by
  exact (step_moves w call kept.mirrors linkId .control).1.newest_served (kept.newestFirst linkId) handed

/-- What the queues of the scheduler do in every run. The tasks of a class on a link are told apart by
their turns, and what is handed out is what `dequeueNext` returns. -/
theorem tasks_conserved (calls : List SchedulerCall) :
    (∀ linkId cls,
      ((Runs.run step fresh calls).2 linkId cls).entered = enqueuedOn calls linkId cls) ∧
    (∀ v ∈ Runs.visits step fresh calls, ∀ linkId, v.2 = .dequeueNext linkId →
      ∃ task, (step v.1 v.2).2 = [task] ∧ (task.isValid →
        ∃ cls turn, ((step v.1 v.2).1.2 linkId cls).served = (v.1.2 linkId cls).served ++ [(task, turn)])) ∧
    (∀ w ∈ Runs.reached step fresh calls, ∀ linkId cls,
      ((w.2 linkId cls).served ++ (w.2 linkId cls).waiting).Perm (w.2 linkId cls).entered.zipIdx ∧
      ((Runs.run step w (drainLink linkId (w.1.waitingCount linkId))).2 linkId cls).served =
        (w.2 linkId cls).served ++ (w.2 linkId cls).waiting ∧
      (cls ≠ .control →
        (w.2 linkId cls).served ++ (w.2 linkId cls).waiting = (w.2 linkId cls).entered.zipIdx)) ∧
    (∀ v ∈ Runs.visits step fresh calls, ∀ linkId task turn,
      ((step v.1 v.2).1.2 linkId .control).served = (v.1.2 linkId .control).served ++ [(task, turn)] →
        ∀ other ∈ ((step v.1 v.2).1.2 linkId .control).waiting, other.2 < turn) ∧
    ((∀ w ∈ Runs.reached step fresh calls, ∀ linkId,
      (w.2 linkId .control).served ++ (w.2 linkId .control).waiting = (w.2 linkId .control).entered.zipIdx) ↔
        ∀ v ∈ Runs.visits step fresh calls, ¬v.1.1.overtakes v.2) := by
  have always := kept_reached calls
  refine ⟨fun linkId cls => ?_, fun v visited linkId call => ?_, fun w member linkId cls => ⟨?_, ?_, ?_⟩,
    fun v visited linkId task turn handed => ?_, ?_⟩
  · rw [entered_run kept_fresh]
    rfl
  · rw [call]
    exact returned_served (always v.1 (Runs.visit_mem_reached visited).1) linkId
  · exact (always w member).accounted linkId cls
  · exact served_drainLink (always w member) linkId _ rfl cls
  · exact (always w member).inOrder linkId cls
  · exact newest_handed_out (always v.1 (Runs.visit_mem_reached visited).1) handed
  · exact Runs.reached_iff step calls (B := Kept) kept_fresh (fun _ call kept => kept.step call)
      (fun _ => rfl) (fun _ inOrder => inOrder)
      (fun _ _ kept inOrder steady => ControlInOrder.step kept inOrder steady)
      (fun _ _ kept _ overtakes => overtakes_breaks kept (not_not.mp overtakes))

/-- Two control writes that wait together are handed out the other way round. -/
theorem control_writes_reversed :
    let first : PollTask := { PollTask.controlWrite 1 1 with registerAddr := 100 }
    let second : PollTask := { PollTask.controlWrite 1 1 with registerAddr := 101 }
    let calls : List SchedulerCall := [.enqueue first, .enqueue second] ++ drainLink 1 2
    Runs.outputs PollScheduler.step {} calls = [second, first] ∧
      enqueuedOn calls 1 .control = [first, second] ∧
      ((Runs.run step fresh calls).2 1 .control).served = [(second, 1), (first, 0)] := by
  decide +kernel

end TurnedScheduler
end EnerSentry.Protocol
