import EnerSentry.Protocol.LinkHistory

/-!
A half-duplex link carries one frame at a time. It refuses to hand out a task from the moment it
has handed out one until it is told that the frame is over. Whether a task is valid does not
matter to it, but it does to whoever fetches the task and must report the end of the frame.
-/

namespace EnerSentry.Protocol
open EnerSentry.Lib

namespace LinkState
variable {link : LinkState}

theorem serves_busy (halfDuplex : link.params.isHalfDuplex) (busy : link.busy) : link.serves = none := by
  rw [LinkState.serves, halfDuplex, busy]
  rfl

/-- Only a served fetch returns a valid task, and it takes the link. -/
theorem busy_of_valid (valid : link.dequeueNext.2.isValid) :
    (∃ cls, link.serves = some cls) ∧ link.dequeueNext.1.busy := by
  cases served : link.serves with
  | none =>
    rw [dequeueNext_idle served] at valid
    exact Bool.noConfusion valid
  | some cls => exact ⟨⟨cls, rfl⟩, (counted served).busy⟩

theorem busy_dequeueNext (link : LinkState) : link.dequeueNext.1.busy = (link.busy || link.serves.isSome) := by
  cases served : link.serves with
  | none =>
    rw [dequeueNext_idle served, Option.isSome_none, Bool.or_false]
  | some cls =>
    rw [(counted served).busy, Option.isSome_some, Bool.or_true]

end LinkState

namespace PollScheduler

/-- The task that a fetch on a link returns after some calls. -/
def fetched (s : PollScheduler) (linkId : UInt8) (earlier : List SchedulerCall) : PollTask :=
  ((Runs.run step s earlier).dequeueNext linkId).2

/-- What whoever drives a half-duplex link by the validity of the tasks relies on. -/
structure Disciplined (linkId : UInt8) (s : PollScheduler) (calls : List SchedulerCall) : Prop where
  refuses : ∀ earlier between later,
    calls = earlier ++ .dequeueNext linkId :: (between ++ .dequeueNext linkId :: later) →
      (s.fetched linkId earlier).isValid → .onLinkFree linkId ∉ between →
        s.fetched linkId (earlier ++ .dequeueNext linkId :: between) = {}
  releases : ∀ v ∈ Runs.visits step s calls, v.2 = .dequeueNext linkId → v.1.isLinkBusy linkId = false →
    ¬(v.1.dequeueNext linkId).2.isValid → (step v.1 v.2).1.isLinkBusy linkId = false
  inFlight : ∀ begun, begun <+: calls → (Runs.run step s begun).isLinkBusy linkId →
    ∃ earlier between, begun = earlier ++ .dequeueNext linkId :: between ∧ .onLinkFree linkId ∉ between ∧
      (s.fetched linkId earlier).isValid

section Links
variable {linkId : UInt8} {s : PollScheduler} {params : LinkParams} {calls : List SchedulerCall}

theorem isLinkBusy_eq (s : PollScheduler) (linkId : UInt8) : s.isLinkBusy linkId = (s.link linkId).busy := by
  rw [isLinkBusy, PollScheduler.link]
  cases s.links linkId <;> rfl

/-- A link is busy from a fetch that it serves until the frame is over. -/
theorem busy_step (s : PollScheduler) (linkId : UInt8) (call : SchedulerCall) :
    ((step s call).1.link linkId).busy =
      if call = .onLinkFree linkId then false
      else (s.link linkId).busy || (decide (call = .dequeueNext linkId) && (s.link linkId).serves.isSome) := by
  cases call with
  | setLinkParams other params =>
    rw [if_neg SchedulerCall.noConfusion, decide_eq_false SchedulerCall.noConfusion, Bool.false_and, Bool.or_false,
      step, link_setLinkParams]
    split
    · rename_i own
      rw [own]
    · rfl
  | enqueue task =>
    rw [if_neg SchedulerCall.noConfusion, decide_eq_false SchedulerCall.noConfusion, Bool.false_and, Bool.or_false,
      step, link_enqueue]
    split
    · rename_i own
      rw [LinkState.busy_enqueue, own]
    · rfl
  | dequeueNext other =>
    rw [if_neg SchedulerCall.noConfusion]
    change ((s.dequeueNext other).1.link linkId).busy = _
    rw [link_dequeueNext]
    by_cases own : linkId = other
    · rw [if_pos own, LinkState.busy_dequeueNext, own, decide_eq_true rfl, Bool.true_and]
    · rw [if_neg own, decide_eq_false fun same => own (SchedulerCall.dequeueNext.inj same).symm, Bool.false_and,
        Bool.or_false]
  | onLinkFree other =>
    rw [decide_eq_false SchedulerCall.noConfusion, Bool.false_and, Bool.or_false, step, link_onLinkFree]
    by_cases own : linkId = other
    · rw [if_pos own, own, if_pos rfl]
    · rw [if_neg own, if_neg fun same => own (SchedulerCall.onLinkFree.inj same).symm]

/-- A busy link stays busy until the frame is over. -/
theorem busy_run (s : PollScheduler) {calls : List SchedulerCall} (within : .onLinkFree linkId ∉ calls)
    (busy : (s.link linkId).busy) : ((Runs.run step s calls).link linkId).busy := by
  induction calls generalizing s with
  | nil => exact busy
  | cons call calls ih =>
    rw [List.mem_cons, not_or] at within
    apply ih _ within.2
    rw [busy_step, if_neg (Ne.symm within.1), busy, Bool.true_or]

/-- A half-duplex link hands out nothing after a valid task until the frame is over. -/
theorem refused (halfDuplex : params.isHalfDuplex) (steady : Steady linkId calls)
    {earlier between later : List SchedulerCall}
    (split : calls = earlier ++ .dequeueNext linkId :: (between ++ .dequeueNext linkId :: later))
    (valid : ((withLink linkId params).fetched linkId earlier).isValid) (within : .onLinkFree linkId ∉ between) :
    (withLink linkId params).fetched linkId (earlier ++ .dequeueNext linkId :: between) = {} := by
  have steadyBefore : Steady linkId (earlier ++ .dequeueNext linkId :: between) := by
    apply steady.of_prefix
    exists .dequeueNext linkId :: later
    rw [split, List.append_assoc, List.cons_append]
  rw [fetched, dequeueNext_snd] at valid
  have taken : ((Runs.run step (withLink linkId params) (earlier ++ [.dequeueNext linkId])).link linkId).busy := by
    rw [Runs.run_concat, busy_step, if_neg SchedulerCall.noConfusion, decide_eq_true rfl, Bool.true_and,
      Option.isSome_iff_exists.mpr (LinkState.busy_of_valid valid).1, Bool.or_true]
  have busy := busy_run _ within taken
  rw [← Runs.run_append, List.append_assoc, List.singleton_append] at busy
  rw [fetched, dequeueNext_snd, LinkState.dequeueNext_idle]
  apply LinkState.serves_busy _ busy
  rw [link_params steadyBefore]
  exact halfDuplex

/-- If only valid tasks come to a link, only valid tasks wait there. -/
theorem waiting_valid (comes : ∀ task, .enqueue task ∈ calls → task.linkId = linkId → task.isValid) (cls : PollClass) :
    ∀ task ∈ (Runs.run step (withLink linkId params) calls).waitingOn linkId cls, task.isValid := by
  induction calls using List.reverseRecOn generalizing cls with
  | nil =>
    rw [Runs.run, withLink, waitingOn_setLinkParams]
    exact List.forall_mem_nil _
  | append_singleton calls call ih =>
    have before := ih fun task member => comes task (List.mem_append_left _ member)
    rw [Runs.run_concat]
    cases call with
    | setLinkParams other params =>
      rw [step, waitingOn_setLinkParams]
      exact before cls
    | enqueue task =>
      rw [step, waitingOn_enqueue]
      split
      · rename_i enters
        have valid := comes task (List.mem_append_right _ List.mem_cons_self) enters.1
        split
        · exact List.forall_mem_cons.mpr ⟨valid, before cls⟩
        · exact List.forall_mem_append.mpr ⟨before cls, List.forall_mem_singleton.mpr valid⟩
      · exact before cls
    | dequeueNext other =>
      change ∀ task ∈ ((Runs.run step (withLink linkId params) calls).dequeueNext other).1.waitingOn linkId cls, _
      cases served : (Runs.run step (withLink linkId params) calls).serves other with
      | none =>
        rw [(dequeueNext_idle served).2]
        exact before cls
      | some first =>
        obtain ⟨rest, front, queues⟩ := dequeueNext_serves served
        rw [queues]
        split
        · rename_i own
          obtain ⟨rfl, rfl⟩ := own
          intro task member
          apply before cls task
          rw [front]
          exact List.mem_cons_of_mem _ member
        · exact before cls
    | onLinkFree other =>
      rw [step, waitingOn_onLinkFree]
      exact before cls

/-- A served fetch of a link where only valid tasks wait returns a valid task. -/
theorem valid_of_served {cls : PollClass} (waiting : ∀ cls, ∀ task ∈ s.waitingOn linkId cls, task.isValid)
    (served : (s.link linkId).serves = some cls) : (s.dequeueNext linkId).2.isValid := by
  rw [← serves_link] at served
  obtain ⟨rest, front, -⟩ := dequeueNext_serves served
  apply waiting cls
  rw [front]
  exact List.mem_cons_self

/-- Where only valid tasks wait, a busy link carries one that was fetched and not released. -/
theorem inFlight_of_waiting {begun : List SchedulerCall}
    (waiting : ∀ earlier, earlier <+: begun →
      ∀ cls, ∀ task ∈ (Runs.run step (withLink linkId params) earlier).waitingOn linkId cls, task.isValid)
    (busy : (Runs.run step (withLink linkId params) begun).isLinkBusy linkId) :
    ∃ earlier between, begun = earlier ++ .dequeueNext linkId :: between ∧ .onLinkFree linkId ∉ between ∧
      ((withLink linkId params).fetched linkId earlier).isValid := by
  induction begun using List.reverseRecOn with
  | nil =>
    rw [isLinkBusy_eq, Runs.run, link_withLink] at busy
    exact Bool.noConfusion busy
  | append_singleton begun call ih =>
    rw [isLinkBusy_eq, Runs.run_concat, busy_step] at busy
    by_cases freed : call = .onLinkFree linkId
    · rw [if_pos freed] at busy
      exact Bool.noConfusion busy
    · rw [if_neg freed, Bool.or_eq_true, Bool.and_eq_true, decide_eq_true_iff] at busy
      rcases busy with before | ⟨fetch, served⟩
      · have shorter : ∀ earlier, earlier <+: begun → earlier <+: begun ++ [call] :=
          fun earlier within => within.trans (List.prefix_append begun [call])
        obtain ⟨earlier, between, split, none, valid⟩ :=
          ih (fun earlier within => waiting earlier (shorter earlier within)) ((isLinkBusy_eq ..).trans before)
        exists earlier, between ++ [call]
        refine ⟨by rw [split, List.append_assoc]; rfl, ?_, valid⟩
        rw [List.mem_append, List.mem_singleton, not_or]
        exact ⟨none, Ne.symm freed⟩
      · obtain ⟨cls, served⟩ := Option.isSome_iff_exists.mp served
        exact ⟨begun, [], by rw [fetch], List.not_mem_nil,
          valid_of_served (waiting begun (List.prefix_append begun [call])) served⟩

theorem disciplined_of_valid (halfDuplex : params.isHalfDuplex) (steady : Steady linkId calls)
    (comes : ∀ task, .enqueue task ∈ calls → task.linkId = linkId → task.isValid) :
    Disciplined linkId (withLink linkId params) calls := by
  have waiting : ∀ begun, begun <+: calls →
      ∀ cls, ∀ task ∈ (Runs.run step (withLink linkId params) begun).waitingOn linkId cls, task.isValid := by
    intro begun within
    exact waiting_valid fun task member => comes task (within.subset member)
  constructor
  · intro earlier between later split
    exact refused halfDuplex steady split
  · intro v visited fetch free invalid
    obtain ⟨begun, later, split, same⟩ := Runs.exists_split visited
    rw [isLinkBusy_eq] at free ⊢
    have idle : (v.1.link linkId).serves = none := by
      apply Option.eq_none_iff_forall_ne_some.mpr
      intro cls served
      rw [same] at served invalid
      exact invalid (valid_of_served (waiting begun (split ▸ List.prefix_append ..)) served)
    rw [busy_step, free, idle, Option.isSome_none, Bool.and_false, Bool.or_false, ite_self]
  · intro begun within
    exact inFlight_of_waiting fun earlier shorter => waiting earlier (shorter.trans within)

/-- A task that waits and is not handed out waits on. -/
theorem waits_of_ne {cls first : PollClass} {task : PollTask} (waits : task ∈ s.waitingOn linkId cls)
    (serves : s.serves linkId = some first) (other : (s.dequeueNext linkId).2 ≠ task) :
    task ∈ (s.dequeueNext linkId).1.waitingOn linkId cls := by
  obtain ⟨rest, front, queues⟩ := dequeueNext_serves serves
  rw [queues]
  split
  · rename_i own
    rw [own.2, front] at waits
    exact (List.mem_cons.mp waits).resolve_left (Ne.symm other)
  · exact waits

/-- An invalid task that waits is handed out in the end, and then the link is busy for nobody. -/
theorem exists_blocked (count : Nat) {cls : PollClass} {task : PollTask} (counted : s.waitingCount linkId = count)
    (waits : task ∈ s.waitingOn linkId cls) (invalid : ¬task.isValid) :
    ∃ n, ∃ v ∈ Runs.visits step s (drainLink linkId n), v.2 = .dequeueNext linkId ∧ v.1.isLinkBusy linkId = false ∧
      ¬(v.1.dequeueNext linkId).2.isValid ∧ (step v.1 v.2).1.isLinkBusy linkId = true := by
  induction count generalizing s with
  | zero =>
    rw [waitingCount_eq] at counted
    have nobody : s.waitingOn linkId cls = [] := by
      cases cls <;> exact List.eq_nil_of_length_eq_zero (by omega)
    rw [nobody] at waits
    exact absurd waits List.not_mem_nil
  | succ count ih =>
    obtain ⟨served, serves⟩ := serves_onLinkFree (by omega : 0 < s.waitingCount linkId)
    have free : (s.onLinkFree linkId).isLinkBusy linkId = false := by
      rw [isLinkBusy_eq, link_onLinkFree, if_pos rfl]
    have waits' : task ∈ (s.onLinkFree linkId).waitingOn linkId cls := by
      rw [waitingOn_onLinkFree]
      exact waits
    have drained (n : Nat) : Runs.visits step s (drainLink linkId (n + 1)) =
        (s, .onLinkFree linkId) :: (s.onLinkFree linkId, .dequeueNext linkId) ::
          Runs.visits step ((s.onLinkFree linkId).dequeueNext linkId).1 (drainLink linkId n) := rfl
    by_cases valid : ((s.onLinkFree linkId).dequeueNext linkId).2.isValid
    · have remains : task ∈ ((s.onLinkFree linkId).dequeueNext linkId).1.waitingOn linkId cls := by
        apply waits_of_ne waits' serves
        rintro rfl
        exact invalid valid
      have fewer := waitingCount_fetch serves
      have same : (s.onLinkFree linkId).waitingCount linkId = s.waitingCount linkId := by
        simp only [waitingCount_eq, waitingOn_onLinkFree]
      obtain ⟨n, v, visited, blocked⟩ := ih (by omega) remains
      exists n + 1, v
      rw [drained]
      exact ⟨List.mem_cons_of_mem _ (List.mem_cons_of_mem _ visited), blocked⟩
    · exists 1, (s.onLinkFree linkId, .dequeueNext linkId)
      rw [drained]
      refine ⟨List.mem_cons_of_mem _ List.mem_cons_self, rfl, free, valid, ?_⟩
      rw [isLinkBusy_eq, busy_step, if_neg SchedulerCall.noConfusion, decide_eq_true rfl, ← serves_link, serves,
        Option.isSome_some, Bool.and_true, Bool.or_true]

theorem mem_drainLink {call : SchedulerCall} {n : Nat} (member : call ∈ drainLink linkId n) :
    call = .onLinkFree linkId ∨ call = .dequeueNext linkId := by
  obtain ⟨round, rounds, inside⟩ := List.mem_flatten.mp member
  rw [(List.mem_replicate.mp rounds).2] at inside
  simpa only [List.mem_cons, List.not_mem_nil, or_false] using inside

/-- A half-duplex link always refuses to hand out a task while it carries a frame. It is free after an
invalid task, however it is drained, exactly when no invalid task is enqueued on it. -/
theorem disciplined_iff (halfDuplex : params.isHalfDuplex) (steady : Steady linkId calls) :
    (∀ earlier between later, calls = earlier ++ .dequeueNext linkId :: (between ++ .dequeueNext linkId :: later) →
      ((withLink linkId params).fetched linkId earlier).isValid → .onLinkFree linkId ∉ between →
        (withLink linkId params).fetched linkId (earlier ++ .dequeueNext linkId :: between) = {}) ∧
    ((∀ begun, begun <+: calls → ∀ n, Disciplined linkId (withLink linkId params) (begun ++ drainLink linkId n)) ↔
      ∀ task, .enqueue task ∈ calls → task.linkId = linkId → task.isValid) := by
  refine ⟨fun earlier between later split => refused halfDuplex steady split, ?_, ?_⟩
  · intro disciplined task enqueued own
    by_contra invalid
    obtain ⟨begun, later, rfl⟩ := List.append_of_mem enqueued
    have within : begun ++ [.enqueue task] <+: begun ++ .enqueue task :: later := ⟨later, by simp⟩
    have waits : task ∈ (Runs.run step (withLink linkId params) (begun ++ [.enqueue task])).waitingOn linkId
        task.pollClass := by
      rw [Runs.run_concat, step, waitingOn_enqueue, if_pos ⟨own, rfl⟩]
      split
      · exact List.mem_cons_self
      · exact List.mem_append_right _ List.mem_cons_self
    obtain ⟨n, v, visited, fetch, free, bad, busy⟩ := exists_blocked _ rfl waits invalid
    have visited' : v ∈ Runs.visits step (withLink linkId params) (begun ++ [.enqueue task] ++ drainLink linkId n) := by
      rw [Runs.visits_append]
      exact List.mem_append_right _ visited
    have released := (disciplined _ within n).releases v visited' fetch free bad
    rw [busy] at released
    exact Bool.noConfusion released
  · intro comes begun within n
    apply disciplined_of_valid halfDuplex
    · refine List.forall_mem_append.mpr ⟨steady.of_prefix within, fun call member params => ?_⟩
      rcases mem_drainLink member with rfl | rfl <;> exact SchedulerCall.noConfusion
    · intro task member own
      rcases List.mem_append.mp member with among | draining
      · exact comes task (within.subset among) own
      · rcases mem_drainLink draining with other | other <;> cases other

end Links

/-- Two polls of a slave are queued and fetched one after the other. -/
def twoPolls : List SchedulerCall :=
  [.enqueue (.normal 2 1 1000), .enqueue (.normal 2 1 1000), .dequeueNext 1, .dequeueNext 1]

theorem twoPolls_disciplined : Disciplined 1 (withLink 1 {}) (twoPolls ++ drainLink 1 2) := by
  have steady : Steady 1 twoPolls := by
    simp [Steady, twoPolls]
  apply (disciplined_iff rfl steady).2.mpr _ twoPolls (List.prefix_refl _)
  intro task enqueued own
  simp only [twoPolls, List.mem_cons, SchedulerCall.enqueue.injEq, reduceCtorEq, List.not_mem_nil, or_false,
    or_self] at enqueued
  rw [enqueued]
  rfl

/-- A task for nobody is handed out: its caller sees an empty task, and the link stays busy. -/
theorem nobody_blocks :
    let calls := [.enqueue { linkId := 1 }, .dequeueNext 1, .enqueue (.normal 2 1 1000)]
    ((withLink 1 {}).fetched 1 [.enqueue { linkId := 1 }]).isValid = false ∧
      (Runs.run step (withLink 1 {}) calls).isLinkBusy 1 = true ∧ (withLink 1 {}).fetched 1 calls = {} ∧
      ¬Disciplined 1 (withLink 1 {}) calls := by
  have busy : (step (Runs.run step (withLink 1 {}) [.enqueue { linkId := 1 }]) (.dequeueNext 1)).1.isLinkBusy 1 =
      true := by decide
  refine ⟨by decide, by decide, by decide, fun disciplined => ?_⟩
  have released := disciplined.releases (Runs.run step (withLink 1 {}) [.enqueue { linkId := 1 }], .dequeueNext 1)
    (List.mem_cons_of_mem _ List.mem_cons_self) rfl (by decide) (by decide)
  rw [busy] at released
  exact Bool.noConfusion released

end PollScheduler
end EnerSentry.Protocol
