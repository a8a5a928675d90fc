import EnerSentry.Protocol.SchedulerOrder

/-!
The history of one link of the scheduler: which queue each fetch was served from, and how the
link stood when it was. Calls for other links leave a link as it is.
-/

namespace EnerSentry.Protocol
open EnerSentry.Lib

/-- A fetch that was served: the link before it and the queue it was served from. -/
structure HandOut where
  link : LinkState
  cls : PollClass

namespace LinkState

/-- What a served fetch does to the two counters, and which limits it has respected. -/
structure Counted (link : LinkState) (cls : PollClass) : Prop where
  params : link.dequeueNext.1.params = link.params
  busy : link.dequeueNext.1.busy = true
  control : cls = .control →
    (link.consecutiveSboCount < link.params.maxConsecutiveSboBurst ∨ link.normalQueue = []) ∧
      link.highPriorityQueue ≠ [] ∧
      link.dequeueNext.1.consecutiveSboCount = link.consecutiveSboCount + 1 ∧
      link.dequeueNext.1.consecutivePreemptCount = link.consecutivePreemptCount + 1
  normal : cls = .normal →
    (link.highPriorityQueue ≠ [] ∧ link.params.maxConsecutiveSboBurst ≤ link.consecutiveSboCount ∧
        link.dequeueNext.1.consecutiveSboCount = 0 ∧ link.dequeueNext.1.consecutivePreemptCount = 0) ∨
      (link.highPriorityQueue = [] ∧
        (link.consecutivePreemptCount < link.params.maxConsecutivePreempt ∨ link.lowPriorityQueue = []) ∧
        link.dequeueNext.1.consecutiveSboCount = link.consecutiveSboCount ∧
        link.dequeueNext.1.consecutivePreemptCount = link.consecutivePreemptCount + 1)
  low : cls = .low →
    link.highPriorityQueue = [] ∧ link.dequeueNext.1.consecutiveSboCount = link.consecutiveSboCount ∧
      link.dequeueNext.1.consecutivePreemptCount = 0

theorem counted {link : LinkState} {cls : PollClass} (serves : link.serves = some cls) : link.Counted cls := by
  obtain ⟨high, normal, low, preempts, sbos, busy, params⟩ := link
  simp only [LinkState.serves] at serves
  split at serves
  · cases serves
  · rename_i free
    by_cases storm : params.maxConsecutiveSboBurst ≤ sbos <;>
      by_cases starved : params.maxConsecutivePreempt ≤ preempts <;>
      rcases high with _ | ⟨control, high⟩ <;> rcases normal with _ | ⟨next, normal⟩ <;>
      rcases low with _ | ⟨least, low⟩ <;>
      simp only [storm, starved, decide_true, decide_false] at serves <;> cases serves <;>
      constructor <;> simp [LinkState.dequeueNext, free, storm, starved] <;> omega

/-- A link that goes on with the same parameters and counters. -/
structure Alike (link link' : LinkState) : Prop where
  params : link'.params = link.params
  sbos : link'.consecutiveSboCount = link.consecutiveSboCount
  preempts : link'.consecutivePreemptCount = link.consecutivePreemptCount

theorem alike_enqueue (link : LinkState) (task : PollTask) : link.Alike (link.enqueue task) := by
  unfold LinkState.enqueue
  split
  · exact ⟨rfl, rfl, rfl⟩
  · split <;> exact ⟨rfl, rfl, rfl⟩

theorem busy_enqueue (link : LinkState) (task : PollTask) : (link.enqueue task).busy = link.busy := by
  unfold LinkState.enqueue
  split
  · rfl
  · split <;> rfl

end LinkState

namespace PollScheduler

/-- A link as the scheduler knows it, or with its defaults. -/
def link (s : PollScheduler) (linkId : UInt8) : LinkState := (s.links linkId).getD {}

/-- The fetch that a call serves on a link. -/
def handOut (s : PollScheduler) (linkId : UInt8) : SchedulerCall → List HandOut
  | .dequeueNext other => if other = linkId then (s.link linkId).serves.toList.map (⟨s.link linkId, ·⟩) else []
  | _ => []

/-- Everything that a run hands out on a link. -/
def handOuts (s : PollScheduler) (linkId : UInt8) (calls : List SchedulerCall) : List HandOut :=
  (Runs.visits step s calls).flatMap fun v => v.1.handOut linkId v.2

/-- A scheduler whose link has its parameters. -/
def withLink (linkId : UInt8) (params : LinkParams) : PollScheduler := ({} : PollScheduler).setLinkParams linkId params

/-- The calls do not set the parameters of the link. -/
def Steady (linkId : UInt8) (calls : List SchedulerCall) : Prop :=
  ∀ call ∈ calls, ∀ params, call ≠ .setLinkParams linkId params

section Links
variable (s : PollScheduler) (linkId other : UInt8)

theorem link_update (link : LinkState) :
    PollScheduler.link { s with links := Function.update s.links other (some link) } linkId =
      if linkId = other then link else s.link linkId := by
  simp only [PollScheduler.link]
  by_cases same : linkId = other
  · rw [if_pos same, same, Function.update_self]
    rfl
  · rw [if_neg same, Function.update_of_ne same]

/-- An unknown link is a link with the defaults. -/
theorem link_of_none (unknown : s.links other = none) (same : linkId = other) : s.link linkId = {} := by
  rw [PollScheduler.link, same, unknown]
  rfl

theorem link_setLinkParams (params : LinkParams) :
    (s.setLinkParams other params).link linkId =
      if linkId = other then { s.link other with params := params } else s.link linkId := s.link_update ..

theorem link_enqueue (task : PollTask) :
    (s.enqueue task).link linkId =
      if linkId = task.linkId then (s.link task.linkId).enqueue task else s.link linkId := s.link_update ..

theorem link_dequeueNext :
    (s.dequeueNext other).1.link linkId =
      if linkId = other then (s.link other).dequeueNext.1 else s.link linkId := by
  cases known : s.links other with
  | none =>
    have idle : (s.dequeueNext other).1 = s := by
      rw [dequeueNext, known]
    rw [idle]
    by_cases same : linkId = other
    · rw [if_pos same, s.link_of_none linkId other known same, s.link_of_none other other known rfl]
      rfl
    · rw [if_neg same]
  | some link =>
    have own : s.link other = link := by
      rw [PollScheduler.link, known]
      rfl
    rw [own, ← link_update, dequeueNext, known]

theorem link_onLinkFree :
    (s.onLinkFree other).link linkId =
      if linkId = other then { s.link other with busy := false } else s.link linkId := by
  cases known : s.links other with
  | none =>
    have idle : s.onLinkFree other = s := by
      rw [onLinkFree, known]
    rw [idle]
    by_cases same : linkId = other
    · rw [if_pos same, s.link_of_none linkId other known same, s.link_of_none other other known rfl]
    · rw [if_neg same]
  | some link =>
    have own : s.link other = link := by
      rw [PollScheduler.link, known]
      rfl
    rw [own, ← link_update, onLinkFree, known]

theorem dequeueNext_snd : (s.dequeueNext linkId).2 = (s.link linkId).dequeueNext.2 := by
  rw [dequeueNext, PollScheduler.link]
  cases s.links linkId <;> rfl

theorem serves_link : s.serves linkId = (s.link linkId).serves := by
  rw [serves, PollScheduler.link]
  cases s.links linkId <;> rfl

end Links

section History
variable {linkId : UInt8} {s : PollScheduler} {call : SchedulerCall}

theorem handOuts_concat (s : PollScheduler) (linkId : UInt8) (calls : List SchedulerCall) (call : SchedulerCall) :
    s.handOuts linkId (calls ++ [call]) =
      s.handOuts linkId calls ++ (Runs.run step s calls).handOut linkId call := by
  simp only [handOuts, Runs.visits_concat, List.flatMap_append, List.flatMap_singleton]

theorem handOuts_append (s : PollScheduler) (linkId : UInt8) (calls more : List SchedulerCall) :
    s.handOuts linkId (calls ++ more) =
      s.handOuts linkId calls ++ (Runs.run step s calls).handOuts linkId more := by
  simp only [handOuts, Runs.visits_append, List.flatMap_append]

/-- A call hands out one task at most. -/
theorem handOut_cases (s : PollScheduler) (linkId : UInt8) (call : SchedulerCall) :
    s.handOut linkId call = [] ∨ ∃ h, s.handOut linkId call = [h] := by
  cases call with
  | dequeueNext other =>
    by_cases own : other = linkId
    · rw [handOut, if_pos own]
      cases (s.link linkId).serves with
      | none => exact Or.inl rfl
      | some cls => exact Or.inr ⟨_, rfl⟩
    · exact Or.inl (if_neg own)
  | setLinkParams => exact Or.inl rfl
  | enqueue => exact Or.inl rfl
  | onLinkFree => exact Or.inl rfl

/-- A beginning of the history of a run is the history of a beginning of the run. -/
theorem exists_begun {calls : List SchedulerCall} {history : List HandOut}
    (isPrefix : history <+: s.handOuts linkId calls) :
    ∃ begun, begun <+: calls ∧ s.handOuts linkId begun = history := by
  induction calls using List.reverseRecOn with
  | nil =>
    exists []
    exact ⟨List.nil_prefix, (List.prefix_nil.mp isPrefix).symm⟩
  | append_singleton calls call ih =>
    have shorter : history <+: s.handOuts linkId calls →
        ∃ begun, begun <+: calls ++ [call] ∧ s.handOuts linkId begun = history := by
      intro before
      obtain ⟨begun, within, same⟩ := ih before
      exact ⟨begun, within.trans (List.prefix_append ..), same⟩
    rw [handOuts_concat] at isPrefix
    rcases handOut_cases (Runs.run step s calls) linkId call with nothing | ⟨h, handed⟩
    · rw [nothing, List.append_nil] at isPrefix
      exact shorter isPrefix
    · rw [handed] at isPrefix
      rcases List.prefix_concat_iff.mp isPrefix with whole | before
      · exists calls ++ [call]
        rw [handOuts_concat, handed, whole]
        exact ⟨List.prefix_refl _, rfl⟩
      · exact shorter before

/-- A call that does not set the parameters of a link is a fetch that it serves, or leaves its
parameters and counters alone. -/
theorem step_link (s : PollScheduler) {call : SchedulerCall} (steady : ∀ params, call ≠ .setLinkParams linkId params) :
    ((s.link linkId).Alike ((step s call).1.link linkId) ∧ s.handOut linkId call = []) ∨
      ∃ cls, call = .dequeueNext linkId ∧ (s.link linkId).serves = some cls ∧
        (step s call).1.link linkId = (s.link linkId).dequeueNext.1 ∧
        s.handOut linkId call = [⟨s.link linkId, cls⟩] := by
  have same : (s.link linkId).Alike (s.link linkId) := ⟨rfl, rfl, rfl⟩
  cases call with
  | setLinkParams other params =>
    left
    have apart : linkId ≠ other := fun own => steady params (by rw [own])
    rw [step, link_setLinkParams, if_neg apart]
    exact ⟨same, rfl⟩
  | enqueue task =>
    left
    rw [step, link_enqueue]
    split
    · rename_i own
      rw [own]
      exact ⟨LinkState.alike_enqueue .., rfl⟩
    · exact ⟨same, rfl⟩
  | dequeueNext other =>
    have next : (step s (.dequeueNext other)).1.link linkId =
        if linkId = other then (s.link other).dequeueNext.1 else s.link linkId := s.link_dequeueNext linkId other
    rw [next]
    by_cases own : linkId = other
    · subst own
      rw [if_pos rfl]
      have handed : s.handOut linkId (.dequeueNext linkId) =
          (s.link linkId).serves.toList.map (⟨s.link linkId, ·⟩) := if_pos rfl
      cases served : (s.link linkId).serves with
      | none =>
        left
        rw [LinkState.dequeueNext_idle served, handed, served]
        exact ⟨same, rfl⟩
      | some cls =>
        right
        rw [handed, served]
        exact ⟨cls, rfl, rfl, rfl, rfl⟩
    · left
      rw [if_neg own]
      exact ⟨same, if_neg (Ne.symm own)⟩
  | onLinkFree other =>
    left
    rw [step, link_onLinkFree]
    split
    · rename_i own
      rw [own]
      exact ⟨⟨rfl, rfl, rfl⟩, rfl⟩
    · exact ⟨same, rfl⟩

end History

section SteadyLinks
variable {linkId : UInt8} {params : LinkParams} {calls : List SchedulerCall}

theorem Steady.of_prefix {begun : List SchedulerCall} (steady : Steady linkId calls) (isPrefix : begun <+: calls) :
    Steady linkId begun := fun call member => steady call (isPrefix.subset member)

theorem link_withLink : (withLink linkId params).link linkId = { params := params } := by
  rw [withLink, link_setLinkParams, if_pos rfl]
  rfl

theorem link_params (steady : Steady linkId calls) :
    ((Runs.run step (withLink linkId params) calls).link linkId).params = params := by
  induction calls using List.reverseRecOn with
  | nil => rw [Runs.run, link_withLink]
  | append_singleton calls call ih =>
    have before := ih fun call member => steady call (List.mem_append_left _ member)
    have last := steady call (List.mem_append_right _ List.mem_cons_self)
    rw [Runs.run_concat]
    rcases step_link (Runs.run step (withLink linkId params) calls) last with
      ⟨alike, -⟩ | ⟨cls, -, served, next, -⟩
    · rw [alike.params, before]
    · rw [next, (LinkState.counted served).params, before]

end SteadyLinks
end PollScheduler
end EnerSentry.Protocol
