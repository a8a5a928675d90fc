import EnerSentry.Lib.Streaks
import EnerSentry.Protocol.LinkHistory

/-!
How long a task of one class can be kept waiting by another. The counter of control tasks is a
bound on those handed out while a normal task waits. It is not set back by tasks that are handed
out while no control task is queued, so it may count a burst that is over.
-/

namespace EnerSentry.Protocol
open EnerSentry.Lib EnerSentry.Lib.Streaks

namespace HandOut

def isControl (h : HandOut) : Bool := h.cls == .control

def isNormal (h : HandOut) : Bool := h.cls == .normal

/-- A normal task waits and is not handed out. -/
def passesNormal (h : HandOut) : Bool := !h.link.normalQueue.isEmpty && h.cls != .normal

/-- A low task waits, no control task does, and the low task is not handed out. -/
def passesLow (h : HandOut) : Bool :=
  !h.link.lowPriorityQueue.isEmpty && h.link.highPriorityQueue.isEmpty && h.cls != .low

end HandOut

/-- While a normal task waits, a bounded number of control tasks goes before it, and while a low one
waits and no control task is queued, a bounded number of normal tasks. -/
structure Bounded (params : LinkParams) (history : List HandOut) : Prop where
  controls : ∀ stretch, stretch <:+: history → (∀ h ∈ stretch, h.passesNormal) →
    stretch.countP HandOut.isControl ≤ params.maxConsecutiveSboBurst
  normals : ∀ stretch, stretch <:+: history → (∀ h ∈ stretch, h.passesLow) →
    stretch.countP HandOut.isNormal ≤ params.maxConsecutivePreempt

/-- A normal task goes before a waiting control task only right after a full burst. -/
def YieldsAfterBurst (params : LinkParams) (history : List HandOut) : Prop :=
  ∀ earlier h, earlier ++ [h] <+: history → h.cls = .normal → h.link.highPriorityQueue ≠ [] →
    ∃ burst, burst <:+ earlier ∧ (burst.length : Int) = params.maxConsecutiveSboBurst ∧ ∀ g ∈ burst, g.isControl

structure Fair (params : LinkParams) (history : List HandOut) : Prop extends Bounded params history where
  yields : YieldsAfterBurst params history

namespace PollScheduler

/-- A fetch that hands out another task than a control task, with none queued, finds the counter of
control tasks at 0. -/
def BurstSettled (linkId : UInt8) (s : PollScheduler) (call : SchedulerCall) : Prop :=
  call = .dequeueNext linkId → ¬((s.link linkId).params.isHalfDuplex ∧ (s.link linkId).busy) →
    (s.link linkId).highPriorityQueue = [] →
      ((s.link linkId).normalQueue ≠ [] ∨ (s.link linkId).lowPriorityQueue ≠ []) →
        (s.link linkId).consecutiveSboCount = 0

instance (linkId : UInt8) (s : PollScheduler) (call : SchedulerCall) : Decidable (BurstSettled linkId s call) :=
  inferInstanceAs (Decidable (_ → _))

/-- What the counters of a link say about its history. -/
structure Tallied (params : LinkParams) (link : LinkState) (history : List HandOut) : Prop where
  same : link.params = params
  sbos : (history.rtakeWhile HandOut.passesNormal).countP HandOut.isControl ≤ link.consecutiveSboCount
  controls : (history.rtakeWhile HandOut.passesNormal).countP HandOut.isControl ≤ params.maxConsecutiveSboBurst
  preempts : (history.rtakeWhile HandOut.passesLow).countP HandOut.isNormal ≤ link.consecutivePreemptCount
  normals : (history.rtakeWhile HandOut.passesLow).countP HandOut.isNormal ≤ params.maxConsecutivePreempt

section Counters
variable {params : LinkParams} {link link' : LinkState} {history : List HandOut} {cls : PollClass}

theorem Tallied.alike (tallied : Tallied params link history) (alike : link.Alike link') :
    Tallied params link' history := by
  constructor
  · rw [alike.params, tallied.same]
  · rw [alike.sbos]
    exact tallied.sbos
  · exact tallied.controls
  · rw [alike.preempts]
    exact tallied.preempts
  · exact tallied.normals

theorem Tallied.handOut (tallied : Tallied params link history) (burst : 1 ≤ params.maxConsecutiveSboBurst)
    (preempt : 1 ≤ params.maxConsecutivePreempt) (served : link.serves = some cls) :
    Tallied params link.dequeueNext.1 (history ++ [⟨link, cls⟩]) := by
  have counted := LinkState.counted served
  have sbos := tallied.sbos
  have controls := tallied.controls
  have preempts := tallied.preempts
  have normals := tallied.normals
  rw [← tallied.same] at burst preempt controls normals ⊢
  constructor
  · exact counted.params
  all_goals
    rw [countP_streak_concat]
    simp only [HandOut.passesNormal, HandOut.passesLow, HandOut.isControl, HandOut.isNormal]
    cases cls with
    | control =>
      have next := counted.control rfl
      grind
    | normal =>
      have next := counted.normal rfl
      grind
    | low =>
      have next := counted.low rfl
      grind

/-- The burst that the counter counts is the one at the end of the history. -/
def Counts (link : LinkState) (history : List HandOut) : Prop :=
  link.consecutiveSboCount = (history.rtakeWhile HandOut.isControl).length

theorem Counts.handOut (counts : Counts link history) (served : link.serves = some cls)
    (settled : cls ≠ .control → link.highPriorityQueue = [] → link.consecutiveSboCount = 0) :
    Counts link.dequeueNext.1 (history ++ [⟨link, cls⟩]) := by
  have counted := LinkState.counted served
  cases cls with
  | control =>
    rw [Counts, List.rtakeWhile_concat_pos _ _ _ rfl, List.length_append, (counted.control rfl).2.2.1, counts]
    rfl
  | normal =>
    rw [Counts, List.rtakeWhile_concat_neg _ _ _ Bool.false_ne_true]
    rcases counted.normal rfl with ⟨-, -, zero, -⟩ | ⟨none, -, kept, -⟩
    · exact zero
    · exact kept.trans (settled PollClass.noConfusion none)
  | low =>
    obtain ⟨none, kept, -⟩ := counted.low rfl
    rw [Counts, List.rtakeWhile_concat_neg _ _ _ Bool.false_ne_true]
    exact kept.trans (settled PollClass.noConfusion none)

end Counters

section Runs
variable {linkId : UInt8} {params : LinkParams} {calls : List SchedulerCall}

/-- The link is served at a fetch if it is free and anybody waits. -/
theorem serves_some_iff {link : LinkState} : link.serves ≠ none ↔
    ¬(link.params.isHalfDuplex ∧ link.busy) ∧
      (link.highPriorityQueue ≠ [] ∨ link.normalQueue ≠ [] ∨ link.lowPriorityQueue ≠ []) := by
  obtain ⟨high, normal, low, preempts, sbos, busy, params⟩ := link
  simp only [LinkState.serves]
  grind

theorem tallied (burst : 1 ≤ params.maxConsecutiveSboBurst) (preempt : 1 ≤ params.maxConsecutivePreempt)
    (steady : Steady linkId calls) :
    Tallied params ((Runs.run step (withLink linkId params) calls).link linkId)
      ((withLink linkId params).handOuts linkId calls) := by
  induction calls using List.reverseRecOn with
  | nil =>
    rw [Runs.run, link_withLink]
    constructor
    · rfl
    all_goals
      rw [handOuts, Runs.visits, List.flatMap_nil, List.rtakeWhile_nil, List.countP_nil]
      grind
  | append_singleton calls call ih =>
    have before := ih fun call member => steady call (List.mem_append_left _ member)
    have last := steady call (List.mem_append_right _ List.mem_cons_self)
    rw [Runs.run_concat, handOuts_concat]
    rcases step_link (Runs.run step (withLink linkId params) calls) last with
      ⟨alike, nothing⟩ | ⟨cls, rfl, served, next, handed⟩
    · rw [nothing, List.append_nil]
      exact before.alike alike
    · rw [next, handed]
      exact before.handOut burst preempt served

/-- The two bounds hold in every run. -/
theorem bounded (burst : 1 ≤ params.maxConsecutiveSboBurst) (preempt : 1 ≤ params.maxConsecutivePreempt)
    (steady : Steady linkId calls) : Bounded params ((withLink linkId params).handOuts linkId calls) := by
  have limit : (params.maxConsecutiveSboBurst.toNat : Int) = params.maxConsecutiveSboBurst := by omega
  have limit' : (params.maxConsecutivePreempt.toNat : Int) = params.maxConsecutivePreempt := by omega
  have along : ∀ history, history <+: (withLink linkId params).handOuts linkId calls →
      (history.rtakeWhile HandOut.passesNormal).countP HandOut.isControl ≤ params.maxConsecutiveSboBurst.toNat ∧
        (history.rtakeWhile HandOut.passesLow).countP HandOut.isNormal ≤ params.maxConsecutivePreempt.toNat := by
    intro history isPrefix
    obtain ⟨begun, within, rfl⟩ := exists_begun isPrefix
    have tally := tallied burst preempt (steady.of_prefix within)
    have controls := tally.controls
    have normals := tally.normals
    omega
  constructor
  · intro stretch within passes
    rw [← limit]
    exact_mod_cast countP_le_of_streaks (fun begun isPrefix => (along begun isPrefix).1) within passes
  · intro stretch within passes
    rw [← limit']
    exact_mod_cast countP_le_of_streaks (fun begun isPrefix => (along begun isPrefix).2) within passes

/-- As long as every call meets the condition, the counter counts the burst that goes on. -/
theorem counts (steady : Steady linkId calls)
    (settled : ∀ v ∈ Runs.visits step (withLink linkId params) calls, BurstSettled linkId v.1 v.2) :
    Counts ((Runs.run step (withLink linkId params) calls).link linkId)
      ((withLink linkId params).handOuts linkId calls) := by
  induction calls using List.reverseRecOn with
  | nil =>
    rw [Runs.run, link_withLink]
    rfl
  | append_singleton calls call ih =>
    rw [Runs.visits_concat, List.forall_mem_append, List.forall_mem_singleton] at settled
    have before := ih (fun call member => steady call (List.mem_append_left _ member)) settled.1
    have last := steady call (List.mem_append_right _ List.mem_cons_self)
    rw [Runs.run_concat, handOuts_concat]
    rcases step_link (Runs.run step (withLink linkId params) calls) last with
      ⟨alike, nothing⟩ | ⟨cls, rfl, served, next, handed⟩
    · rw [nothing, List.append_nil, Counts, alike.sbos]
      exact before
    · rw [next, handed]
      apply before.handOut served
      intro other none
      obtain ⟨free, waits⟩ := serves_some_iff.mp (served ▸ Option.some_ne_none cls)
      exact settled.2 rfl free none (waits.resolve_left (absurd none))

theorem yields_of_settled (burst : 1 ≤ params.maxConsecutiveSboBurst) (steady : Steady linkId calls)
    (settled : ∀ v ∈ Runs.visits step (withLink linkId params) calls, BurstSettled linkId v.1 v.2) :
    YieldsAfterBurst params ((withLink linkId params).handOuts linkId calls) := by
  induction calls using List.reverseRecOn with
  | nil =>
    intro earlier h isPrefix
    exact absurd (List.prefix_nil.mp isPrefix) (by simp)
  | append_singleton calls call ih =>
    have steadyBefore : Steady linkId calls := fun call member => steady call (List.mem_append_left _ member)
    rw [Runs.visits_concat, List.forall_mem_append, List.forall_mem_singleton] at settled
    have last := steady call (List.mem_append_right _ List.mem_cons_self)
    rw [handOuts_concat]
    rcases step_link (Runs.run step (withLink linkId params) calls) last with
      ⟨alike, nothing⟩ | ⟨cls, rfl, served, next, handed⟩
    · rw [nothing, List.append_nil]
      exact ih steadyBefore settled.1
    · rw [handed]
      intro earlier h isPrefix normal queued
      rcases List.prefix_concat_iff.mp isPrefix with whole | before
      · obtain ⟨rfl, same⟩ := List.append_inj' whole rfl
        obtain rfl := List.singleton_inj.mp same
        obtain rfl : cls = .normal := normal
        have full := ((LinkState.counted served).normal rfl).resolve_right fun other => queued other.1
        have tally := counts steadyBefore settled.1
        have same : ((Runs.run step (withLink linkId params) calls).link linkId).params = params :=
          link_params steadyBefore
        have long : params.maxConsecutiveSboBurst.toNat ≤
            (((withLink linkId params).handOuts linkId calls).rtakeWhile HandOut.isControl).length := by
          have limit := full.2.1
          rw [same, tally] at limit
          omega
        obtain ⟨burst', ends, length, controls⟩ := exists_stretch long
        exact ⟨burst', ends, by omega, controls⟩
      · exact ih steadyBefore settled.1 earlier h before normal queued

end Runs

section Rounds
variable {linkId : UInt8} {s : PollScheduler}

/-- A control task comes, the frame on the link is over, and the next task is fetched. -/
def controlRound (linkId : UInt8) : List SchedulerCall :=
  [.enqueue (.controlWrite 1 linkId), .onLinkFree linkId, .dequeueNext linkId]

/-- The link at the fetch of a round. -/
def roundLink (s : PollScheduler) (linkId : UInt8) : LinkState :=
  { s.link linkId with
    highPriorityQueue := .controlWrite 1 linkId :: (s.link linkId).highPriorityQueue
    busy := false }

theorem link_ready (s : PollScheduler) (linkId : UInt8) :
    (Runs.run step s [.enqueue (.controlWrite 1 linkId), .onLinkFree linkId]).link linkId = s.roundLink linkId := by
  have queued := (s.link_enqueue linkId (.controlWrite 1 linkId)).trans (if_pos rfl)
  simp only [Runs.run, step]
  rw [link_onLinkFree, if_pos rfl, queued]
  rfl

theorem round_settled (s : PollScheduler) (linkId : UInt8) :
    ∀ v ∈ Runs.visits step s (controlRound linkId), BurstSettled linkId v.1 v.2 := by
  simp only [controlRound, Runs.visits, List.forall_mem_cons]
  refine ⟨?_, ?_, fun _ _ none => ?_, List.forall_mem_nil _⟩
  · intro fetch
    cases fetch
  · intro fetch
    cases fetch
  · have ready := (congrArg LinkState.highPriorityQueue (s.link_ready linkId)).symm.trans none
    exact absurd ready (List.cons_ne_nil _ _)

theorem rounds_settled (n : Nat) (s : PollScheduler) (linkId : UInt8) :
    ∀ v ∈ Runs.visits step s (List.replicate n (controlRound linkId)).flatten, BurstSettled linkId v.1 v.2 := by
  induction n generalizing s with
  | zero => exact List.forall_mem_nil _
  | succ n ih =>
    rw [List.replicate_succ, List.flatten_cons, Runs.visits_append, List.forall_mem_append]
    exact ⟨s.round_settled linkId, ih _⟩

theorem rounds_steady (n : Nat) (linkId : UInt8) : Steady linkId (List.replicate n (controlRound linkId)).flatten := by
  intro call member params
  obtain ⟨round, rounds, inside⟩ := List.mem_flatten.mp member
  rw [(List.mem_replicate.mp rounds).2] at inside
  simp only [controlRound, List.mem_cons, List.not_mem_nil, or_false] at inside
  rcases inside with rfl | rfl | rfl <;> exact fun other => nomatch other

theorem round_link (s : PollScheduler) (linkId : UInt8) :
    (Runs.run step s (controlRound linkId)).link linkId = (s.roundLink linkId).dequeueNext.1 ∧
      s.handOuts linkId (controlRound linkId) = (s.roundLink linkId).serves.toList.map (⟨s.roundLink linkId, ·⟩) := by
  have ready := s.link_ready linkId
  constructor
  · rw [← ready]
    simp only [controlRound, Runs.run, step]
    rw [link_dequeueNext, if_pos rfl]
  · rw [← ready]
    simp only [controlRound, handOuts, Runs.visits, Runs.run, List.flatMap_cons, List.flatMap_nil, handOut, if_pos,
      List.nil_append, List.append_nil]

theorem serves_roundLink (s : PollScheduler) (linkId : UInt8) :
    ((s.link linkId).consecutiveSboCount < (s.link linkId).params.maxConsecutiveSboBurst →
      (s.roundLink linkId).serves = some .control) ∧
    ((s.link linkId).params.maxConsecutiveSboBurst ≤ (s.link linkId).consecutiveSboCount →
      (s.link linkId).normalQueue ≠ [] → (s.roundLink linkId).serves = some .normal) := by
  constructor
  · intro room
    simp [roundLink, LinkState.serves, Int.not_le.mpr room]
  · intro full waits
    obtain ⟨task, rest, normal⟩ := List.exists_cons_of_ne_nil waits
    simp [roundLink, LinkState.serves, full, normal]

/-- Below the limit, a round hands out the control task that has come. -/
theorem round_control (none : (s.link linkId).highPriorityQueue = [])
    (room : (s.link linkId).consecutiveSboCount < (s.link linkId).params.maxConsecutiveSboBurst) :
    let link' := (Runs.run step s (controlRound linkId)).link linkId
    link'.highPriorityQueue = [] ∧ link'.normalQueue = (s.link linkId).normalQueue ∧
      link'.params = (s.link linkId).params ∧
      link'.consecutiveSboCount = (s.link linkId).consecutiveSboCount + 1 ∧
      s.handOuts linkId (controlRound linkId) = [⟨s.roundLink linkId, .control⟩] := by
  obtain ⟨after, handed⟩ := round_link s linkId
  have served := (serves_roundLink s linkId).1 room
  have counted := LinkState.counted served
  obtain ⟨rest, front, queues⟩ := LinkState.dequeueNext_serves served
  have empty : rest = [] := ((List.cons.inj front).2.symm.trans none)
  rw [served] at handed
  intro link'
  refine ⟨?_, ?_, ?_, ?_, handed⟩
  · rw [show link' = _ from after]
    exact (queues .control).trans empty
  · rw [show link' = _ from after]
    exact queues .normal
  · rw [show link' = _ from after]
    exact counted.params
  · rw [show link' = _ from after]
    exact (counted.control rfl).2.2.1

/-- While the counter is below the limit, each round hands out the control task that has come. -/
theorem rounds_controls (n : Nat) (none : (s.link linkId).highPriorityQueue = [])
    (room : n ≤ ((s.link linkId).params.maxConsecutiveSboBurst - (s.link linkId).consecutiveSboCount).toNat) :
    let calls := (List.replicate n (controlRound linkId)).flatten
    let link' := (Runs.run step s calls).link linkId
    link'.normalQueue = (s.link linkId).normalQueue ∧
      link'.params = (s.link linkId).params ∧
      link'.consecutiveSboCount = (s.link linkId).consecutiveSboCount + n ∧
      (s.handOuts linkId calls).length = n ∧ ∀ h ∈ s.handOuts linkId calls, h.isControl := by
  induction n generalizing s with
  | zero => exact ⟨rfl, rfl, (Int.add_zero _).symm, rfl, fun h member => absurd member List.not_mem_nil⟩
  | succ n ih =>
    obtain ⟨empty, normal, params, sbo, handed⟩ := round_control none (by omega)
    have later := ih (s := Runs.run step s (controlRound linkId)) empty (by rw [params, sbo]; omega)
    obtain ⟨normal', params', sbo', length, controls⟩ := later
    simp only [List.replicate_succ, List.flatten_cons, Runs.run_append, handOuts_append, handed]
    refine ⟨normal'.trans normal, params'.trans params, ?_, ?_, ?_⟩
    · rw [sbo', sbo]
      omega
    · rw [List.length_append, length, List.length_singleton]
      omega
    · rw [List.forall_mem_append, List.forall_mem_singleton]
      exact ⟨rfl, controls⟩

/-- At the limit, a round hands out a normal task that waits and leaves its own waiting. -/
theorem round_yields (full : (s.link linkId).params.maxConsecutiveSboBurst ≤ (s.link linkId).consecutiveSboCount)
    (waits : (s.link linkId).normalQueue ≠ []) :
    s.handOuts linkId (controlRound linkId) = [⟨s.roundLink linkId, .normal⟩] := by
  rw [(round_link s linkId).2, (serves_roundLink s linkId).2 full waits]
  rfl

/-- A fetch with no control task queued hands out another task and leaves the counter as it is. -/
theorem after_uncontrolled {link : LinkState} {cls : PollClass} (served : link.serves = some cls)
    (none : link.highPriorityQueue = []) :
    ¬(⟨link, cls⟩ : HandOut).isControl ∧ link.dequeueNext.1.highPriorityQueue = [] ∧
      link.dequeueNext.1.params = link.params ∧
      link.dequeueNext.1.consecutiveSboCount = link.consecutiveSboCount := by
  have counted := LinkState.counted served
  obtain ⟨rest, front, queues⟩ := LinkState.dequeueNext_serves served
  cases cls with
  | control => exact absurd none (counted.control rfl).2.1
  | normal =>
    have kept := ((counted.normal rfl).resolve_left fun other => other.1 none).2.2.1
    exact ⟨Bool.false_ne_true, (queues .control).trans none, counted.params, kept⟩
  | low => exact ⟨Bool.false_ne_true, (queues .control).trans none, counted.params, (counted.low rfl).2.1⟩

/-- After another task that leaves the counter counting, a burst that is cut short can follow. -/
theorem exists_short_burst (s : PollScheduler) (linkId : UInt8) (earlier : List HandOut) {h : HandOut}
    (other : ¬h.isControl) (none : (s.link linkId).highPriorityQueue = [])
    (burst : 1 ≤ (s.link linkId).params.maxConsecutiveSboBurst) (left : 0 < (s.link linkId).consecutiveSboCount) :
    ∃ more, Steady linkId more ∧ (∀ v ∈ Runs.visits step s more, BurstSettled linkId v.1 v.2) ∧
      ¬YieldsAfterBurst (s.link linkId).params (earlier ++ [h] ++ s.handOuts linkId more) := by
  let n := ((s.link linkId).params.maxConsecutiveSboBurst - (s.link linkId).consecutiveSboCount).toNat
  let s' := s.enqueue (.normal 1 linkId 1000)
  have queued : s'.link linkId = (s.link linkId).enqueue (.normal 1 linkId 1000) :=
    (s.link_enqueue linkId (.normal 1 linkId 1000)).trans (if_pos rfl)
  have waits : (s'.link linkId).normalQueue ≠ [] := by
    rw [queued]
    exact List.concat_ne_nil _ _
  have alike := (s.link linkId).alike_enqueue (.normal 1 linkId 1000)
  rw [← queued] at alike
  have none' : (s'.link linkId).highPriorityQueue = [] := (congrArg LinkState.highPriorityQueue queued).trans none
  have room : n ≤ ((s'.link linkId).params.maxConsecutiveSboBurst - (s'.link linkId).consecutiveSboCount).toNat := by
    rw [alike.params, alike.sbos]
  obtain ⟨normal, params, sbo, length, controls⟩ := rounds_controls n none' room
  let bursts := (List.replicate n (controlRound linkId)).flatten
  have yielded : (Runs.run step s' bursts).handOuts linkId (controlRound linkId) =
      [⟨(Runs.run step s' bursts).roundLink linkId, .normal⟩] := by
    apply round_yields
    · rw [params, sbo, alike.params, alike.sbos]
      omega
    · rw [normal]
      exact waits
  have history : s.handOuts linkId (.enqueue (.normal 1 linkId 1000) :: (bursts ++ controlRound linkId)) =
      s'.handOuts linkId bursts ++ [⟨(Runs.run step s' bursts).roundLink linkId, .normal⟩] := by
    rw [← yielded, ← handOuts_append]
    rfl
  exists .enqueue (.normal 1 linkId 1000) :: (bursts ++ controlRound linkId)
  refine ⟨?_, ?_, ?_⟩
  · have steady := rounds_steady (n + 1) linkId
    rw [List.replicate_succ', List.flatten_append, List.flatten_singleton] at steady
    exact List.forall_mem_cons.mpr ⟨fun _ => (nomatch ·), steady⟩
  · have settled := rounds_settled (n + 1) s' linkId
    rw [List.replicate_succ', List.flatten_append, List.flatten_singleton] at settled
    exact List.forall_mem_cons.mpr ⟨(nomatch ·), settled⟩
  · intro yields
    rw [history, ← List.append_assoc, List.append_assoc earlier] at yields
    obtain ⟨burst', ends, full, all⟩ := yields _ _ (List.prefix_refl _) rfl (List.cons_ne_nil _ _)
    have within := (suffix_streak ends all).length_le
    rw [List.singleton_append, streak_after other controls, length] at within
    omega

end Rounds

section Law
variable {linkId : UInt8} {params : LinkParams} {calls : List SchedulerCall}

/-- Where a fetch finds the counter left over, calls that meet the condition lead on to a normal
task that goes before a control task too early. -/
theorem exists_unfair {begun : List SchedulerCall} {call : SchedulerCall} (burst : 1 ≤ params.maxConsecutiveSboBurst)
    (preempt : 1 ≤ params.maxConsecutivePreempt) (steady : Steady linkId begun)
    (left : ¬BurstSettled linkId (Runs.run step (withLink linkId params) begun) call) :
    ∃ more, Steady linkId more ∧
      (∀ v ∈ Runs.visits step (Runs.run step (withLink linkId params) (begun ++ [call])) more,
        BurstSettled linkId v.1 v.2) ∧
      ¬YieldsAfterBurst params ((withLink linkId params).handOuts linkId (begun ++ [call] ++ more)) := by
  simp only [BurstSettled, Classical.not_imp] at left
  obtain ⟨called, free, none, waits, left⟩ := left
  obtain ⟨cls, served⟩ := Option.ne_none_iff_exists'.mp (serves_some_iff.mpr ⟨free, Or.inr waits⟩)
  obtain ⟨another, none', params', counting⟩ := after_uncontrolled served none
  have tally := (tallied burst preempt steady).sbos
  have next : (Runs.run step (withLink linkId params) (begun ++ [call])).link linkId =
      ((Runs.run step (withLink linkId params) begun).link linkId).dequeueNext.1 := by
    rw [Runs.run_concat, called]
    exact (link_dequeueNext ..).trans (if_pos rfl)
  have handed : (Runs.run step (withLink linkId params) begun).handOut linkId call =
      [⟨(Runs.run step (withLink linkId params) begun).link linkId, cls⟩] := by
    rw [called, handOut, if_pos rfl, served]
    rfl
  have own : ((Runs.run step (withLink linkId params) begun).link linkId).params = params := link_params steady
  rw [← next] at none' params' counting
  obtain ⟨more, steadyMore, settled, short⟩ := exists_short_burst
    (Runs.run step (withLink linkId params) (begun ++ [call])) linkId ((withLink linkId params).handOuts linkId begun)
    another none' (by rw [params', own]; exact burst) (by rw [counting]; omega)
  rw [params', own] at short
  exists more, steadyMore, settled
  rw [handOuts_append, handOuts_concat, handed]
  exact short

end Law

/-- A link on which one control task is a full burst. -/
def shortBursts : LinkParams := { maxConsecutiveSboBurst := 1, isHalfDuplex := false }

/-- A control task and a normal one are handed out, and a normal and a control task come. -/
def burstOver : List SchedulerCall :=
  [.enqueue (.controlWrite 1 3), .dequeueNext 3, .enqueue (.normal 2 3 1000), .dequeueNext 3,
    .enqueue (.normal 2 3 1000), .enqueue (.controlWrite 1 3), .dequeueNext 3]

/-- The normal task waits through the burst and is handed out ahead of the next control task. -/
def burstInTurn : List SchedulerCall :=
  [.enqueue (.normal 2 3 1000), .enqueue (.controlWrite 1 3), .dequeueNext 3, .enqueue (.controlWrite 1 3),
    .dequeueNext 3, .dequeueNext 3]

end PollScheduler
end EnerSentry.Protocol
