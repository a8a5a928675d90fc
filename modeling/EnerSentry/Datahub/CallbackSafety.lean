import Mathlib.Algebra.GroupWithZero.Nat
import EnerSentry.Datahub.Subscriptions

/-!
Broadcasts whose callbacks call the bus again. A broadcast collects its targets at once and calls them one
by one; in between, the callbacks and other threads may subscribe, unsubscribe and broadcast. A target
that is unsubscribed in between is still called.
-/

namespace EnerSentry.Datahub
open EnerSentry.Lib

variable {σ K : Type*}

namespace DataBus

/-- The handle that leads to a place of the table. -/
def handleAt (bus : DataBus σ) (place : Nat) : Option Nat :=
  (bus.handleIndex.toList.find? fun hit => hit.2 = place).map Prod.fst

/-- The targets of a broadcast with the handles on whose behalf they are called. -/
def collected (bus : DataBus σ) (pointId : UInt32) : List (Nat × σ) :=
  bus.entries.zipIdx.filterMap fun (e, place) =>
    if e.matchesPoint pointId then e.sub.map fun sub => ((bus.handleAt place).getD 0, sub) else none

/-- Without their handles they are the targets that the broadcast collects. -/
theorem collected_targets (bus : DataBus σ) (pointId : UInt32) :
    (bus.collected pointId).map Prod.snd = bus.targets pointId := by
  have entries : bus.entries = bus.entries.zipIdx.map Prod.fst := by simp
  rw [collected, targets, entries, List.map_filterMap, List.filterMap_map, ← entries]
  congr 1
  funext row
  obtain ⟨e, place⟩ := row
  simp only [Function.comp]
  split
  · cases e.sub <;> rfl
  · rfl

/-- Whoever is collected is in force. -/
theorem Linked.collected_live {bus : DataBus σ} {slots : Subscriptions σ} (linked : bus.Linked slots)
    {pointId : UInt32} {target : Nat × σ} (target_mem : target ∈ bus.collected pointId) :
    target.1 ∈ slots.handles := by
  obtain ⟨⟨e, place⟩, listed, collects⟩ := List.mem_filterMap.mp target_mem
  have inside : place < slots.handles.length := by
    rw [linked.length_handles]
    exact List.snd_lt_of_mem_zipIdx listed
  have here : slots.handles[place]? = some slots.handles[place] := List.getElem?_eq_getElem inside
  have leads : bus.handleAt place = some slots.handles[place] := by
    have found : bus.handleIndex.toList.find? (fun hit => hit.2 = place) = some (slots.handles[place], place) :=
      linked.find_place (HashOrder.insertion _) here
    exact congrArg (Option.map Prod.fst) found
  dsimp only at collects
  split at collects
  · obtain ⟨sub, -, rfl⟩ := Option.map_eq_some_iff.mp collects
    rw [leads]
    exact List.getElem_mem inside
  · cases collects

end DataBus

/-- The bus and the broadcasts under way, the innermost first, each with its sample and the targets that it
has still to call. -/
structure DispatchingBus (σ K : Type*) where
  bus : DataBus σ := {}
  frames : List (Sample K × List (Nat × σ)) := []

/-- What happens one after the other: the calls that callbacks and others make, and the next call of the
innermost broadcast, which ends when it has no target left. -/
inductive DispatchCall (σ K : Type*) where
  | subscribe (pointId : UInt32) (sub : Option σ)
  | subscribeWildcard (sub : Option σ)
  | unsubscribe (handle : Nat)
  | broadcast (s : Sample K)
  | callNext
  deriving DecidableEq, Repr

inductive DispatchOutput (σ K : Type*) where
  | subscribed (handle : Nat)
  | unsubscribed (handle : Nat) (done : Bool)
  | onSample (handle : Nat) (sub : σ) (s : Sample K)
  deriving DecidableEq, Repr

namespace DispatchingBus

def step (order : HashOrder (Nat × Nat)) :
    Runs.Step (DispatchingBus σ K) (DispatchCall σ K) (DispatchOutput σ K) := fun w call =>
  match call with
  | .subscribe pointId sub =>
      let (bus, handle) := w.bus.subscribe pointId sub
      ({ w with bus := bus }, [.subscribed handle])
  | .subscribeWildcard sub =>
      let (bus, handle) := w.bus.subscribeWildcard sub
      ({ w with bus := bus }, [.subscribed handle])
  | .unsubscribe handle =>
      let (bus, done) := w.bus.unsubscribe order handle
      ({ w with bus := bus }, [.unsubscribed handle done])
  | .broadcast s => ({ w with frames := (s, w.bus.collected s.pointId) :: w.frames }, [])
  | .callNext =>
      match w.frames with
      | [] => (w, [])
      | (_, []) :: outer => ({ w with frames := outer }, [])
      | (s, (handle, sub) :: rest) :: outer =>
          ({ w with frames := (s, rest) :: outer }, [.onSample handle sub s])

def remaining (w : DispatchingBus σ K) : Nat := (w.frames.map fun frame => frame.2.length + 1).sum

/-- The broadcasts under way run to their ends, and nothing else happens. -/
def finishing (w : DispatchingBus σ K) : List (DispatchCall σ K) := List.replicate w.remaining .callNext

/-- A broadcast under way has still to call the handle. -/
def Pending (w : DispatchingBus σ K) (handle : Nat) : Prop :=
  ∃ frame ∈ w.frames, handle ∈ frame.2.map Prod.fst

/-- A handle is unsubscribed that a broadcast under way has still to call. -/
def cutsOff (w : DispatchingBus σ K) : DispatchCall σ K → Prop
  | .unsubscribe handle => (w.bus.handleIndex[handle]?).isSome ∧ w.Pending handle
  | _ => False

/-- After a handle has been unsubscribed with success, nobody is called on its behalf. -/
def Silent (out : List (DispatchOutput σ K)) : Prop :=
  out.Pairwise fun earlier later => ∀ handle, earlier = .unsubscribed handle true →
    ∀ sub s, later ≠ .onSample handle sub s

/-- The table is linked, unsubscribed handles have left it for good, and nobody has been called after his
handle was unsubscribed nor will be. -/
structure Settled (w : DispatchingBus σ K) (out : List (DispatchOutput σ K)) : Prop where
  linked : ∃ slots, w.bus.Linked slots ∧ ∀ handle, .unsubscribed handle true ∈ out →
    handle ∉ slots.handles ∧ handle < w.bus.nextHandle
  pending : ∀ handle, w.Pending handle → .unsubscribed handle true ∉ out
  silent : Silent out

theorem settled_fresh : Settled ({} : DispatchingBus σ K) [] :=
  ⟨⟨[], DataBus.linked_empty, fun _ gone => nomatch gone⟩, fun _ pending => by simp [Pending] at pending,
    List.Pairwise.nil⟩

/-- What is put out that calls nobody who is gone. -/
theorem Silent.concat {out : List (DispatchOutput σ K)} (silent : Silent out) {o : DispatchOutput σ K}
    (spares : ∀ handle sub s, o = .onSample handle sub s → .unsubscribed handle true ∉ out) :
    Silent (out ++ [o]) := by
  refine List.pairwise_append.mpr ⟨silent, List.pairwise_singleton .., fun earlier member later last => ?_⟩
  rintro handle rfl sub s rfl
  exact spares handle sub s (List.mem_singleton.mp last).symm member

section Settled
variable {w : DispatchingBus σ K} {out : List (DispatchOutput σ K)} (settled : Settled w out)
include settled

/-- An answer that unsubscribes nobody. -/
theorem Settled.subscribed (handle : Nat) : Settled w (out ++ [.subscribed handle]) := by
  have same (other : Nat) : .unsubscribed other true ∈ out ++ [.subscribed handle] ↔
      .unsubscribed other true ∈ out := by simp
  refine ⟨?_, fun other pending => ?_, settled.silent.concat (fun _ _ _ other => nomatch other)⟩
  · simpa only [same] using settled.linked
  · rw [same]
    exact settled.pending other pending

theorem Settled.subscribe (pointId : UInt32) (sub : Option σ) :
    Settled { w with bus := (w.bus.subscribe pointId sub).1 }
      (out ++ [.subscribed (w.bus.subscribe pointId sub).2]) := by
  cases sub with
  | none => exact settled.subscribed 0
  | some sub =>
    obtain ⟨⟨slots, linked, gone⟩, pending, silent⟩ := settled.subscribed w.bus.nextHandle
    refine ⟨⟨_, linked.subscribe pointId sub, fun handle left => ?_⟩, pending, silent⟩
    obtain ⟨absent, issued⟩ := gone handle left
    refine ⟨?_, Nat.lt_succ_of_lt issued⟩
    rw [Subscriptions.handles, List.map_append, List.mem_append, not_or]
    exact ⟨absent, by simpa using issued.ne⟩

theorem Settled.unsubscribe (order : HashOrder (Nat × Nat)) {handle : Nat}
    (spares : ¬w.cutsOff (.unsubscribe handle)) :
    Settled { w with bus := (w.bus.unsubscribe order handle).1 }
      (out ++ [.unsubscribed handle (w.bus.unsubscribe order handle).2]) := by
  obtain ⟨⟨slots, linked, gone⟩, pending, silent⟩ := settled
  have silent' (done : Bool) : Silent (out ++ [.unsubscribed handle done]) :=
    silent.concat fun _ _ _ other => nomatch other
  by_cases known : handle ∈ slots.handles
  · obtain ⟨place, entry, found⟩ := Subscriptions.exists_place known
    have done : (w.bus.unsubscribe order handle).2 = true := (linked.unsubscribe found).1
    have after : (w.bus.unsubscribe order handle).1.Linked (Lib.swapRemove slots place) :=
      (linked.unsubscribe found).2
    have leads : w.bus.handleIndex[handle]? = some place :=
      (linked.index handle place).mpr (by simp [Subscriptions.handles, found])
    rw [done]
    refine ⟨⟨_, after, fun other left => ?_⟩, fun other waits left => ?_, silent' true⟩
    · rw [linked.handles_swapRemove found, DataBus.nextHandle_unsubscribe]
      rcases List.mem_append.mp left with before | now
      · exact ⟨fun remains => (gone other before).1 remains.2, (gone other before).2⟩
      · obtain rfl : other = handle := by simpa using now
        exact ⟨fun remains => remains.1 rfl, (linked.issued other known).2⟩
    · rcases List.mem_append.mp left with before | now
      · exact pending other waits before
      · obtain rfl : other = handle := by simpa using now
        exact spares ⟨by rw [leads]; rfl, waits⟩
  · rw [linked.unsubscribe_unknown known]
    have same (other : Nat) : .unsubscribed other true ∈ out ++ [.unsubscribed handle false] ↔
        .unsubscribed other true ∈ out := by simp
    refine ⟨⟨slots, linked, ?_⟩, fun other waits => ?_, silent' false⟩
    · simpa only [same] using gone
    · rw [same]
      exact pending other waits

theorem Settled.broadcast (s : Sample K) :
    Settled { w with frames := (s, w.bus.collected s.pointId) :: w.frames } out := by
  obtain ⟨⟨slots, linked, gone⟩, pending, silent⟩ := settled
  refine ⟨⟨slots, linked, gone⟩, fun handle waits left => ?_, silent⟩
  obtain ⟨frame, listed, waits⟩ := waits
  rcases List.mem_cons.mp listed with rfl | outer
  · obtain ⟨target, collects, rfl⟩ := List.mem_map.mp waits
    exact (gone target.1 left).1 (linked.collected_live collects)
  · exact pending handle ⟨frame, outer, waits⟩ left

theorem Settled.callNext (order : HashOrder (Nat × Nat)) :
    Settled (step order w .callNext).1 (out ++ (step order w .callNext).2) := by
  obtain ⟨linked, pending, silent⟩ := settled
  rcases w with ⟨bus, _ | ⟨⟨s, _ | ⟨⟨handle, sub⟩, rest⟩⟩, outer⟩⟩
  · simpa only [step, List.append_nil] using ⟨linked, pending, silent⟩
  · simp only [step, List.append_nil]
    refine ⟨linked, fun other waits => pending other ?_, silent⟩
    obtain ⟨frame, listed, waits⟩ := waits
    exact ⟨frame, List.mem_cons_of_mem _ listed, waits⟩
  · have called : .unsubscribed handle true ∉ out := pending handle ⟨_, List.mem_cons_self .., by simp⟩
    have same (other : Nat) : .unsubscribed other true ∈ out ++ [.onSample handle sub s] ↔
        .unsubscribed other true ∈ out := by simp
    refine ⟨?_, fun other waits => ?_, silent.concat ?_⟩
    · simpa only [step, same] using linked
    · simp only [step, same]
      apply pending other
      obtain ⟨frame, listed, waits⟩ := waits
      rcases List.mem_cons.mp listed with rfl | later
      · exact ⟨_, List.mem_cons_self .., List.mem_cons_of_mem _ waits⟩
      · exact ⟨frame, List.mem_cons_of_mem _ later, waits⟩
    · rintro _ _ _ ⟨⟩
      exact called

theorem settled_step (order : HashOrder (Nat × Nat)) {call : DispatchCall σ K} (spares : ¬w.cutsOff call) :
    Settled (step order w call).1 (out ++ (step order w call).2) := by
  cases call with
  | subscribe pointId sub => exact settled.subscribe pointId sub
  | subscribeWildcard sub => exact settled.subscribe kWildcardPointId sub
  | unsubscribe handle => exact settled.unsubscribe order spares
  | broadcast s => simpa only [step, List.append_nil] using settled.broadcast s
  | callNext => exact settled.callNext order

end Settled

theorem silent_run (order : HashOrder (Nat × Nat)) (calls : List (DispatchCall σ K))
    (spares : ∀ v ∈ Runs.visits (step order) {} calls, ¬v.1.cutsOff v.2) :
    Settled (Runs.run (step order) {} calls) (Runs.outputs (step order) {} calls) :=
  Runs.history_invariant (step order) calls settled_fresh
    (fun _ _ _ settled spares => settled_step settled order spares) spares

theorem linked_step (order : HashOrder (Nat × Nat)) {w : DispatchingBus σ K} (call : DispatchCall σ K)
    (linked : ∃ slots, w.bus.Linked slots) : ∃ slots, (step order w call).1.bus.Linked slots := by
  obtain ⟨slots, linked⟩ := linked
  have subscribes (pointId : UInt32) (sub : Option σ) : ∃ slots, (w.bus.subscribe pointId sub).1.Linked slots := by
    cases sub with
    | none => exact ⟨slots, linked⟩
    | some sub => exact ⟨_, linked.subscribe pointId sub⟩
  cases call with
  | subscribe pointId sub => exact subscribes pointId sub
  | subscribeWildcard sub => exact subscribes kWildcardPointId sub
  | unsubscribe handle =>
    by_cases known : handle ∈ slots.handles
    · obtain ⟨place, entry, found⟩ := Subscriptions.exists_place known
      exact ⟨_, (linked.unsubscribe found).2⟩
    · refine ⟨slots, ?_⟩
      simp only [step, linked.unsubscribe_unknown known]
      exact linked
  | broadcast s => exact ⟨slots, linked⟩
  | callNext =>
    refine ⟨slots, ?_⟩
    simp only [step]
    split <;> exact linked

/-- A handle that is led to a place is unsubscribed with success. -/
theorem unsubscribe_leads {bus : DataBus σ} {slots : Subscriptions σ} (linked : bus.Linked slots)
    (order : HashOrder (Nat × Nat)) {handle : Nat} (leads : (bus.handleIndex[handle]?).isSome) :
    (bus.unsubscribe order handle).2 = true := by
  obtain ⟨place, leads⟩ := Option.isSome_iff_exists.mp leads
  have known : handle ∈ slots.handles := List.mem_of_getElem? ((linked.index handle place).mp leads)
  obtain ⟨place, entry, found⟩ := Subscriptions.exists_place known
  exact (linked.unsubscribe found).1

/-- A target is called by the next call of a broadcast, or goes on waiting. -/
theorem pending_step (order : HashOrder (Nat × Nat)) {w : DispatchingBus σ K} {handle : Nat}
    (pending : w.Pending handle) (call : DispatchCall σ K) :
    (∃ sub s, .onSample handle sub s ∈ (step order w call).2) ∨ (step order w call).1.Pending handle := by
  cases call with
  | subscribe pointId sub => exact Or.inr pending
  | subscribeWildcard sub => exact Or.inr pending
  | unsubscribe removed => exact Or.inr pending
  | broadcast s =>
    obtain ⟨frame, listed, waits⟩ := pending
    exact Or.inr ⟨frame, List.mem_cons_of_mem _ listed, waits⟩
  | callNext =>
    obtain ⟨frame, listed, waits⟩ := pending
    rcases w with ⟨bus, _ | ⟨⟨s, _ | ⟨⟨first, sub⟩, rest⟩⟩, outer⟩⟩
    · cases listed
    · rcases List.mem_cons.mp listed with rfl | later
      · cases waits
      · exact Or.inr ⟨frame, later, waits⟩
    · rcases List.mem_cons.mp listed with rfl | later
      · rcases List.mem_cons.mp waits with rfl | waits
        · exact Or.inl ⟨sub, s, List.mem_singleton.mpr rfl⟩
        · exact Or.inr ⟨_, List.mem_cons_self .., waits⟩
      · exact Or.inr ⟨frame, List.mem_cons_of_mem _ later, waits⟩

theorem remaining_callNext (order : HashOrder (Nat × Nat)) (w : DispatchingBus σ K) :
    (step order w .callNext).1.remaining = w.remaining - 1 := by
  rcases w with ⟨bus, _ | ⟨⟨s, _ | ⟨⟨first, sub⟩, rest⟩⟩, outer⟩⟩
  · rfl
  · simp [step, remaining]
  · simp [step, remaining]

/-- Whoever waits is called before the broadcasts under way have ended. -/
theorem called_finishing (order : HashOrder (Nat × Nat)) {w : DispatchingBus σ K} {handle : Nat}
    (pending : w.Pending handle) (rounds : Nat) (count : w.remaining = rounds) :
    ∃ sub s, .onSample handle sub s ∈ Runs.outputs (step order) w (List.replicate rounds .callNext) := by
  induction rounds generalizing w with
  | zero =>
    rcases w with ⟨bus, _ | ⟨first, outer⟩⟩
    · obtain ⟨frame, listed, -⟩ := pending
      cases listed
    · simp [remaining] at count
  | succ rounds ih =>
    simp only [List.replicate_succ, Runs.outputs, List.mem_append]
    rcases pending_step order pending .callNext with ⟨sub, s, called⟩ | waits
    · exact ⟨sub, s, Or.inl called⟩
    · obtain ⟨sub, s, later⟩ := ih waits (by rw [remaining_callNext, count]; rfl)
      exact ⟨sub, s, Or.inr later⟩

theorem called_eventually (order : HashOrder (Nat × Nat)) {w : DispatchingBus σ K} {handle : Nat}
    (pending : w.Pending handle) (calls : List (DispatchCall σ K)) :
    ∃ sub s, .onSample handle sub s ∈
      Runs.outputs (step order) w (calls ++ (Runs.run (step order) w calls).finishing) := by
  induction calls generalizing w with
  | nil => exact called_finishing order pending _ rfl
  | cons call calls ih =>
    simp only [List.cons_append, Runs.outputs, Runs.run, List.mem_append]
    rcases pending_step order pending call with ⟨sub, s, called⟩ | waits
    · exact ⟨sub, s, Or.inl called⟩
    · obtain ⟨sub, s, later⟩ := ih waits
      exact ⟨sub, s, Or.inr later⟩

/-- When all broadcasts of a run have ended, nobody has been called after his handle was unsubscribed
exactly if no handle was unsubscribed that a broadcast under way had still to call. -/
theorem no_callback_iff (order : HashOrder (Nat × Nat)) (calls : List (DispatchCall σ K)) :
    Silent (Runs.outputs (step order) {} (calls ++ (Runs.run (step order) {} calls).finishing)) ↔
      ∀ v ∈ Runs.visits (step order) {} calls, ¬v.1.cutsOff v.2 := by
  constructor
  · rintro silent ⟨w, call⟩ visited cuts
    obtain ⟨slots, linked⟩ := Runs.reached_always (step order) calls (I := fun w => ∃ slots, w.bus.Linked slots)
      ⟨[], DataBus.linked_empty⟩ (fun _ call linked => linked_step order call linked) w
      (Runs.visit_mem_reached visited).1
    obtain ⟨before, after, split, state⟩ := Runs.exists_split visited
    dsimp only at split state
    cases call with
    | unsubscribe handle =>
      obtain ⟨leads, pending⟩ := cuts
      have done := unsubscribe_leads linked order leads
      obtain ⟨sub, s, called⟩ := called_eventually order
        (show (step order w (.unsubscribe handle)).1.Pending handle from pending) after
      rw [split, Runs.run_append, List.append_assoc, Runs.outputs_append, ← state] at silent
      have from_here := (List.pairwise_append.mp silent).2.1
      have answer : (step order w (.unsubscribe handle : DispatchCall σ K)).2 = [.unsubscribed handle true] :=
        congrArg (fun done => [DispatchOutput.unsubscribed handle done]) done
      rw [List.cons_append, Runs.outputs, answer] at from_here
      exact List.rel_of_pairwise_cons from_here called handle rfl sub s rfl
    | subscribe => exact cuts
    | subscribeWildcard => exact cuts
    | broadcast => exact cuts
    | callNext => exact cuts
  · intro spares
    apply (silent_run order _ _).silent
    intro v visited
    rw [Runs.visits_append] at visited
    rcases List.mem_append.mp visited with early | late
    · exact spares v early
    · -- what ends the broadcasts unsubscribes nobody
      have next : v.2 = .callNext := by
        have called := List.mem_map_of_mem (f := Prod.snd) late
        rw [Runs.visits_map_snd] at called
        exact List.eq_of_mem_replicate called
      rw [next]
      exact not_false

/-- The callback of the first subscriber unsubscribes the second one. -/
def unsubscribesOther : List (DispatchCall Nat Nat) :=
  [.subscribe 7 (some 1), .subscribe 7 (some 2), .broadcast ⟨0, 7, 0⟩, .callNext, .unsubscribe 2]

theorem called_unsubscribed :
    ¬∀ calls : List (DispatchCall Nat Nat), Silent (Runs.outputs (step (HashOrder.insertion _)) {}
      (calls ++ (Runs.run (step (HashOrder.insertion _)) {} calls).finishing)) := by
  intro claimed
  have out : Runs.outputs (step (HashOrder.insertion _)) {} (unsubscribesOther ++
      (Runs.run (step (HashOrder.insertion _)) {} unsubscribesOther).finishing) =
        [.subscribed 1, .subscribed 2, .onSample 1 1 ⟨0, 7, 0⟩, .unsubscribed 2 true,
          .onSample 2 2 ⟨0, 7, 0⟩] := by decide +kernel
  have silent := claimed unsubscribesOther
  rw [out] at silent
  have last : Silent [.unsubscribed 2 true, .onSample 2 2 ⟨0, 7, 0⟩] :=
    List.Pairwise.sublist (by decide) silent
  exact List.rel_of_pairwise_cons last (List.mem_singleton.mpr rfl) 2 rfl 2 ⟨0, 7, 0⟩ rfl

end DispatchingBus
end EnerSentry.Datahub
