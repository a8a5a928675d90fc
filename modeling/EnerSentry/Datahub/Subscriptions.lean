import EnerSentry.Lib.Runs
import EnerSentry.Lib.SwapRemove
import EnerSentry.Lib.TreeRows
import EnerSentry.Datahub.DataBus

/-!
The subscriptions of the bus over whole runs. Beside the bus stands the list of the subscriptions that are
in force, read off what the calls return. The table holds exactly these, in an order of its own, and
the index leads every handle to its entry.
-/

namespace EnerSentry.Datahub
open EnerSentry.Lib

variable {σ K : Type*}

inductive BusCall (σ K : Type*) where
  | subscribe (pointId : UInt32) (sub : Option σ)
  | subscribeWildcard (sub : Option σ)
  | unsubscribe (handle : Nat)
  | broadcast (s : Sample K)
  deriving DecidableEq, Repr

/-- What a call returns, and the calls that a broadcast makes. -/
inductive BusOutput (σ K : Type*) where
  | subscribed (handle : Nat)
  | unsubscribed (handle : Nat) (done : Bool)
  | onSample (sub : σ) (s : Sample K)
  deriving DecidableEq, Repr

namespace BusOutput

def isSubscribed (handle : Nat) : BusOutput σ K → Bool
  | .subscribed returned => returned == handle
  | _ => false

def isUnsubscribed (handle : Nat) : BusOutput σ K → Bool
  | .unsubscribed returned done => returned == handle && done
  | _ => false

end BusOutput

/-- The machine of the calls made outside callbacks. -/
def DataBus.step (order : HashOrder (Nat × Nat)) : Runs.Step (DataBus σ) (BusCall σ K) (BusOutput σ K) :=
  fun bus call =>
    match call with
    | .subscribe pointId sub =>
        let (bus, handle) := bus.subscribe pointId sub
        (bus, [.subscribed handle])
    | .subscribeWildcard sub =>
        let (bus, handle) := bus.subscribeWildcard sub
        (bus, [.subscribed handle])
    | .unsubscribe handle =>
        let (bus, done) := bus.unsubscribe order handle
        (bus, [.unsubscribed handle done])
    | .broadcast s => (bus, (bus.broadcast s).map fun call => .onSample call.1 call.2)

/-- Subscriptions under their handles. -/
abbrev Subscriptions (σ : Type*) := List (Nat × BusEntry σ)

@[simp] theorem DataBus.nextHandle_unsubscribe (order : HashOrder (Nat × Nat)) (bus : DataBus σ) (handle : Nat) :
    (bus.unsubscribe order handle).1.nextHandle = bus.nextHandle := by
  simp only [DataBus.unsubscribe, DataBus.unsubscribeImpl_locked]
  split
  · rfl
  · split <;> rfl

namespace Subscriptions

def handles (live : Subscriptions σ) : List Nat := live.map Prod.fst

/-- The subscribers of a point, once for each handle. -/
def heard (live : Subscriptions σ) (pointId : UInt32) : List σ :=
  live.filterMap fun entry => if entry.2.matchesPoint pointId then entry.2.sub else none

/-- A handle that is returned is in force until it is unsubscribed with success. -/
def track (_ : DataBus σ) (live : Subscriptions σ) (call : BusCall σ K) (out : List (BusOutput σ K)) :
    Subscriptions σ :=
  match call, out with
  | .subscribe pointId sub, [.subscribed handle] =>
      if handle = 0 then live else live ++ [(handle, { pointId := pointId, sub := sub })]
  | .subscribeWildcard sub, [.subscribed handle] =>
      if handle = 0 then live else live ++ [(handle, { pointId := kWildcardPointId, sub := sub })]
  | .unsubscribe handle, [.unsubscribed _ true] => live.filter fun entry => entry.1 ≠ handle
  | _, _ => live

theorem exists_place {live : Subscriptions σ} {handle : Nat} (known : handle ∈ live.handles) :
    ∃ (place : Nat) (entry : BusEntry σ), live[place]? = some (handle, entry) := by
  obtain ⟨⟨_, entry⟩, listed, rfl⟩ := List.mem_map.mp known
  obtain ⟨place, found⟩ := List.mem_iff_getElem?.mp listed
  exact ⟨place, entry, found⟩

/-- A handle that is not in force takes nothing away. -/
theorem filter_unknown {live : Subscriptions σ} {handle : Nat} (unknown : handle ∉ live.handles) :
    live.filter (fun entry => entry.1 ≠ handle) = live := by
  apply List.filter_eq_self.mpr
  intro entry listed
  rw [decide_eq_true_eq]
  rintro rfl
  exact unknown (List.mem_map_of_mem listed)

end Subscriptions

/-- The table holds the subscriptions in the order of its places, and the index leads to them. -/
structure DataBus.Linked (bus : DataBus σ) (slots : Subscriptions σ) : Prop where
  entries : slots.map Prod.snd = bus.entries
  index : Indexes (fun handle => bus.handleIndex[handle]?) slots.handles
  issued : ∀ handle ∈ slots.handles, 0 < handle ∧ handle < bus.nextHandle
  counts : 0 < bus.nextHandle

theorem DataBus.linked_empty : ({} : DataBus σ).Linked [] :=
  ⟨rfl, fun handle place => by simp [Subscriptions.handles], by simp [Subscriptions.handles], Nat.zero_lt_one⟩

namespace DataBus.Linked
variable {bus : DataBus σ} {slots : Subscriptions σ} (linked : bus.Linked slots) {order : HashOrder (Nat × Nat)}
include linked

theorem nodup : slots.handles.Nodup := linked.index.nodup

theorem targets (pointId : UInt32) : bus.targets pointId = slots.heard pointId := by
  rw [DataBus.targets, Subscriptions.heard, ← linked.entries, List.filterMap_map]
  rfl

theorem length_handles : slots.handles.length = bus.entries.length := by
  rw [← linked.entries, Subscriptions.handles, List.length_map, List.length_map]

theorem subscribe (pointId : UInt32) (sub : σ) :
    (bus.subscribe pointId (some sub)).1.Linked
      (slots ++ [(bus.nextHandle, { pointId := pointId, sub := some sub })]) := by
  have fresh : bus.nextHandle ∉ slots.handles := fun known => lt_irrefl _ (linked.issued _ known).2
  have handles : Subscriptions.handles (slots ++ [(bus.nextHandle, { pointId := pointId, sub := some sub })]) =
      slots.handles ++ [bus.nextHandle] := List.map_append
  refine ⟨?_, ?_, ?_, Nat.succ_pos _⟩
  · simp [DataBus.subscribe, linked.entries]
  · rw [handles]
    convert linked.index.concat fresh using 2 with handle
    rw [linked.length_handles]
    exact row_insert ..
  · rw [handles]
    intro handle known
    have next : (bus.subscribe pointId (some sub)).1.nextHandle = bus.nextHandle + 1 := rfl
    rcases List.mem_append.mp known with old | new
    · have bounds := linked.issued handle old
      omega
    · have same := List.mem_singleton.mp new
      have positive := linked.counts
      omega

/-- The handle of a place is found, in whatever order the index is searched. -/
theorem find_place (order : HashOrder (Nat × Nat)) {handle place : Nat}
    (known : slots.handles[place]? = some handle) :
    (order.visit bus.handleIndex.toList).find? (fun hit => hit.2 = place) = some (handle, place) := by
  have listed : ∀ hit : Nat × Nat, hit ∈ order.visit bus.handleIndex.toList ↔
      slots.handles[hit.2]? = some hit.1 := by
    intro hit
    rw [(order.perm _).mem_iff, Std.TreeMap.mem_toList_iff_getElem?_eq_some]
    exact linked.index hit.1 hit.2
  cases search : (order.visit bus.handleIndex.toList).find? fun hit => hit.2 = place with
  | none =>
    have missed := List.find?_eq_none.mp search (handle, place) ((listed _).mpr known)
    simp at missed
  | some hit =>
    have here : hit.2 = place := by simpa using List.find?_some search
    have held := (listed hit).mp (List.mem_of_find?_eq_some search)
    rw [here, known] at held
    rw [← here, Option.some.inj held]

/-- The last entry takes the place of the removed one, and the index follows. -/
theorem unsubscribe {place handle : Nat} {entry : BusEntry σ} (found : slots[place]? = some (handle, entry)) :
    (bus.unsubscribe order handle).2 = true ∧ (bus.unsubscribe order handle).1.Linked (swapRemove slots place) := by
  have here : slots.handles[place]? = some handle := by simp [Subscriptions.handles, found]
  have leads : bus.handleIndex[handle]? = some place := (linked.index handle place).mpr here
  have positive := (linked.issued handle (List.mem_of_getElem? here)).1
  have inside : place < bus.entries.length := by
    rw [← linked.length_handles]
    exact (List.getElem?_eq_some_iff.mp here).1
  obtain ⟨moved, atLast⟩ : ∃ moved, slots.handles[slots.handles.length - 1]? = some moved :=
    ⟨_, List.getElem?_eq_getElem (by rw [linked.length_handles]; omega)⟩
  have handles : Subscriptions.handles (swapRemove slots place) = swapRemove slots.handles place :=
    swapRemove_map Prod.fst slots place
  rw [DataBus.unsubscribe, if_neg (by omega), DataBus.unsubscribeImpl_locked, leads]
  refine ⟨rfl, ?_, ?_, ?_, linked.counts⟩
  · rw [swapRemove_map, linked.entries]
    exact swapRemove_eq inside {}
  · rw [handles]
    convert linked.index.swapRemove here atLast using 2 with other
    rw [linked.length_handles] at atLast
    refine (row_erase ..).trans ?_
    by_cases gone : other = handle
    · rw [if_pos gone, if_pos gone]
    · rw [if_neg gone, if_neg gone]
      split
      · rw [linked.find_place order atLast]
        exact row_insert ..
      · -- the removed entry was the last one itself
        rename_i atEnd
        rw [not_ne_iff] at atEnd
        rw [← atEnd, here] at atLast
        rw [if_neg fun same => gone (same.trans (Option.some.inj atLast).symm)]
  · rw [handles]
    intro other remains
    exact linked.issued other ((swapRemove_perm here).mem_iff.mpr (List.mem_cons_of_mem _ remains))

theorem unsubscribe_unknown {handle : Nat} (unknown : handle ∉ slots.handles) :
    bus.unsubscribe order handle = (bus, false) := by
  have absent : bus.handleIndex[handle]? = none := by
    by_contra present
    obtain ⟨place, leads⟩ := Option.ne_none_iff_exists'.mp present
    exact unknown (List.mem_of_getElem? ((linked.index handle place).mp leads))
  rw [DataBus.unsubscribe]
  split
  · rfl
  · simp only [DataBus.unsubscribeImpl_locked, absent]

/-- A removed handle is gone, and the others stay. -/
theorem handles_swapRemove {place handle : Nat} {entry : BusEntry σ}
    (found : slots[place]? = some (handle, entry)) (other : Nat) :
    other ∈ Subscriptions.handles (swapRemove slots place) ↔ other ≠ handle ∧ other ∈ slots.handles := by
  have perm := (swapRemove_perm found).map Prod.fst
  have distinct := List.nodup_cons.mp (perm.nodup_iff.mp linked.nodup)
  rw [Subscriptions.handles, Subscriptions.handles, perm.mem_iff, List.map_cons, List.mem_cons]
  constructor
  · intro remains
    exact ⟨fun same => distinct.1 (same ▸ remains), Or.inr remains⟩
  · rintro ⟨apart, same | remains⟩
    · exact absurd same apart
    · exact remains

/-- What stays after a removal are the entries of the other handles. -/
theorem filter_perm {place handle : Nat} {entry : BusEntry σ} (found : slots[place]? = some (handle, entry)) :
    (swapRemove slots place).Perm (slots.filter fun slot => slot.1 ≠ handle) := by
  have perm := swapRemove_perm found
  have distinct := (perm.map Prod.fst).nodup_iff.mp linked.nodup
  have others : (swapRemove slots place).filter (fun slot => slot.1 ≠ handle) = swapRemove slots place :=
    Subscriptions.filter_unknown (List.nodup_cons.mp distinct).1
  have filtered := perm.filter fun slot => decide (slot.1 ≠ handle)
  rw [List.filter_cons_of_neg (by simp), others] at filtered
  exact filtered.symm

end DataBus.Linked

/-- The bus beside the subscriptions in force. -/
abbrev SubscribedBus (σ : Type*) := DataBus σ × Subscriptions σ

namespace SubscribedBus

def step (order : HashOrder (Nat × Nat)) : Runs.Step (SubscribedBus σ) (BusCall σ K) (BusOutput σ K) :=
  Runs.watch (DataBus.step order) Subscriptions.track

def fresh : SubscribedBus σ := ({}, [])

/-- The table holds the subscriptions in force, in some order. -/
def Holds (w : SubscribedBus σ) : Prop := ∃ slots, w.1.Linked slots ∧ slots.Perm w.2

theorem holds_fresh : (fresh : SubscribedBus σ).Holds := ⟨[], DataBus.linked_empty, List.Perm.nil⟩

namespace Holds
variable {w : SubscribedBus σ} (holds : w.Holds) {order : HashOrder (Nat × Nat)}
include holds

theorem heard_perm (pointId : UInt32) : (w.1.targets pointId).Perm (w.2.heard pointId) := by
  obtain ⟨slots, linked, perm⟩ := holds
  rw [linked.targets]
  exact perm.filterMap _

/-- A subscription is answered with a handle that has not been given out. -/
theorem subscribe (pointId : UInt32) (sub : σ) :
    Holds ((w.1.subscribe pointId (some sub)).1,
      w.2 ++ [(w.1.nextHandle, { pointId := pointId, sub := some sub })]) := by
  obtain ⟨slots, linked, perm⟩ := holds
  exact ⟨_, linked.subscribe pointId sub, perm.append_right _⟩

theorem nextHandle_pos : 0 < w.1.nextHandle := by
  obtain ⟨slots, linked, -⟩ := holds
  exact linked.counts

theorem issued {handle : Nat} (live : handle ∈ w.2.handles) : 0 < handle ∧ handle < w.1.nextHandle := by
  obtain ⟨slots, linked, perm⟩ := holds
  exact linked.issued handle ((perm.map _).mem_iff.mpr live)

theorem unsubscribe_iff (handle : Nat) :
    (w.1.unsubscribe order handle).2 = decide (handle ∈ w.2.handles) := by
  obtain ⟨slots, linked, perm⟩ := holds
  have same : handle ∈ slots.handles ↔ handle ∈ w.2.handles := (perm.map _).mem_iff
  by_cases known : handle ∈ slots.handles
  · obtain ⟨place, entry, found⟩ := Subscriptions.exists_place known
    rw [(linked.unsubscribe found).1, decide_eq_true (same.mp known)]
  · rw [linked.unsubscribe_unknown known, decide_eq_false (mt same.mpr known)]

theorem unsubscribe (handle : Nat) :
    Holds ((w.1.unsubscribe order handle).1, w.2.filter fun entry => entry.1 ≠ handle) := by
  obtain ⟨slots, linked, perm⟩ := holds
  by_cases known : handle ∈ slots.handles
  · obtain ⟨place, entry, found⟩ := Subscriptions.exists_place known
    exact ⟨_, (linked.unsubscribe found).2, (linked.filter_perm found).trans (perm.filter _)⟩
  · rw [linked.unsubscribe_unknown known]
    exact ⟨slots, linked, Subscriptions.filter_unknown known ▸ perm.filter _⟩

end Holds

section Steps
variable {w : SubscribedBus σ} (holds : w.Holds) (order : HashOrder (Nat × Nat))

/-- A wildcard is a point id like any other. -/
theorem step_subscribeWildcard (sub : Option σ) :
    step order w (.subscribeWildcard sub : BusCall σ K) = step order w (.subscribe kWildcardPointId sub) := by
  cases sub <;> rfl

include holds

theorem step_subscribe (pointId : UInt32) (sub : σ) :
    step order w (.subscribe pointId (some sub) : BusCall σ K) =
      (((w.1.subscribe pointId (some sub)).1,
        w.2 ++ [(w.1.nextHandle, { pointId := pointId, sub := some sub })]), [.subscribed w.1.nextHandle]) := by
  have counts := holds.nextHandle_pos
  simp only [step, Runs.watch, DataBus.step, Subscriptions.track, DataBus.subscribe]
  rw [if_neg counts.ne']

theorem step_unsubscribe (handle : Nat) :
    step order w (.unsubscribe handle : BusCall σ K) =
      (((w.1.unsubscribe order handle).1, w.2.filter fun entry => entry.1 ≠ handle),
        [.unsubscribed handle (decide (handle ∈ w.2.handles))]) := by
  simp only [step, Runs.watch, DataBus.step, Subscriptions.track, holds.unsubscribe_iff]
  by_cases known : handle ∈ w.2.handles
  · rw [decide_eq_true known]
  · rw [decide_eq_false known, Subscriptions.filter_unknown known]

theorem holds_step (call : BusCall σ K) : (step order w call).1.Holds := by
  have subscribes (pointId : UInt32) (sub : Option σ) :
      (step order w (.subscribe pointId sub : BusCall σ K)).1.Holds := by
    cases sub with
    | none => exact holds
    | some sub =>
      rw [step_subscribe holds]
      exact holds.subscribe pointId sub
  cases call with
  | subscribe pointId sub => exact subscribes pointId sub
  | subscribeWildcard sub =>
    rw [step_subscribeWildcard]
    exact subscribes kWildcardPointId sub
  | unsubscribe handle =>
    rw [step_unsubscribe holds]
    exact holds.unsubscribe handle
  | broadcast s => exact holds

end Steps

theorem holds_reached (order : HashOrder (Nat × Nat)) (calls : List (BusCall σ K)) :
    ∀ w ∈ Runs.reached (step order) fresh calls, w.Holds :=
  Runs.reached_always (step order) calls holds_fresh fun _ call holds => holds_step holds order call

/-- How often a handle has been given out and unsubscribed with success: the balance is in force. -/
structure Booked (w : SubscribedBus σ) (handle : Nat) (out : List (BusOutput σ K)) : Prop where
  balance : out.countP (BusOutput.isSubscribed handle) =
    out.countP (BusOutput.isUnsubscribed handle) + if handle ∈ w.2.handles then 1 else 0
  once : out.countP (BusOutput.isSubscribed handle) ≤ 1
  unissued : w.1.nextHandle ≤ handle → out.countP (BusOutput.isSubscribed handle) = 0

namespace Booked
variable {w w' : SubscribedBus σ} {handle : Nat} {out : List (BusOutput σ K)} (booked : Booked w handle out)
include booked

/-- Outputs that are not about the handle. -/
theorem other {more : List (BusOutput σ K)} (given : more.countP (BusOutput.isSubscribed handle) = 0)
    (taken : more.countP (BusOutput.isUnsubscribed handle) = 0)
    (live : handle ∈ w'.2.handles ↔ handle ∈ w.2.handles) (next : w.1.nextHandle ≤ w'.1.nextHandle) :
    Booked w' handle (out ++ more) := by
  have balance := booked.balance
  have once := booked.once
  have unissued := booked.unissued
  refine ⟨?_, ?_, fun late => ?_⟩
  · simp only [List.countP_append, given, taken, live]
    exact balance
  · rw [List.countP_append, given]
    exact once
  · rw [List.countP_append, given]
    exact unissued (next.trans late)

/-- A subscription gives the next handle out, which nobody has had. -/
theorem subscribe (holds : w.Holds) (pointId : UInt32) (sub : σ) :
    Booked ((w.1.subscribe pointId (some sub)).1,
      w.2 ++ [(w.1.nextHandle, { pointId := pointId, sub := some sub })]) handle
      (out ++ [.subscribed w.1.nextHandle]) := by
  have handles : Subscriptions.handles (w.2 ++ [(w.1.nextHandle, { pointId := pointId, sub := some sub })]) =
      w.2.handles ++ [w.1.nextHandle] := List.map_append
  have balance := booked.balance
  by_cases same : w.1.nextHandle = handle
  · subst same
    have none_given := booked.unissued (le_refl _)
    have absent : w.1.nextHandle ∉ w.2.handles := fun live => lt_irrefl _ (holds.issued live).2
    rw [if_neg absent] at balance
    refine ⟨?_, ?_, fun late => absurd late (Nat.not_succ_le_self _)⟩
    · rw [handles, if_pos (by simp)]
      simp [List.countP_append, BusOutput.isSubscribed, BusOutput.isUnsubscribed]
      omega
    · rw [List.countP_append, none_given, Nat.zero_add]
      exact List.countP_le_length
  · apply booked.other
    · simp [BusOutput.isSubscribed, same]
    · simp [BusOutput.isUnsubscribed]
    · rw [handles]
      simp [Ne.symm same]
    · exact Nat.le_succ _

theorem unsubscribe {order : HashOrder (Nat × Nat)} (removed : Nat) (live : removed ∈ w.2.handles) :
    Booked ((w.1.unsubscribe order removed).1, w.2.filter fun entry => entry.1 ≠ removed) handle
      (out ++ [.unsubscribed removed true]) := by
  have next : (w.1.unsubscribe order removed).1.nextHandle = w.1.nextHandle := DataBus.nextHandle_unsubscribe ..
  have balance := booked.balance
  have once := booked.once
  have unissued := booked.unissued
  by_cases same : removed = handle
  · subst same
    have gone : removed ∉ Subscriptions.handles (w.2.filter fun entry => entry.1 ≠ removed) := by
      simp [Subscriptions.handles]
    rw [if_pos live] at balance
    refine ⟨?_, ?_, ?_⟩
    · rw [if_neg gone]
      simp [List.countP_append, BusOutput.isSubscribed, BusOutput.isUnsubscribed]
      omega
    · simpa [List.countP_append, BusOutput.isSubscribed] using once
    · rw [next]
      simpa [List.countP_append, BusOutput.isSubscribed] using unissued
  · apply booked.other
    · simp [BusOutput.isSubscribed]
    · simp [BusOutput.isUnsubscribed, same]
    · simp [Subscriptions.handles, Ne.symm same]
    · exact next.ge

end Booked

theorem booked_step {w : SubscribedBus σ} (holds : w.Holds) (order : HashOrder (Nat × Nat))
    (call : BusCall σ K) {handle : Nat} (positive : 0 < handle) {out : List (BusOutput σ K)}
    (booked : Booked w handle out) : Booked (step order w call).1 handle (out ++ (step order w call).2) := by
  have subscribes (pointId : UInt32) (sub : Option σ) :
      Booked (step order w (.subscribe pointId sub : BusCall σ K)).1 handle
        (out ++ (step order w (.subscribe pointId sub)).2) := by
    cases sub with
    | none =>
      apply booked.other
      · simp [step, Runs.watch, DataBus.step, DataBus.subscribe, BusOutput.isSubscribed, positive.ne]
      · rfl
      · rfl
      · exact le_refl _
    | some sub =>
      rw [step_subscribe holds]
      exact booked.subscribe holds pointId sub
  cases call with
  | subscribe pointId sub => exact subscribes pointId sub
  | subscribeWildcard sub =>
    rw [step_subscribeWildcard]
    exact subscribes kWildcardPointId sub
  | unsubscribe removed =>
    rw [step_unsubscribe holds]
    by_cases live : removed ∈ w.2.handles
    · rw [decide_eq_true live]
      exact booked.unsubscribe removed live
    · rw [decide_eq_false live, Subscriptions.filter_unknown live]
      apply booked.other
      · rfl
      · simp [BusOutput.isUnsubscribed]
      · rfl
      · exact (DataBus.nextHandle_unsubscribe ..).ge
  | broadcast s =>
    apply booked.other
    · simp [step, Runs.watch, DataBus.step, List.countP_eq_zero, BusOutput.isSubscribed]
    · simp [step, Runs.watch, DataBus.step, List.countP_eq_zero, BusOutput.isUnsubscribed]
    · rfl
    · exact le_refl _

theorem booked_run (order : HashOrder (Nat × Nat)) (calls : List (BusCall σ K)) {handle : Nat}
    (positive : 0 < handle) :
    Booked (Runs.run (step order) fresh calls) handle (Runs.outputs (step order) fresh calls) := by
  apply Runs.history_invariant (step order) calls (I := fun w out => Booked w handle out) (A := fun w _ => w.Holds)
  · exact ⟨rfl, Nat.zero_le 1, fun _ => rfl⟩
  · intro w out call booked holds
    exact booked_step holds order call positive booked
  · intro v visited
    exact holds_reached order calls v.1 (Runs.visit_mem_reached visited).1

/-- A call by which a subscriber asks for a point, or for all of them. -/
def Subscribes (pointId : UInt32) (sub : σ) (call : BusCall σ K) : Prop :=
  call = .subscribe pointId (some sub) ∨ call = .subscribeWildcard (some sub) ∧ pointId = kWildcardPointId

/-- A subscriber is answered with a handle that no call before has returned, and is in force under it. -/
theorem subscribed_fresh (order : HashOrder (Nat × Nat)) (calls : List (BusCall σ K)) {pointId : UInt32} {sub : σ}
    {call : BusCall σ K} (subscribes : Subscribes pointId sub call) :
    ∃ handle, 0 < handle ∧ (Runs.outputs (step order) fresh calls).countP (BusOutput.isSubscribed handle) = 0 ∧
      (step order (Runs.run (step order) fresh calls) call).2 = [.subscribed handle] ∧
      (step order (Runs.run (step order) fresh calls) call).1.2 =
        (Runs.run (step order) fresh calls).2 ++ [(handle, { pointId := pointId, sub := some sub })] := by
  have holds := holds_reached order calls _ (Runs.run_mem_reached ..)
  have positive := holds.nextHandle_pos
  have same : step order (Runs.run (step order) fresh calls) call =
      step order (Runs.run (step order) fresh calls) (.subscribe pointId (some sub)) := by
    rcases subscribes with rfl | ⟨rfl, rfl⟩
    · rfl
    · exact step_subscribeWildcard order (some sub)
  refine ⟨_, positive, (booked_run order calls positive).unissued (le_refl _), ?_, ?_⟩
  · rw [same, step_subscribe holds]
  · rw [same, step_subscribe holds]

/-- Every broadcast calls each subscription in force that asks for the point once, and nobody else; and
an unsubscription succeeds exactly if the handle is in force. No handle is given out twice, and those
given out are in force or have been unsubscribed with success, once. After any calls a subscriber is
answered with a handle that none of them has returned. -/
theorem subscriptions_exact (order : HashOrder (Nat × Nat)) (calls : List (BusCall σ K)) :
    (∀ v ∈ Runs.visits (step order) fresh calls, ∀ s, v.2 = .broadcast s →
      ((step order v.1 v.2).2).Perm ((v.1.2.heard s.pointId).map fun sub => .onSample sub s)) ∧
    (∀ v ∈ Runs.visits (step order) fresh calls, ∀ handle, v.2 = .unsubscribe handle →
      (step order v.1 v.2).2 = [.unsubscribed handle (decide (handle ∈ v.1.2.handles))]) ∧
    (∀ handle, 0 < handle →
      (Runs.outputs (step order) fresh calls).countP (BusOutput.isSubscribed handle) =
        (Runs.outputs (step order) fresh calls).countP (BusOutput.isUnsubscribed handle) +
          (if handle ∈ (Runs.run (step order) fresh calls).2.handles then 1 else 0) ∧
      (Runs.outputs (step order) fresh calls).countP (BusOutput.isSubscribed handle) ≤ 1) ∧
    (∀ pointId sub (call : BusCall σ K), Subscribes pointId sub call →
      ∃ handle, 0 < handle ∧ (Runs.outputs (step order) fresh calls).countP (BusOutput.isSubscribed handle) = 0 ∧
        (step order (Runs.run (step order) fresh calls) call).2 = [.subscribed handle] ∧
        (step order (Runs.run (step order) fresh calls) call).1.2 =
          (Runs.run (step order) fresh calls).2 ++ [(handle, { pointId := pointId, sub := some sub })]) := by
  have holds := holds_reached order calls
  refine ⟨?_, ?_, fun handle positive => ?_, fun pointId sub call => subscribed_fresh order calls⟩
  · rintro ⟨w, call⟩ visited s rfl
    have heard := (holds w (Runs.visit_mem_reached visited).1).heard_perm s.pointId
    simp only [step, Runs.watch, DataBus.step, DataBus.broadcast, List.map_map]
    exact heard.map _
  · rintro ⟨w, call⟩ visited handle rfl
    rw [step_unsubscribe (holds w (Runs.visit_mem_reached visited).1)]
  · exact ⟨(booked_run order calls positive).balance, (booked_run order calls positive).once⟩

/-- The last entry has moved into the hole and is still found under its handle. -/
example : Runs.outputs (DataBus.step (HashOrder.insertion _)) ({} : DataBus Nat)
    [.subscribe 7 (some 1), .subscribe 7 (some 2), .subscribeWildcard (some 1), .unsubscribe 1,
      .broadcast ⟨0, 7, 0⟩, .unsubscribe 3, .unsubscribe 3, .broadcast ⟨0, 7, 0⟩] =
    ([.subscribed 1, .subscribed 2, .subscribed 3, .unsubscribed 1 true, .onSample 1 ⟨0, 7, 0⟩,
      .onSample 2 ⟨0, 7, 0⟩, .unsubscribed 3 true, .unsubscribed 3 false, .onSample 2 ⟨0, 7, 0⟩] :
      List (BusOutput Nat Nat)) := by
  decide +kernel

end SubscribedBus
end EnerSentry.Datahub
