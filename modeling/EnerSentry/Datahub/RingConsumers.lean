import EnerSentry.Datahub.RingBuffer
import EnerSentry.Lib.Trail

/-!
The consumers of a ring buffer over whole runs. What a consumer reads are items of the push
order, each at most once and in that order. Its cursor passes an item over only when a whole
buffer of later items has been pushed. Consumers do not see each other.
-/

namespace EnerSentry.Datahub
open EnerSentry.Lib

/-- The items that one consumer was handed. -/
def readBy {T : Type*} (consumerId : Int) (handed : List (Int × T)) : List T :=
  (handed.filter fun h => h.1 == consumerId).map Prod.snd

theorem readBy_self {T : Type*} (consumerId : Int) (items : List T) :
    readBy consumerId (items.map fun item => (consumerId, item)) = items := by
  simp [readBy, List.filter_map, Function.comp_def]

theorem readBy_other {T : Type*} {consumerId other : Int} (apart : other ≠ consumerId) (items : List T) :
    readBy consumerId (items.map fun item => (other, item)) = [] := by
  simp [readBy, List.filter_map, Function.comp_def, apart]

theorem readBy_append {T : Type*} (consumerId : Int) (one next : List (Int × T)) :
    readBy consumerId (one ++ next) = readBy consumerId one ++ readBy consumerId next := by
  rw [readBy, List.filter_append, List.map_append]
  rfl

namespace RingCall
variable {T : Type*}

/-- The calls by which a consumer's cursor moves. -/
def isOf (consumerId : Int) : RingCall T → Bool
  | .push _ => false
  | .pushBatch _ => false
  | .readRecent other _ => other == consumerId
  | .evictSlowConsumer other => other == consumerId

/-- A call of the writer or of this consumer. -/
def concerns (consumerId : Int) : RingCall T → Bool
  | .push _ => true
  | .pushBatch _ => true
  | .readRecent other _ => other == consumerId
  | .evictSlowConsumer other => other == consumerId

end RingCall

namespace RingBuffer
variable {T : Type*} {rb rb' : RingBuffer T} {consumerId : Int} {hist : List T}

def served (consumerId : Int) : Prop := 0 ≤ consumerId ∧ consumerId < maxConsumers

instance : Decidable (served consumerId) := inferInstanceAs (Decidable (_ ∧ _))

/-- The cursor of a consumer; an id that is not served has none. -/
def cursorOf (rb : RingBuffer T) (consumerId : Int) : Nat :=
  if served consumerId then rb.consumerCursors consumerId.toNat else 0

theorem not_served_iff : ¬served consumerId ↔ consumerId < 0 ∨ maxConsumers ≤ consumerId := by
  unfold served
  omega

theorem served_inj {other : Int} (known : served consumerId) (otherKnown : served other)
    (same : other.toNat = consumerId.toNat) : other = consumerId := by
  unfold served at known otherKnown
  omega

theorem cursorOf_update {other : Int} (known : served other) (cursor : Nat) :
    cursorOf { rb with consumerCursors := Function.update rb.consumerCursors other.toNat cursor } consumerId =
      if consumerId = other then cursor else rb.cursorOf consumerId := by
  by_cases same : consumerId = other
  · rw [if_pos same, same, cursorOf, if_pos known]
    exact Function.update_self ..
  · rw [if_neg same]
    by_cases own : served consumerId
    · have apart : consumerId.toNat ≠ other.toNat := fun equal => same (served_inj known own equal)
      rw [cursorOf, cursorOf, if_pos own, if_pos own]
      exact Function.update_of_ne apart ..
    · rw [cursorOf, cursorOf, if_neg own, if_neg own]

/-- Where a read of a consumer starts. -/
def resumesAt (rb : RingBuffer T) (consumerId : Int) : Nat :=
  resume rb.capacity.1 rb.publishedPos (rb.cursorOf consumerId)

/-- How many items a read of a consumer has for it. -/
def readable (rb : RingBuffer T) (consumerId : Int) (count : Nat) : Nat :=
  min (rb.publishedPos - rb.resumesAt consumerId) (min count rb.capacity.1)

/-- What a read does: nothing, or it hands out the items from where it resumes, as many as there are for it. -/
theorem readRecent_cases (rb : RingBuffer T) (consumerId : Int) (count : Nat) :
    rb.readRecent consumerId count = ([], rb) ∧ (served consumerId → rb.readable consumerId count = 0) ∨
    served consumerId ∧ rb.resumesAt consumerId + rb.readable consumerId count ≤ rb.publishedPos ∧
      rb.readRecent consumerId count =
        ((List.range (rb.readable consumerId count)).map fun i =>
            rb.buffer ((rb.resumesAt consumerId + i) % rb.capacity.1),
          { rb with
            consumerCursors := Function.update rb.consumerCursors consumerId.toNat
              (rb.resumesAt consumerId + rb.readable consumerId count) }) := by
  by_cases none : count = 0
  · refine Or.inl ⟨if_pos none, fun _ => ?_⟩
    rw [readable, none, Nat.zero_min, Nat.min_zero]
  by_cases unknown : consumerId < 0 ∨ maxConsumers ≤ consumerId
  · refine Or.inl ⟨?_, fun known => absurd known (not_served_iff.mpr unknown)⟩
    rw [readRecent, if_neg none, if_pos unknown]
  have known : served consumerId := not_not.mp fun absent => unknown (not_served_iff.mp absent)
  have starts : rb.resumesAt consumerId =
      if rb.capacity.1 ≤ rb.publishedPos - rb.consumerCursors consumerId.toNat
      then rb.publishedPos - rb.capacity.1 else rb.consumerCursors consumerId.toNat := by
    rw [resumesAt, cursorOf, if_pos known, resume]
  by_cases caughtUp : rb.publishedPos ≤ rb.consumerCursors consumerId.toNat
  · have some := capacity_pos rb.capacity
    refine Or.inl ⟨?_, fun _ => ?_⟩
    · rw [readRecent, if_neg none, if_neg unknown]
      exact if_pos caughtUp
    · rw [readable, starts, if_neg (by omega), Nat.sub_eq_zero_of_le caughtUp, Nat.zero_min]
  have behind : rb.resumesAt consumerId ≤ rb.publishedPos := by
    rw [starts]
    split <;> omega
  have count_min : (if rb.capacity.1 < count then rb.capacity.1 else count) = min count rb.capacity.1 := by
    split <;> omega
  refine Or.inr ⟨known, ?_, ?_⟩
  · rw [readable]
    omega
  · simp only [readRecent, none, unknown, caughtUp, ↓reduceIte, ← starts, and_mask, count_min]
    rfl

theorem evictSlowConsumer_cases (rb : RingBuffer T) (consumerId : Int) :
    (rb.evictSlowConsumer consumerId).2 = rb ∨
    served consumerId ∧ (rb.evictSlowConsumer consumerId).2 =
      { rb with consumerCursors :=
          Function.update rb.consumerCursors consumerId.toNat (rb.resumesAt consumerId) } := by
  by_cases unknown : consumerId < 0 ∨ maxConsumers ≤ consumerId
  · apply Or.inl
    rw [evictSlowConsumer, if_pos unknown]
  by_cases slow : rb.capacity.1 ≤ rb.publishedPos - rb.consumerCursors consumerId.toNat
  · have known : served consumerId := not_not.mp fun absent => unknown (not_served_iff.mp absent)
    apply Or.inr
    rw [resumesAt, cursorOf, if_pos known, resume, if_pos slow]
    simp only [evictSlowConsumer, unknown, slow, ↓reduceIte]
    exact ⟨known, trivial⟩
  · apply Or.inl
    simp only [evictSlowConsumer, unknown, slow, ↓reduceIte]

/-- The items from a place on that a buffer still holds, read out of its slots. -/
theorem Stores.stretch (stores : rb.Stores hist) {first readable : Nat} (kept : hist.length ≤ first + rb.capacity.1)
    (inside : first + readable ≤ hist.length) :
    ((List.range readable).map fun i => rb.buffer ((first + i) % rb.capacity.1)).map some =
      (List.range' first readable).map (hist[·]?) := by
  rw [List.range'_eq_map_range, List.map_map, List.map_map]
  apply List.map_congr_left
  intro i member
  have below := List.mem_range.mp member
  have pushed : first + i < hist.length := by omega
  simp only [Function.comp_apply, List.getElem?_eq_getElem pushed]
  exact congrArg some (stores.slot (first + i) _ (List.getElem?_eq_getElem pushed) (by omega))

/-- A stretch of a list, place by place. -/
theorem map_some_stretch (hist : List T) (first n : Nat) : ((hist.drop first).take n).map some =
    (List.range' first (min (hist.length - first) n)).map (hist[·]?) := by
  apply List.ext_getElem
  · simp [Nat.min_comm]
  · intro i inside _
    have there : first + i < hist.length := by
      simp only [List.length_map, List.length_take, List.length_drop] at inside
      omega
    simp [there]

section Runs
variable (capacity : RingCapacity) (blank : T) (calls : List (RingCall T)) (consumerId : Int)

def after : RingBuffer T := Runs.run step (fresh capacity blank) calls

/-- What one consumer is handed in a run. -/
def handedTo : List T := readBy consumerId (Runs.outputs step (fresh capacity blank) calls)

/-- A call of the consumer found the item at place `p` unread, and `capacity` or more items
pushed after it. -/
def Overtaken (p : Nat) : Prop :=
  ∃ earlier call later, calls = earlier ++ call :: later ∧ call.isOf consumerId = true ∧
    (after capacity blank earlier).cursorOf consumerId ≤ p ∧ p + 1 + capacity.1 ≤ (history earlier).length

/-- The places that a consumer has read, and what it was handed for them. -/
structure Follows (seen : List Nat) : Prop where
  trail : Trail (Overtaken capacity blank calls consumerId) ((after capacity blank calls).cursorOf consumerId) seen
  handed : (handedTo capacity blank calls consumerId).map some = seen.map ((history calls)[·]?)
  behind : (after capacity blank calls).cursorOf consumerId ≤ (history calls).length

variable {capacity blank calls consumerId}

theorem stores_after : (after capacity blank calls).Stores (history calls) := by
  have stores := stores_run (stores_fresh capacity blank) calls
  rwa [List.nil_append] at stores

theorem capacity_after : (after capacity blank calls).capacity = capacity := capacity_run _ calls

theorem after_concat (call : RingCall T) :
    after capacity blank (calls ++ [call]) = (step (after capacity blank calls) call).1 := Runs.run_concat ..

theorem handedTo_concat (call : RingCall T) :
    handedTo capacity blank (calls ++ [call]) consumerId =
      handedTo capacity blank calls consumerId ++ readBy consumerId (step (after capacity blank calls) call).2 := by
  rw [handedTo, Runs.outputs_concat, readBy_append]
  rfl

theorem history_concat (call : RingCall T) : history (calls ++ [call]) = history calls ++ call.pushed := by
  simp [history]

/-- A call that pushes nothing. -/
theorem history_silent {call : RingCall T} (silent : call.pushed = []) : history (calls ++ [call]) = history calls := by
  rw [history_concat, silent, List.append_nil]

theorem Overtaken.concat {p : Nat} (overtaken : Overtaken capacity blank calls consumerId p) (call : RingCall T) :
    Overtaken capacity blank (calls ++ [call]) consumerId p := by
  obtain ⟨earlier, own, later, rfl, found⟩ := overtaken
  exact ⟨earlier, own, later ++ [call], by simp, found⟩

/-- A call that leaves the consumer's cursor alone and hands it nothing. -/
theorem Follows.unmoved {seen : List Nat} (follows : Follows capacity blank calls consumerId seen) (call : RingCall T)
    (cursor : (step (after capacity blank calls) call).1.cursorOf consumerId =
      (after capacity blank calls).cursorOf consumerId)
    (nothing : readBy consumerId (step (after capacity blank calls) call).2 = []) :
    Follows capacity blank (calls ++ [call]) consumerId seen where
  trail := by
    rw [after_concat, cursor]
    exact follows.trail.mono fun p overtaken => overtaken.concat call
  handed := by
    rw [handedTo_concat, nothing, List.append_nil, follows.handed, history_concat]
    apply List.map_congr_left
    intro p member
    have inside := Nat.lt_of_lt_of_le (follows.trail.below p member) follows.behind
    exact (List.getElem?_append_left inside).symm
  behind := by
    rw [after_concat, cursor, history_concat, List.length_append]
    exact Nat.le_trans follows.behind (Nat.le_add_right _ _)

/-- A call that takes the consumer on to where it resumes has lost what lies between. -/
theorem Follows.resumed {seen : List Nat} (follows : Follows capacity blank calls consumerId seen)
    {call : RingCall T} (own : call.isOf consumerId = true) :
    Trail (Overtaken capacity blank (calls ++ [call]) consumerId)
      ((after capacity blank calls).resumesAt consumerId) seen := by
  have old := follows.trail.mono fun p overtaken => overtaken.concat call
  have behind : (after capacity blank calls).cursorOf consumerId ≤ (after capacity blank calls).publishedPos := by
    rw [stores_after.published]
    exact follows.behind
  apply old.skip (le_resume behind)
  intro p above passed
  refine ⟨calls, call, [], rfl, own, above, ?_⟩
  have back := passed_over above passed
  rw [stores_after.published, capacity_after] at back
  omega

/-- A read of the consumer goes on from where it resumes, one place after the other. -/
theorem Follows.read {seen : List Nat} (follows : Follows capacity blank calls consumerId seen) (count : Nat) :
    ∃ seen', Follows capacity blank (calls ++ [.readRecent consumerId count]) consumerId seen' := by
  rcases readRecent_cases (after capacity blank calls) consumerId count with ⟨nothing, -⟩ | ⟨known, inside, reads⟩
  · refine ⟨seen, follows.unmoved _ ?_ ?_⟩
    · simp only [step, nothing]
    · simp only [step, nothing]
      rfl
  · have own : (.readRecent consumerId count : RingCall T).isOf consumerId = true := beq_self_eq_true consumerId
    have resumed := follows.resumed own
    rw [stores_after.published] at inside
    generalize (after capacity blank calls).readable consumerId count = readable at inside reads
    have cursor : (after capacity blank (calls ++ [.readRecent consumerId count])).cursorOf consumerId =
        (after capacity blank calls).resumesAt consumerId + readable := by
      simp only [after_concat, step, reads, cursorOf_update known, ↓reduceIte]
    have kept : (history calls).length ≤
        (after capacity blank calls).resumesAt consumerId + (after capacity blank calls).capacity.1 := by
      rw [resumesAt, stores_after.published]
      exact kept_resume follows.behind
    refine ⟨seen ++ List.range' ((after capacity blank calls).resumesAt consumerId) readable, ?_, ?_, ?_⟩
    · rw [cursor]
      exact resumed.read readable
    · have handed : readBy consumerId (step (after capacity blank calls) (.readRecent consumerId count)).2 =
          (List.range readable).map fun i => (after capacity blank calls).buffer
            (((after capacity blank calls).resumesAt consumerId + i) % (after capacity blank calls).capacity.1) := by
        simp only [step, reads]
        exact readBy_self consumerId _
      rw [handedTo_concat, handed, history_silent rfl, List.map_append, List.map_append, follows.handed,
        stores_after.stretch kept inside]
    · rw [cursor, history_silent rfl]
      exact inside

/-- An eviction of the consumer at most takes it on to where it resumes. -/
theorem Follows.evict {seen : List Nat} (follows : Follows capacity blank calls consumerId seen) :
    Follows capacity blank (calls ++ [.evictSlowConsumer consumerId]) consumerId seen := by
  rcases evictSlowConsumer_cases (after capacity blank calls) consumerId with nothing | ⟨known, evicts⟩
  · apply follows.unmoved
    · simp only [step, nothing]
    · rfl
  · have cursor : (after capacity blank (calls ++ [.evictSlowConsumer consumerId])).cursorOf consumerId =
        (after capacity blank calls).resumesAt consumerId := by
      simp only [after_concat, step, evicts, cursorOf_update known, ↓reduceIte]
    have own : (.evictSlowConsumer consumerId : RingCall T).isOf consumerId = true := beq_self_eq_true consumerId
    constructor
    · rw [cursor]
      exact follows.resumed own
    · rw [handedTo_concat, history_silent rfl, ← follows.handed]
      exact congrArg (List.map some) (List.append_nil _)
    · rw [cursor, history_silent rfl, resumesAt, stores_after.published]
      exact resume_le follows.behind

/-- What a call of another consumer, or of the writer, is to this one. -/
theorem step_other {call : RingCall T} (other : call.isOf consumerId = false) (rb : RingBuffer T) :
    (step rb call).1.cursorOf consumerId = rb.cursorOf consumerId ∧ readBy consumerId (step rb call).2 = [] := by
  cases call with
  | push item => exact ⟨rfl, rfl⟩
  | pushBatch items =>
    simp only [step, pushBatch]
    split <;> exact ⟨rfl, rfl⟩
  | readRecent reader count =>
    have apart : reader ≠ consumerId := beq_eq_false_iff_ne.mp other
    rcases readRecent_cases rb reader count with ⟨nothing, -⟩ | ⟨known, -, reads⟩
    · simp only [step, nothing]
      exact ⟨trivial, rfl⟩
    · simp only [step, reads, cursorOf_update known, if_neg apart.symm]
      exact ⟨trivial, readBy_other apart _⟩
  | evictSlowConsumer evicted =>
    have apart : evicted ≠ consumerId := beq_eq_false_iff_ne.mp other
    rcases evictSlowConsumer_cases rb evicted with nothing | ⟨known, evicts⟩
    · simp only [step, nothing]
      exact ⟨trivial, rfl⟩
    · simp only [step, evicts, cursorOf_update known, if_neg apart.symm]
      exact ⟨trivial, rfl⟩

theorem follows_concat (call : RingCall T) {seen : List Nat} (follows : Follows capacity blank calls consumerId seen) :
    ∃ seen', Follows capacity blank (calls ++ [call]) consumerId seen' := by
  by_cases own : call.isOf consumerId = true
  · cases call with
    | push item => cases own
    | pushBatch items => cases own
    | readRecent reader count =>
      obtain rfl := eq_of_beq own
      exact follows.read count
    | evictSlowConsumer evicted =>
      obtain rfl := eq_of_beq own
      exact ⟨seen, follows.evict⟩
  · obtain ⟨cursor, nothing⟩ := step_other (Bool.eq_false_iff.mpr own) (after capacity blank calls)
    exact ⟨seen, follows.unmoved call cursor nothing⟩

/-- Every run leaves a consumer with the places it has read. -/
theorem follows_run : ∃ seen, Follows capacity blank calls consumerId seen := by
  induction calls using List.reverseRecOn with
  | nil =>
    have fresh : (after capacity blank ([] : List (RingCall T))).cursorOf consumerId = 0 := ite_self 0
    refine ⟨[], ?_, rfl, Nat.le_of_eq fresh⟩
    rw [fresh]
    exact Trail.start
  | append_singleton calls call ih =>
    obtain ⟨seen, follows⟩ := ih
    exact follows_concat call follows

/-- A read of a served consumer hands out the next items, as many as it asks for of those that are there. -/
theorem readRecent_next (known : served consumerId) (count : Nat) :
    ((after capacity blank calls).readRecent consumerId count).1 = ((history calls).drop (resume capacity.1
      (history calls).length ((after capacity blank calls).cursorOf consumerId))).take (min count capacity.1) := by
  obtain ⟨seen, follows⟩ : ∃ seen, Follows capacity blank calls consumerId seen := follows_run
  have resumes : (after capacity blank calls).resumesAt consumerId =
      resume capacity.1 (history calls).length ((after capacity blank calls).cursorOf consumerId) := by
    rw [resumesAt, stores_after.published, capacity_after]
  have many : (after capacity blank calls).readable consumerId count =
      min ((history calls).length - (after capacity blank calls).resumesAt consumerId) (min count capacity.1) := by
    rw [readable, stores_after.published, capacity_after]
  rw [← resumes]
  rcases readRecent_cases (after capacity blank calls) consumerId count with ⟨nothing, none⟩ | ⟨-, inside, reads⟩
  · have empty := none known
    rw [many] at empty
    rw [nothing, eq_comm, ← List.length_eq_zero_iff, List.length_take, List.length_drop, Nat.min_comm]
    exact empty
  · have kept : (history calls).length ≤
        (after capacity blank calls).resumesAt consumerId + (after capacity blank calls).capacity.1 := by
      rw [resumesAt, stores_after.published]
      exact kept_resume follows.behind
    rw [stores_after.published] at inside
    rw [reads]
    apply (List.map_inj_right fun _ _ => Option.some.inj).mp
    rw [stores_after.stretch kept inside, many, map_some_stretch]

/-- A buffer with its cursors replaced. -/
def withCursors (rb : RingBuffer T) (cursors : Nat → Nat) : RingBuffer T := { rb with consumerCursors := cursors }

/-- Two buffers that one consumer cannot tell apart. -/
def Alike (consumerId : Int) (rb rb' : RingBuffer T) : Prop :=
  ∃ cursors, rb' = rb.withCursors cursors ∧ rb'.cursorOf consumerId = rb.cursorOf consumerId

theorem Alike.refl (rb : RingBuffer T) : Alike consumerId rb rb := ⟨rb.consumerCursors, rfl, rfl⟩

/-- Only the cursor of another consumer has moved. -/
theorem Alike.moved {other : Int} (alike : Alike consumerId rb rb') (known : served other) (apart : other ≠ consumerId)
    (cursor : Nat) :
    Alike consumerId (rb.withCursors (Function.update rb.consumerCursors other.toNat cursor)) rb' := by
  obtain ⟨cursors, rfl, same⟩ := alike
  refine ⟨cursors, rfl, same.trans ?_⟩
  rw [withCursors, cursorOf_update known, if_neg apart.symm]

theorem Alike.foldl (alike : Alike consumerId rb rb') (items : List T) :
    Alike consumerId (items.foldl RingBuffer.push rb) (items.foldl RingBuffer.push rb') := by
  induction items generalizing rb rb' with
  | nil => exact alike
  | cons item items ih =>
    obtain ⟨cursors, rfl, same⟩ := alike
    exact ih ⟨cursors, rfl, same⟩

theorem Alike.cursors {cursors : Nat → Nat}
    (same : (rb.withCursors cursors).cursorOf consumerId = rb.cursorOf consumerId)
    (known : served consumerId) : cursors consumerId.toNat = rb.consumerCursors consumerId.toNat := by
  rwa [cursorOf, cursorOf, if_pos known, if_pos known] at same

/-- The consumer's own cursor has been set to the same place in both. -/
theorem alike_update (known : served consumerId) (cursors : Nat → Nat) (cursor : Nat) :
    Alike consumerId (rb.withCursors (Function.update rb.consumerCursors consumerId.toNat cursor))
      (rb.withCursors (Function.update cursors consumerId.toNat cursor)) := by
  refine ⟨Function.update cursors consumerId.toNat cursor, rfl, ?_⟩
  simp only [withCursors, cursorOf, if_pos known, Function.update_self]

theorem Alike.read (alike : Alike consumerId rb rb') (count : Nat) :
    (rb'.readRecent consumerId count).1 = (rb.readRecent consumerId count).1 ∧
      Alike consumerId (rb.readRecent consumerId count).2 (rb'.readRecent consumerId count).2 := by
  obtain ⟨cursors, rfl, same⟩ := alike
  by_cases none : count = 0
  · simp only [readRecent, none, ↓reduceIte]
    exact ⟨trivial, cursors, rfl, same⟩
  by_cases unknown : consumerId < 0 ∨ maxConsumers ≤ consumerId
  · simp only [readRecent, none, unknown, ↓reduceIte]
    exact ⟨trivial, cursors, rfl, same⟩
  have known : served consumerId := not_not.mp fun absent => unknown (not_served_iff.mp absent)
  have cursor := Alike.cursors same known
  by_cases caughtUp : rb.publishedPos ≤ rb.consumerCursors consumerId.toNat
  · simp only [readRecent, withCursors, cursor, none, unknown, caughtUp, ↓reduceIte]
    exact ⟨trivial, cursors, rfl, same⟩
  · simp only [readRecent, withCursors, cursor, none, unknown, caughtUp, ↓reduceIte, mask]
    exact ⟨rfl, alike_update known cursors _⟩

theorem Alike.evict (alike : Alike consumerId rb rb') :
    Alike consumerId (rb.evictSlowConsumer consumerId).2 (rb'.evictSlowConsumer consumerId).2 := by
  obtain ⟨cursors, rfl, same⟩ := alike
  by_cases known : served consumerId
  · have cursor := Alike.cursors same known
    simp only [evictSlowConsumer, withCursors, cursor]
    repeat' split
    · exact ⟨cursors, rfl, same⟩
    · exact alike_update known _ _
    · exact ⟨cursors, rfl, same⟩
  · simp only [evictSlowConsumer, not_served_iff.mp known, ↓reduceIte]
    exact ⟨cursors, rfl, same⟩

/-- A call that does not concern the consumer may as well not have been made. -/
theorem Alike.left (alike : Alike consumerId rb rb') {call : RingCall T} (other : call.concerns consumerId = false) :
    Alike consumerId (step rb call).1 rb' := by
  cases call with
  | push item => cases other
  | pushBatch items => cases other
  | readRecent reader count =>
    have apart : reader ≠ consumerId := beq_eq_false_iff_ne.mp other
    rcases readRecent_cases rb reader count with ⟨nothing, -⟩ | ⟨known, -, reads⟩
    · simp only [step, nothing]
      exact alike
    · simp only [step, reads]
      exact alike.moved known apart _
  | evictSlowConsumer evicted =>
    have apart : evicted ≠ consumerId := beq_eq_false_iff_ne.mp other
    rcases evictSlowConsumer_cases rb evicted with nothing | ⟨known, evicts⟩
    · simp only [step, nothing]
      exact alike
    · simp only [step, evicts]
      exact alike.moved known apart _

theorem Alike.both (alike : Alike consumerId rb rb') {call : RingCall T} (own : call.concerns consumerId = true) :
    Alike consumerId (step rb call).1 (step rb' call).1 ∧ (step rb' call).2 = (step rb call).2 := by
  cases call with
  | push item => exact ⟨alike.foldl [item], rfl⟩
  | pushBatch items =>
    refine ⟨?_, rfl⟩
    simp only [step, pushBatch_eq_foldl]
    exact alike.foldl items
  | readRecent reader count =>
    obtain rfl := eq_of_beq own
    obtain ⟨handed, alike⟩ := alike.read count
    exact ⟨alike, congrArg (List.map _) handed⟩
  | evictSlowConsumer evicted =>
    obtain rfl := eq_of_beq own
    exact ⟨alike.evict, rfl⟩

theorem isOf_of_not_concerns {call : RingCall T} (other : call.concerns consumerId = false) :
    call.isOf consumerId = false := by
  cases call with
  | push item => rfl
  | pushBatch items => rfl
  | readRecent reader count => exact other
  | evictSlowConsumer evicted => exact other

/-- A consumer is handed the same items when the calls of all others are left out. -/
theorem readBy_filter (alike : Alike consumerId rb rb') (calls : List (RingCall T)) :
    readBy consumerId (Runs.outputs step rb' (calls.filter (·.concerns consumerId))) =
      readBy consumerId (Runs.outputs step rb calls) := by
  induction calls generalizing rb rb' with
  | nil => rfl
  | cons call calls ih =>
    cases own : call.concerns consumerId with
    | true =>
      obtain ⟨alike, same⟩ := alike.both own
      rw [List.filter_cons_of_pos own, Runs.outputs, Runs.outputs, readBy_append, readBy_append, ih alike, same]
    | false =>
      have nothing := (step_other (isOf_of_not_concerns own) rb).2
      rw [List.filter_cons_of_neg (Bool.eq_false_iff.mp own), Runs.outputs, readBy_append, nothing, List.nil_append,
        ih (alike.left own)]

/-- What a consumer is handed in a run: items of the push order, each at most once and in that order, all up
to its cursor but those that a call of its own found a buffer's length or more behind. A read goes on from there,
with as many items as it asks for and the buffer has. -/
theorem consumers_follow (capacity : RingCapacity) (blank : T) (calls : List (RingCall T)) (consumerId : Int) :
    (∃ seen : List Nat, seen.Pairwise (· < ·) ∧
      (handedTo capacity blank calls consumerId).map some = seen.map ((history calls)[·]?) ∧
      (∀ p ∈ seen, p < (after capacity blank calls).cursorOf consumerId) ∧
      ∀ p < (after capacity blank calls).cursorOf consumerId, p ∉ seen →
        Overtaken capacity blank calls consumerId p) ∧
    (handedTo capacity blank calls consumerId).Sublist (history calls) ∧
    (∀ (rb : RingBuffer T) (items : List T), rb.pushBatch items = items.foldl push rb) ∧
    handedTo capacity blank (calls.filter (·.concerns consumerId)) consumerId =
      handedTo capacity blank calls consumerId ∧
    (served consumerId → ∀ count, ((after capacity blank calls).readRecent consumerId count).1 =
      ((history calls).drop (resume capacity.1 (history calls).length
        ((after capacity blank calls).cursorOf consumerId))).take (min count capacity.1)) := by
  have followed : ∃ seen, Follows capacity blank calls consumerId seen := follows_run
  obtain ⟨seen, follows⟩ := followed
  have trail := follows.trail
  refine ⟨⟨seen, trail.ascending, follows.handed, trail.below, fun p below unread => ?_⟩,
    sublist_of_places trail.ascending follows.handed, pushBatch_eq_foldl, readBy_filter (Alike.refl _) calls,
    readRecent_next⟩
  exact (trail.complete p below).resolve_left unread

end Runs
end RingBuffer
end EnerSentry.Datahub
