import Mathlib.Data.List.Basic
import Mathlib.Logic.Function.Basic
import EnerSentry.Lib.Runs

/-!
The ring buffer between the collector and its consumers: one writer, slots picked by a
bit mask, a count of published items and one cursor for each consumer. The calls are
taken one after the other, so written and published items agree between calls.
-/

namespace EnerSentry.Datahub
open EnerSentry.Lib

/-- The constructor's check. -/
def acceptedCapacity (capacity : Nat) : Bool :=
  !(capacity < 2 || capacity > 65536 || capacity &&& (capacity - 1) != 0)

abbrev RingCapacity := { capacity : Nat // acceptedCapacity capacity = true }

structure RingBuffer (T : Type*) where
  capacity : RingCapacity
  buffer : Nat → T
  writePos : Nat := 0
  publishedPos : Nat := 0
  consumerCursors : Nat → Nat := fun _ => 0

namespace RingBuffer
variable {T U : Type*}

def maxConsumers : Int := 4

def create (capacity : Nat) (blank : T) : Except String (RingBuffer T) :=
  if accepted : acceptedCapacity capacity = true then
    .ok { capacity := ⟨capacity, accepted⟩, buffer := fun _ => blank }
  else .error "RingBuffer capacity must be a power of 2 in [2, 65536]"

def mask (rb : RingBuffer T) : Nat := rb.capacity.1 - 1

def push (rb : RingBuffer T) (item : T) : RingBuffer T :=
  let pos := rb.writePos
  { rb with
    writePos := pos + 1
    buffer := Function.update rb.buffer (pos &&& rb.mask) item
    publishedPos := pos + 1 }

/-- The batch's slots, filled one after the other. -/
def store (mask : Nat) (buffer : Nat → T) (pos : Nat) : List T → Nat → T
  | [] => buffer
  | item :: items => store mask (Function.update buffer (pos &&& mask) item) (pos + 1) items

def pushBatch (rb : RingBuffer T) (items : List T) : RingBuffer T :=
  if items.length = 0 then rb
  else
    let startPos := rb.writePos
    { rb with
      writePos := startPos + items.length
      buffer := store rb.mask rb.buffer startPos items
      publishedPos := startPos + items.length }

def readRecent (rb : RingBuffer T) (consumerId : Int) (count : Nat) : List T × RingBuffer T :=
  if count = 0 then ([], rb)
  else if consumerId < 0 ∨ maxConsumers ≤ consumerId then ([], rb)
  else
    let cap := rb.capacity.1
    let count := if cap < count then cap else count
    let published := rb.publishedPos
    let cursor := rb.consumerCursors consumerId.toNat
    if published ≤ cursor then ([], rb)
    else
      let cursor := if cap ≤ published - cursor then published - cap else cursor
      let readable := min (published - cursor) count
      ((List.range readable).map (fun i => rb.buffer ((cursor + i) &&& rb.mask)),
        { rb with consumerCursors :=
            Function.update rb.consumerCursors consumerId.toNat (cursor + readable) })

/-- One pass over `left` positions from `pos`; `out` is what has been collected. -/
def scan (rb : RingBuffer T) (timestamp : T → UInt64) (startTs endTs : UInt64) (maxCount : Nat) :
    Nat → Nat → List T → List T
  | 0, _, out => out
  | left + 1, pos, out =>
      if out.length < maxCount then
        let val := rb.buffer (pos &&& rb.mask)
        if startTs ≤ timestamp val then
          if endTs < timestamp val then out
          else scan rb timestamp startTs endTs maxCount left (pos + 1) (out ++ [val])
        else scan rb timestamp startTs endTs maxCount left (pos + 1) out
      else out

def extractRange (rb : RingBuffer T) (timestamp : T → UInt64) (startTs endTs : UInt64)
    (maxCount : Nat) : List T :=
  if maxCount = 0 ∨ endTs < startTs then []
  else if rb.publishedPos = 0 then []
  else rb.scan timestamp startTs endTs maxCount rb.publishedPos 0 []

/-- Whether the cursor was fine, and the buffer with the cursor moved if it was not. -/
def evictSlowConsumer (rb : RingBuffer T) (consumerId : Int) : Bool × RingBuffer T :=
  if consumerId < 0 ∨ maxConsumers ≤ consumerId then (true, rb)
  else
    let cap := rb.capacity.1
    let published := rb.publishedPos
    if cap ≤ published - rb.consumerCursors consumerId.toNat then
      (false, { rb with consumerCursors :=
          Function.update rb.consumerCursors consumerId.toNat (published - cap) })
    else (true, rb)

end RingBuffer

/-- The calls that change a ring buffer. -/
inductive RingCall (T : Type*) where
  | push (item : T)
  | pushBatch (items : List T)
  | readRecent (consumerId : Int) (count : Nat)
  | evictSlowConsumer (consumerId : Int)
  deriving DecidableEq, Repr

namespace RingCall
variable {T U : Type*}

/-- The items a call publishes. -/
def pushed : RingCall T → List T
  | .push item => [item]
  | .pushBatch items => items
  | _ => []

def map (f : T → U) : RingCall T → RingCall U
  | .push item => .push (f item)
  | .pushBatch items => .pushBatch (items.map f)
  | .readRecent consumerId count => .readRecent consumerId count
  | .evictSlowConsumer consumerId => .evictSlowConsumer consumerId

/-- The same call with every item beside its place in the push order. -/
def numbered (start : Nat) : RingCall T → RingCall (T × Nat)
  | .push item => .push (item, start)
  | .pushBatch items => .pushBatch (items.zipIdx start)
  | .readRecent consumerId count => .readRecent consumerId count
  | .evictSlowConsumer consumerId => .evictSlowConsumer consumerId

theorem pushed_numbered (start : Nat) (call : RingCall T) :
    (call.numbered start).pushed = call.pushed.zipIdx start := by
  cases call <;> rfl

theorem map_numbered (start : Nat) (call : RingCall T) :
    (call.numbered start).map Prod.fst = call := by
  cases call <;> simp [numbered, map]

end RingCall

namespace RingBuffer
variable {T U : Type*}

/-- What a call leaves behind, and what it hands to the consumer it names. -/
def step : Runs.Step (RingBuffer T) (RingCall T) (Int × T) := fun rb call =>
  match call with
  | .push item => (rb.push item, [])
  | .pushBatch items => (rb.pushBatch items, [])
  | .readRecent consumerId count =>
      let (items, after) := rb.readRecent consumerId count
      (after, items.map (fun item => (consumerId, item)))
  | .evictSlowConsumer consumerId => ((rb.evictSlowConsumer consumerId).2, [])

/-- A freshly built buffer. -/
def fresh (capacity : RingCapacity) (blank : T) : RingBuffer T :=
  { capacity := capacity, buffer := fun _ => blank }

/-- Everything a list of calls publishes, in push order. -/
def history (calls : List (RingCall T)) : List T := calls.flatMap RingCall.pushed

/-- A run's calls, every item numbered in push order from `start` on. -/
def numbered (start : Nat) : List (RingCall T) → List (RingCall (T × Nat))
  | [] => []
  | call :: calls => call.numbered start :: numbered (start + call.pushed.length) calls

theorem history_numbered (start : Nat) (calls : List (RingCall T)) :
    history (numbered start calls) = (history calls).zipIdx start := by
  induction calls generalizing start with
  | nil => rfl
  | cons call calls ih =>
    simp only [history, numbered, List.flatMap_cons, RingCall.pushed_numbered, List.zipIdx_append] at ih ⊢
    rw [ih]

theorem map_numbered (start : Nat) (calls : List (RingCall T)) :
    (numbered start calls).map (RingCall.map Prod.fst) = calls := by
  induction calls generalizing start with
  | nil => rfl
  | cons call calls ih => simp only [numbered, List.map_cons, RingCall.map_numbered, ih]

section Rename
variable (f : T → U) (rb : RingBuffer T)

/-- A buffer with its items renamed; the code never looks at more than their timestamps. -/
def map : RingBuffer U := { rb with buffer := f ∘ rb.buffer }

theorem map_store (mask : Nat) (buffer : Nat → T) (pos : Nat) (items : List T) :
    f ∘ store mask buffer pos items = store mask (f ∘ buffer) pos (items.map f) := by
  induction items generalizing buffer pos with
  | nil => rfl
  | cons item items ih => simp only [store, List.map_cons, ih, Function.comp_update]

theorem map_readRecent (consumerId : Int) (count : Nat) :
    (rb.readRecent consumerId count).2.map f = ((rb.map f).readRecent consumerId count).2 := by
  by_cases none : count = 0
  · simp [readRecent, none]
  by_cases unknown : consumerId < 0 ∨ maxConsumers ≤ consumerId
  · simp [readRecent, none, unknown]
  by_cases caughtUp : rb.publishedPos ≤ rb.consumerCursors consumerId.toNat
  · simp [readRecent, none, unknown, map, caughtUp]
  · simp only [readRecent, none, unknown, map, caughtUp, ↓reduceIte]
    rfl

theorem map_evictSlowConsumer (consumerId : Int) :
    (rb.evictSlowConsumer consumerId).2.map f = ((rb.map f).evictSlowConsumer consumerId).2 := by
  by_cases unknown : consumerId < 0 ∨ maxConsumers ≤ consumerId
  · simp [evictSlowConsumer, unknown]
  by_cases slow : rb.capacity.1 ≤ rb.publishedPos - rb.consumerCursors consumerId.toNat
  · simp [evictSlowConsumer, unknown, map, slow]
  · simp [evictSlowConsumer, unknown, map, slow]

theorem map_pushBatch (items : List T) :
    (rb.pushBatch items).map f = (rb.map f).pushBatch (items.map f) := by
  by_cases none : items.length = 0
  · simp [pushBatch, none]
  · simp [pushBatch, none, map, map_store, mask]

theorem map_step (call : RingCall T) : (step rb call).1.map f = (step (rb.map f) (call.map f)).1 := by
  cases call with
  | push item => simp [step, push, map, RingCall.map, Function.comp_update, mask]
  | pushBatch items => exact map_pushBatch f rb items
  | readRecent consumerId count => exact map_readRecent f rb consumerId count
  | evictSlowConsumer consumerId => exact map_evictSlowConsumer f rb consumerId

theorem map_run (calls : List (RingCall T)) :
    (Runs.run step rb calls).map f = Runs.run step (rb.map f) (calls.map (RingCall.map f)) :=
  Runs.run_mirrored (RingBuffer.map f) (RingCall.map f) (map_step f) rb calls

variable (timestamp : U → UInt64) (startTs endTs : UInt64) (maxCount : Nat)

theorem map_scan (left pos : Nat) (out : List T) :
    (rb.scan (timestamp ∘ f) startTs endTs maxCount left pos out).map f =
      (rb.map f).scan timestamp startTs endTs maxCount left pos (out.map f) := by
  induction left generalizing pos out with
  | zero => rfl
  | succ left ih =>
    have cell : (rb.map f).buffer (pos &&& (rb.map f).mask) = f (rb.buffer (pos &&& rb.mask)) := rfl
    simp only [scan, cell, Function.comp_apply, List.length_map]
    by_cases room : out.length < maxCount
    · by_cases inside : startTs ≤ timestamp (f (rb.buffer (pos &&& rb.mask)))
      · by_cases above : endTs < timestamp (f (rb.buffer (pos &&& rb.mask)))
        · simp only [room, inside, above, ↓reduceIte]
        · simp only [room, inside, above, ↓reduceIte, ih, List.map_append, List.map_singleton]
      · simp only [room, inside, ↓reduceIte, ih]
    · simp only [room, ↓reduceIte]

theorem map_extractRange :
    (rb.extractRange (timestamp ∘ f) startTs endTs maxCount).map f =
      (rb.map f).extractRange timestamp startTs endTs maxCount := by
  have published : (rb.map f).publishedPos = rb.publishedPos := rfl
  simp only [extractRange, published]
  by_cases void : maxCount = 0 ∨ endTs < startTs
  · simp only [void, ↓reduceIte, List.map_nil]
  · by_cases none : rb.publishedPos = 0
    · simp only [void, none, ↓reduceIte, List.map_nil]
    · simp only [void, none, ↓reduceIte, map_scan, List.map_nil]

end Rename

/-- Numbering the items of a run does not change what a query of it returns. -/
theorem extractRange_numbered (capacity : RingCapacity) (blank : T × Nat) (calls : List (RingCall T))
    (timestamp : T → UInt64) (startTs endTs : UInt64) (maxCount : Nat) :
    ((Runs.run step (fresh capacity blank) (numbered 0 calls)).extractRange (timestamp ∘ Prod.fst)
        startTs endTs maxCount).map Prod.fst =
      (Runs.run step (fresh capacity blank.1) calls).extractRange timestamp startTs endTs maxCount := by
  rw [map_extractRange, map_run, map_numbered]
  rfl

/-- The mask picks slots modulo the capacity. -/
theorem and_mask (rb : RingBuffer T) (pos : Nat) : pos &&& rb.mask = pos % rb.capacity.1 := by
  unfold mask
  obtain ⟨capacity, accepted⟩ := rb.capacity
  simp only [acceptedCapacity, Bool.not_eq_eq_eq_not, Bool.not_true, Bool.or_eq_false_iff,
    decide_eq_false_iff_not, bne_eq_false_iff_eq] at accepted
  obtain ⟨k, power⟩ := (Nat.and_sub_one_eq_zero_iff_isPowerOfTwo (by omega)).mp accepted.2
  simp only [power, Nat.and_two_pow_sub_one_eq_mod]

theorem capacity_pos (capacity : RingCapacity) : 0 < capacity.1 := by
  obtain ⟨capacity, accepted⟩ := capacity
  simp only [acceptedCapacity, Bool.not_eq_eq_eq_not, Bool.not_true, Bool.or_eq_false_iff,
    decide_eq_false_iff_not] at accepted
  show 0 < capacity
  omega

/-- A batch is its items pushed one by one. -/
theorem pushBatch_eq_foldl (rb : RingBuffer T) (items : List T) :
    rb.pushBatch items = items.foldl push rb := by
  induction items generalizing rb with
  | nil => rfl
  | cons item items ih =>
    rw [List.foldl_cons, ← ih]
    cases items with
    | nil => rfl
    | cons next items =>
      simp [pushBatch, push, store, mask]
      omega

/-- What a buffer holds of the items pushed so far: the last `capacity` of them, each in
the slot of its place. -/
structure Stores (rb : RingBuffer T) (hist : List T) : Prop where
  written : rb.writePos = hist.length
  published : rb.publishedPos = hist.length
  slot : ∀ j x, hist[j]? = some x → hist.length ≤ j + rb.capacity.1 → rb.buffer (j % rb.capacity.1) = x

theorem stores_fresh (capacity : RingCapacity) (blank : T) : (fresh capacity blank).Stores [] :=
  ⟨rfl, rfl, by simp⟩

theorem mod_ne_of_lt {j n c : Nat} (before : j < n) (near : n < j + c) : j % c ≠ n % c := by
  intro same
  have whole := Nat.sub_mod_eq_zero_of_mod_eq same.symm
  rw [Nat.mod_eq_of_lt (by omega)] at whole
  omega

theorem Stores.push {rb : RingBuffer T} {hist : List T} (stores : rb.Stores hist) (item : T) :
    (rb.push item).Stores (hist ++ [item]) := by
  refine ⟨by simp [RingBuffer.push, stores.written], by simp [RingBuffer.push, stores.written], ?_⟩
  intro j x held near
  simp only [RingBuffer.push, and_mask, stores.written, List.length_append, List.length_singleton] at near ⊢
  by_cases last : j = hist.length
  · subst last
    rw [Function.update_self]
    simpa using held
  · have bound := (List.getElem?_eq_some_iff.mp held).1
    rw [List.length_append, List.length_singleton] at bound
    rw [Function.update_of_ne (mod_ne_of_lt (by omega) (by omega))]
    rw [List.getElem?_append_left (by omega)] at held
    exact stores.slot j x held (by omega)

theorem Stores.foldl {rb : RingBuffer T} {hist : List T} (stores : rb.Stores hist) (items : List T) :
    (items.foldl RingBuffer.push rb).Stores (hist ++ items) := by
  induction items generalizing rb hist with
  | nil => simpa using stores
  | cons item items ih =>
    rw [List.foldl_cons, List.append_cons]
    exact ih (stores.push item)

theorem Stores.step {rb : RingBuffer T} {hist : List T} (stores : rb.Stores hist)
    (call : RingCall T) : (RingBuffer.step rb call).1.Stores (hist ++ call.pushed) := by
  cases call with
  | push item => exact stores.push item
  | pushBatch items =>
    simp only [RingBuffer.step, pushBatch_eq_foldl]
    exact stores.foldl items
  | readRecent consumerId count =>
    simp only [RingBuffer.step, readRecent, RingCall.pushed, List.append_nil]
    split
    · exact stores
    · split
      · exact stores
      · split
        · exact stores
        · exact ⟨stores.written, stores.published, stores.slot⟩
  | evictSlowConsumer consumerId =>
    simp only [RingBuffer.step, evictSlowConsumer, RingCall.pushed, List.append_nil]
    split
    · exact stores
    · split
      · exact ⟨stores.written, stores.published, stores.slot⟩
      · exact stores

theorem capacity_step (rb : RingBuffer T) (call : RingCall T) :
    (step rb call).1.capacity = rb.capacity := by
  cases call with
  | push item => rfl
  | pushBatch items =>
    simp only [step, pushBatch]
    split <;> rfl
  | readRecent consumerId count =>
    simp only [step, readRecent]
    repeat' split
    all_goals rfl
  | evictSlowConsumer consumerId =>
    simp only [step, evictSlowConsumer]
    repeat' split
    all_goals rfl

/-- Throughout a run the buffer holds the tail of the run's history. -/
theorem stores_run {rb : RingBuffer T} {hist : List T} (stores : rb.Stores hist)
    (calls : List (RingCall T)) : (Runs.run step rb calls).Stores (hist ++ history calls) := by
  induction calls generalizing rb hist with
  | nil => simpa [history, Runs.run] using stores
  | cons call calls ih =>
    have later := ih (stores.step call)
    rwa [List.append_assoc] at later

theorem capacity_run (rb : RingBuffer T) (calls : List (RingCall T)) :
    (Runs.run step rb calls).capacity = rb.capacity := by
  induction calls generalizing rb with
  | nil => rfl
  | cons call calls ih => exact (ih _).trans (capacity_step rb call)

end RingBuffer
end EnerSentry.Datahub
