import EnerSentry.Lib.Laps
import EnerSentry.Datahub.RingBuffer

/-!
The time window query of the ring buffer. The scan runs over every position ever
published, so once the buffer has wrapped it reads the slots in slot order, lap after
lap; the last result says for which histories and windows that still gives the retained
samples of the window, each once and in push order.
-/

namespace EnerSentry.Datahub
open EnerSentry.Lib EnerSentry.Lib.Laps

namespace RingBuffer
variable {T : Type*} (timestamp : T → UInt64) (startTs endTs : UInt64) (maxCount : Nat)

/-- The samples of a list whose timestamps lie in the window. -/
def inWindow (l : List T) : List T := l.filter (fun x => startTs ≤ timestamp x ∧ timestamp x ≤ endTs)

/-- The samples the buffer still holds of a history, oldest first. -/
def retained (capacity : Nat) (hist : List T) : List T := hist.drop (hist.length - capacity)

/-- The retained samples that lie behind the write position in slot order. -/
def behind (capacity : Nat) (hist : List T) : List T :=
  (retained capacity hist).take (capacity - hist.length % capacity)

/-- When the scan of a history gives what the window asks for. -/
def ScanMeets (capacity : Nat) (hist : List T) : Prop :=
  hist.length ≤ capacity ∨ endTs < startTs ∨ maxCount = 0 ∨
    inWindow timestamp startTs endTs (retained capacity hist) = [] ∨
    ((hist.length % capacity = 0 ∨ inWindow timestamp startTs endTs (behind capacity hist) = []) ∧
      ((∃ x ∈ retained capacity hist, endTs < timestamp x) ∨
        maxCount ≤ (inWindow timestamp startTs endTs (retained capacity hist)).length))

variable {timestamp startTs endTs maxCount}

def stamp (timestamp : T → UInt64) (x : T) : Nat := (timestamp x).toNat

theorem inWindow_eq_within (l : List T) : inWindow timestamp startTs endTs l =
    within (stamp timestamp) startTs.toNat endTs.toNat l := by
  apply List.filter_congr
  intro x _
  exact decide_eq_decide.mpr (by simp only [stamp, UInt64.le_iff_toNat_le])

/-- The loop collects what a reader of the slots collects, up to the room left. -/
theorem scan_eq (rb : RingBuffer T) (window : startTs ≤ endTs) (left pos : Nat) (out : List T) :
    rb.scan timestamp startTs endTs maxCount left pos out =
      out ++ (scanned (stamp timestamp) startTs.toNat endTs.toNat
        ((List.range' pos left).map (fun i => rb.buffer (i &&& rb.mask)))).take (maxCount - out.length) := by
  induction left generalizing pos out with
  | zero => simp [scan, scanned]
  | succ left ih =>
    rw [scan, List.range'_succ, List.map_cons, scanned_cons]
    by_cases room : out.length < maxCount
    · simp only [if_pos room, stamp, ← UInt64.le_iff_toNat_le, ← UInt64.not_lt]
      by_cases above : endTs < timestamp (rb.buffer (pos &&& rb.mask))
      · have inside := UInt64.not_lt.mpr (UInt64.le_trans window (UInt64.le_of_lt above))
        simp [above, inside]
      · by_cases before : timestamp (rb.buffer (pos &&& rb.mask)) < startTs
        · simp [above, before, ih]
        · have step : maxCount - out.length = (maxCount - (out ++ [rb.buffer (pos &&& rb.mask)]).length) + 1 := by
            rw [List.length_append, List.length_singleton]
            omega
          simp only [above, before, not_false_eq_true, ↓reduceIte, ih, step, List.take_succ_cons,
            List.append_assoc, List.singleton_append]
    · have none : maxCount - out.length = 0 := by omega
      simp [room, none]

theorem extractRange_eq_scanned (rb : RingBuffer T) (window : startTs ≤ endTs) :
    rb.extractRange timestamp startTs endTs maxCount =
      (scanned (stamp timestamp) startTs.toNat endTs.toNat
        ((List.range rb.publishedPos).map (fun i => rb.buffer (i % rb.capacity.1)))).take maxCount := by
  unfold extractRange
  by_cases none : maxCount = 0
  · simp [none]
  by_cases empty : rb.publishedPos = 0
  · simp [empty, scanned]
  · rw [if_neg (by simp [none, UInt64.not_lt.mpr window]), if_neg empty, scan_eq rb window,
      List.nil_append, List.length_nil, Nat.sub_zero, ← List.range_eq_range']
    simp only [and_mask]

section Slots
variable {rb : RingBuffer T} {hist : List T}

/-- Before the first wrap the slots are the history. -/
theorem Stores.unwrapped (stores : rb.Stores hist) (short : hist.length ≤ rb.capacity.1) :
    (List.range hist.length).map (fun i => rb.buffer (i % rb.capacity.1)) = hist := by
  apply List.ext_getElem
  · simp
  · intro i before bound
    simp only [List.getElem_map, List.getElem_range]
    exact stores.slot i _ (List.getElem?_eq_getElem bound) (by omega)

theorem Stores.slot_eq (stores : rb.Stores hist) {i j : Nat} (bound : j < hist.length)
    (near : hist.length ≤ j + rb.capacity.1) (place : j % rb.capacity.1 = i) :
    rb.buffer i = hist[j] := by
  rw [← place]
  exact stores.slot j _ (List.getElem?_eq_getElem bound) near

/-- The newest samples of a wrapped buffer, those in front of the write position. -/
def newest (capacity : Nat) (hist : List T) : List T :=
  hist.drop (hist.length - hist.length % capacity)

theorem length_newest (capacity : Nat) (hist : List T) :
    (newest capacity hist).length = hist.length % capacity := by
  have part := Nat.mod_le hist.length capacity
  rw [newest, List.length_drop]
  omega

theorem newest_eq_nil_iff {capacity : Nat} : newest capacity hist = [] ↔ hist.length % capacity = 0 := by
  rw [← List.length_eq_zero_iff, length_newest]

/-- After it, a lap over the slots starts with the newest items. -/
theorem Stores.wrapped (stores : rb.Stores hist) (long : rb.capacity.1 < hist.length) :
    (List.range rb.capacity.1).map rb.buffer = newest rb.capacity.1 hist ++ behind rb.capacity.1 hist := by
  have small := Nat.mod_lt hist.length (capacity_pos rb.capacity)
  have laps := Nat.div_add_mod hist.length rb.capacity.1
  have lap : 1 ≤ hist.length / rb.capacity.1 :=
    (Nat.one_le_div_iff (capacity_pos rb.capacity)).mpr long.le
  obtain ⟨q, count⟩ := Nat.exists_eq_add_of_le' lap
  rw [count, Nat.mul_succ] at laps
  apply List.ext_getElem
  · simp only [List.length_map, List.length_range, length_newest, behind, retained, List.length_append,
      List.length_drop, List.length_take]
    omega
  · intro i before bound
    simp only [List.length_map, List.length_range] at before
    rw [List.getElem_map, List.getElem_range]
    by_cases front : i < hist.length % rb.capacity.1
    · have place : (hist.length - hist.length % rb.capacity.1 + i) % rb.capacity.1 = i := by
        have whole : hist.length - hist.length % rb.capacity.1 + i = i + rb.capacity.1 * (q + 1) := by
          rw [Nat.mul_succ]
          omega
        rw [whole, Nat.add_mul_mod_self_left, Nat.mod_eq_of_lt before]
      rw [List.getElem_append_left (by rw [length_newest]; exact front)]
      simp only [newest, List.getElem_drop]
      exact stores.slot_eq (by omega) (by omega) place
    · have place : (hist.length - rb.capacity.1 + (i - hist.length % rb.capacity.1)) % rb.capacity.1 = i := by
        have whole : hist.length - rb.capacity.1 + (i - hist.length % rb.capacity.1) =
            i + rb.capacity.1 * q := by omega
        rw [whole, Nat.add_mul_mod_self_left, Nat.mod_eq_of_lt before]
      rw [List.getElem_append_right (by rw [length_newest]; exact Nat.not_lt.mp front)]
      simp only [behind, retained, length_newest, List.getElem_take, List.getElem_drop]
      exact stores.slot_eq (by omega) (by omega) place

/-- The retained samples, oldest first, are those behind the write position and then the newest. -/
theorem retained_eq (capacity : Nat) (positive : 0 < capacity) (long : capacity < hist.length) :
    retained capacity hist = behind capacity hist ++ newest capacity hist := by
  have small := Nat.mod_lt hist.length positive
  have split := List.take_append_drop (capacity - hist.length % capacity) (retained capacity hist)
  have place : hist.length - capacity + (capacity - hist.length % capacity) =
      hist.length - hist.length % capacity := by omega
  rw [← split, behind, newest]
  congr 1
  rw [retained, List.drop_drop, place]

/-- The slots in front of the write position hold the newest items. -/
theorem Stores.front (stores : rb.Stores hist) (long : rb.capacity.1 < hist.length) :
    (List.range (hist.length % rb.capacity.1)).map (fun i => rb.buffer (i % rb.capacity.1)) =
      newest rb.capacity.1 hist := by
  have small := Nat.mod_lt hist.length (capacity_pos rb.capacity)
  calc (List.range (hist.length % rb.capacity.1)).map (fun i => rb.buffer (i % rb.capacity.1))
      = (List.range (hist.length % rb.capacity.1)).map rb.buffer := by
        apply List.map_congr_left
        intro i member
        rw [Nat.mod_eq_of_lt ((List.mem_range.mp member).trans small)]
    _ = ((List.range rb.capacity.1).map rb.buffer).take (hist.length % rb.capacity.1) := by
        rw [← List.map_take, List.take_range, Nat.min_eq_left small.le]
    _ = newest rb.capacity.1 hist := by
        rw [stores.wrapped long, List.take_left' (length_newest _ _)]

/-- What a scan of a wrapped buffer reads: the newest samples, those behind them, and then
the same lap again until all positions are used up. -/
theorem Stores.reads (stores : rb.Stores hist) (long : rb.capacity.1 < hist.length) :
    ∃ again, (List.range hist.length).map (fun i => rb.buffer (i % rb.capacity.1)) =
        newest rb.capacity.1 hist ++ (behind rb.capacity.1 hist ++ again) ∧
      (∀ x ∈ again, x ∈ retained rb.capacity.1 hist) ∧
      (∀ x ∈ newest rb.capacity.1 hist, x ∈ again) ∧
      (newest rb.capacity.1 hist = [] → ∀ x ∈ behind rb.capacity.1 hist, x ∈ again) := by
  have positive := capacity_pos rb.capacity
  have laps := Nat.div_add_mod hist.length rb.capacity.1
  obtain ⟨q, count⟩ := Nat.exists_eq_add_of_le' ((Nat.one_le_div_iff positive).mpr long.le)
  have lap := stores.wrapped long
  have cycle := map_range_mod rb.buffer (hist.length / rb.capacity.1) (hist.length % rb.capacity.1)
    (c := rb.capacity.1)
  rw [Nat.mul_comm, laps, stores.front long, count, List.replicate_succ, List.flatten_cons, lap,
    List.append_assoc, List.append_assoc] at cycle
  refine ⟨_, cycle, ?_, ?_, ?_⟩
  · intro x member
    rw [retained_eq rb.capacity.1 positive long]
    rcases List.mem_append.mp member with inLaps | last
    · obtain ⟨l, same, held⟩ := List.mem_flatten.mp inLaps
      rw [List.eq_of_mem_replicate same] at held
      exact List.mem_append.mpr (List.mem_append.mp held).symm
    · exact List.mem_append_right _ last
  · intro x member
    exact List.mem_append_right _ member
  · intro aligned x member
    have whole := newest_eq_nil_iff.mp aligned
    have more : q ≠ 0 := by
      intro once
      rw [whole, count, once] at laps
      omega
    apply List.mem_append_left
    refine List.mem_flatten.mpr ⟨_, List.mem_replicate.mpr ⟨more, rfl⟩, ?_⟩
    exact List.mem_append_right _ member

theorem inWindow_empty (l : List T) (void : endTs < startTs) : inWindow timestamp startTs endTs l = [] := by
  rw [inWindow, List.filter_eq_nil_iff]
  intro x _ inside
  obtain ⟨least, most⟩ := of_decide_eq_true inside
  exact UInt64.not_lt.mpr (UInt64.le_trans least most) void

/-- The scan of a buffer that holds an ordered history of distinct samples. -/
theorem Stores.scan_iff (stores : rb.Stores hist) (distinct : hist.Nodup)
    (ordered : (hist.map timestamp).Pairwise (· ≤ ·)) (startTs endTs : UInt64) (maxCount : Nat) :
    rb.extractRange timestamp startTs endTs maxCount =
        (inWindow timestamp startTs endTs (retained rb.capacity.1 hist)).take maxCount ↔
      ScanMeets timestamp startTs endTs maxCount rb.capacity.1 hist := by
  have sorted : hist.Pairwise (fun x y => stamp timestamp x ≤ stamp timestamp y) := by
    rw [List.pairwise_map] at ordered
    exact ordered.imp UInt64.le_iff_toNat_le.mp
  by_cases void : endTs < startTs
  · simp [extractRange, inWindow_empty _ void, ScanMeets, void]
  rw [extractRange_eq_scanned rb (UInt64.not_lt.mp void), stores.published, inWindow_eq_within]
  by_cases short : hist.length ≤ rb.capacity.1
  · have all : retained rb.capacity.1 hist = hist := by simp [retained, Nat.sub_eq_zero_of_le short]
    rw [stores.unwrapped short, scanned_sorted sorted, all]
    simp [ScanMeets, short]
  · have long := not_le.mp short
    have positive := capacity_pos rb.capacity
    obtain ⟨again, reads, inside, againNewer, againOlder⟩ := stores.reads long
    have split := retained_eq rb.capacity.1 positive long
    have sortedCycle := sorted.sublist (List.drop_sublist (hist.length - rb.capacity.1) hist)
    have distinctCycle := distinct.sublist (List.drop_sublist (hist.length - rb.capacity.1) hist)
    rw [← retained, split] at sortedCycle distinctCycle
    rw [split] at inside
    rw [reads, split, scanned_rotated_iff sortedCycle distinctCycle inside againNewer againOlder,
      newest_eq_nil_iff, ← split]
    simp only [ScanMeets, short, void, inWindow_eq_within, stamp, UInt64.lt_iff_toNat_lt, false_or]

end Slots

theorem nodup_zipIdx (l : List T) (start : Nat) : (l.zipIdx start).Nodup := by
  have places := List.nodup_range' (s := start) (n := l.length)
  rw [← List.zipIdx_map_snd] at places
  exact List.Nodup.of_map _ places

theorem inWindow_map {U : Type*} (f : U → T) (l : List U) :
    inWindow timestamp startTs endTs (l.map f) = (inWindow (timestamp ∘ f) startTs endTs l).map f := by
  rw [inWindow, List.filter_map]
  rfl

theorem retained_map {U : Type*} (f : U → T) (capacity : Nat) (hist : List U) :
    retained capacity (hist.map f) = (retained capacity hist).map f := by
  simp only [retained, List.length_map, List.map_drop]

/-- The condition only looks at timestamps, so it does not see the numbering. -/
theorem scanMeets_map {U : Type*} (f : U → T) (capacity : Nat) (hist : List U) :
    ScanMeets timestamp startTs endTs maxCount capacity (hist.map f) ↔
      ScanMeets (timestamp ∘ f) startTs endTs maxCount capacity hist := by
  simp only [ScanMeets, behind, retained_map, ← List.map_take, inWindow_map, List.length_map,
    List.map_eq_nil_iff, List.mem_map, exists_exists_and_eq_and,
    Function.comp_apply]

/-- A window query of a run returns exactly the retained samples of the window, each told
apart by its place in the push order, if and only if the scan meets the window. -/
theorem extractRange_iff (capacity : RingCapacity) (blank : T × Nat) (calls : List (RingCall T))
    (timestamp : T → UInt64) (ordered : ((history calls).map timestamp).Pairwise (· ≤ ·))
    (startTs endTs : UInt64) (maxCount : Nat) :
    (Runs.run step (fresh capacity blank) (numbered 0 calls)).extractRange (timestamp ∘ Prod.fst)
        startTs endTs maxCount =
      (inWindow (timestamp ∘ Prod.fst) startTs endTs
        (retained capacity.1 (history calls).zipIdx)).take maxCount ↔
    ScanMeets timestamp startTs endTs maxCount capacity.1 (history calls) := by
  have stores := stores_run (stores_fresh capacity blank) (numbered 0 calls)
  rw [List.nil_append, history_numbered] at stores
  have kept : (Runs.run step (fresh capacity blank) (numbered 0 calls)).capacity = capacity :=
    capacity_run _ _
  have plain : (history calls).zipIdx.map Prod.fst = history calls := List.zipIdx_map_fst _ _
  have places : ((history calls).zipIdx.map (timestamp ∘ Prod.fst)).Pairwise (· ≤ ·) := by
    rw [← List.map_map, plain]
    exact ordered
  have rule := stores.scan_iff (nodup_zipIdx _ 0) places startTs endTs maxCount
  rwa [kept, ← scanMeets_map, plain] at rule

/-- A wrapped buffer asked for its oldest sample: the newest one comes first and stops the scan. -/
theorem extractRange_iff_wrapped :
    (Runs.run step (fresh ⟨2, rfl⟩ (0, 0)) (numbered 0 [.push 1, .pushBatch [2, 3]])).extractRange
        (id ∘ Prod.fst) 2 2 5 =
      (inWindow (id ∘ Prod.fst) 2 2
        (retained 2 (history ([.push 1, .pushBatch [2, 3]] : List (RingCall UInt64))).zipIdx)).take 5 ↔
    ScanMeets id 2 2 5 2 (history [.push 1, .pushBatch [2, 3]]) :=
  extractRange_iff ⟨2, rfl⟩ (0, 0) [.push 1, .pushBatch [2, 3]] id (by decide) 2 2 5

/-- Three samples in two slots: a query for all of them returns the newest one twice, and
before the older one. -/
theorem extractRange_fails :
    ¬(Runs.run step (fresh ⟨2, rfl⟩ (0, 0))
          (numbered 0 ([.push 1, .push 2, .push 3] : List (RingCall UInt64)))).extractRange
        (id ∘ Prod.fst) 1 3 5 =
      (inWindow (id ∘ Prod.fst) 1 3
        (retained 2 (history ([.push 1, .push 2, .push 3] : List (RingCall UInt64))).zipIdx)).take 5 := by
  decide +kernel

end RingBuffer
end EnerSentry.Datahub
