import EnerSentry.Datahub.BlackBoxManager
import EnerSentry.Datahub.RangeQuery

/-!
What an alarm finds of its window in the ring buffer of its point. As long as nothing in
the buffer is stamped past the window the scan runs through the slots lap after lap, so
it collects every sample of the window in its order, but some of them again and again.
-/

namespace EnerSentry.Datahub
open EnerSentry.Lib EnerSentry.Lib.Laps

namespace RingBuffer
variable {T : Type*} {timestamp : T → UInt64} {startTs endTs : UInt64} {maxCount capacity : Nat}
  {rb : RingBuffer T} {hist : List T}

/-- What a scan collects of a history in a window that nothing in the buffer is past. -/
def collected (timestamp : T → UInt64) (startTs endTs : UInt64) (capacity : Nat) (hist : List T) : List T :=
  (List.replicate (hist.length / capacity)
      (inWindow timestamp startTs endTs (newest capacity hist ++ behind capacity hist))).flatten ++
    inWindow timestamp startTs endTs (newest capacity hist)

/-- What is read of any history: whole laps, and then the newest items again. -/
theorem Stores.laps (stores : rb.Stores hist) :
    (List.range hist.length).map (fun i => rb.buffer (i % rb.capacity.1)) =
      (List.replicate (hist.length / rb.capacity.1)
          (newest rb.capacity.1 hist ++ behind rb.capacity.1 hist)).flatten ++ newest rb.capacity.1 hist := by
  have positive := capacity_pos rb.capacity
  rcases Nat.lt_trichotomy hist.length rb.capacity.1 with short | one | long
  · have all : newest rb.capacity.1 hist = hist := by
      rw [newest, Nat.mod_eq_of_lt short, Nat.sub_self, List.drop_zero]
    rw [stores.unwrapped short.le, Nat.div_eq_of_lt short, all]
    rfl
  · have none : newest rb.capacity.1 hist = [] := newest_eq_nil_iff.mpr (by rw [one, Nat.mod_self])
    have all : behind rb.capacity.1 hist = hist := by
      rw [behind, retained, one, Nat.sub_self, List.drop_zero, Nat.mod_self, Nat.sub_zero, ← one, List.take_length]
    rw [stores.unwrapped one.le, none, all, one, Nat.div_self positive]
    simp
  · have cycle := map_range_mod rb.buffer (hist.length / rb.capacity.1) (hist.length % rb.capacity.1)
      (c := rb.capacity.1)
    rw [Nat.mul_comm, Nat.div_add_mod, stores.front long, stores.wrapped long] at cycle
    exact cycle

theorem newest_sublist (capacity : RingCapacity) (hist : List T) :
    (newest capacity.1 hist).Sublist (retained capacity.1 hist) := by
  have small := Nat.mod_lt hist.length (capacity_pos capacity)
  exact List.drop_sublist_drop_left hist (by omega)

theorem behind_sublist (capacity : Nat) (hist : List T) :
    (behind capacity hist).Sublist (retained capacity hist) := List.take_sublist _ _

theorem Stores.extractRange_eq_collected (stores : rb.Stores hist) (window : startTs ≤ endTs)
    (past : ∀ x ∈ retained rb.capacity.1 hist, timestamp x ≤ endTs) :
    rb.extractRange timestamp startTs endTs maxCount =
      (collected timestamp startTs endTs rb.capacity.1 hist).take maxCount := by
  have below : ∀ x ∈ (List.replicate (hist.length / rb.capacity.1)
      (newest rb.capacity.1 hist ++ behind rb.capacity.1 hist)).flatten ++ newest rb.capacity.1 hist,
      stamp timestamp x ≤ endTs.toNat := by
    intro x member
    apply UInt64.le_iff_toNat_le.mp
    apply past
    rcases List.mem_append.mp member with inLaps | last
    · obtain ⟨l, same, held⟩ := List.mem_flatten.mp inLaps
      rw [List.eq_of_mem_replicate same] at held
      rcases List.mem_append.mp held with new | old
      · exact (newest_sublist rb.capacity hist).subset new
      · exact (behind_sublist rb.capacity.1 hist).subset old
    · exact (newest_sublist rb.capacity hist).subset last
  have none : scanned (stamp timestamp) startTs.toNat endTs.toNat ([] : List T) = [] := rfl
  have whole : scanned (stamp timestamp) startTs.toNat endTs.toNat (_ ++ []) = _ := scanned_append below
  rw [none, List.append_nil, List.append_nil, ← inWindow_eq_within] at whole
  rw [extractRange_eq_scanned rb window, stores.published, stores.laps, whole, collected, inWindow,
    List.filter_append, List.filter_flatten, List.map_replicate]
  rfl

/-- What is collected holds the retained samples of the window, in their order. -/
theorem retained_sublist_collected (capacity : RingCapacity) (hist : List T) :
    (inWindow timestamp startTs endTs (retained capacity.1 hist)).Sublist
      (collected timestamp startTs endTs capacity.1 hist) := by
  have positive := capacity_pos capacity
  unfold collected
  by_cases short : hist.length < capacity.1
  · have all : retained capacity.1 hist = newest capacity.1 hist := by
      rw [retained, newest, Nat.mod_eq_of_lt short, Nat.sub_self, Nat.sub_eq_zero_of_le short.le]
    rw [all]
    exact List.sublist_append_right _ _
  · have parts : retained capacity.1 hist = behind capacity.1 hist ++ newest capacity.1 hist := by
      rcases Nat.eq_or_lt_of_le (Nat.not_lt.mp short) with one | long
      · have none : newest capacity.1 hist = [] := newest_eq_nil_iff.mpr (by rw [← one, Nat.mod_self])
        rw [none, List.append_nil, behind, ← one, Nat.mod_self, Nat.sub_zero, List.take_of_length_le]
        rw [retained, List.length_drop]
        omega
      · exact retained_eq capacity.1 positive long
    obtain ⟨q, count⟩ := Nat.exists_eq_add_of_le'
      ((Nat.one_le_div_iff positive).mpr (Nat.not_lt.mp short))
    rw [parts, count, List.replicate_succ, List.flatten_cons]
    simp only [inWindow, List.filter_append]
    apply List.Sublist.append _ (List.Sublist.refl _)
    exact (List.sublist_append_right _ _).trans (List.sublist_append_left _ _)

theorem mem_collected {capacity : RingCapacity} {x : T}
    (member : x ∈ collected timestamp startTs endTs capacity.1 hist) : x ∈ hist := by
  have held : ∀ y, y ∈ newest capacity.1 hist ∨ y ∈ behind capacity.1 hist → y ∈ hist := by
    rintro y (new | old)
    · exact List.mem_of_mem_drop new
    · exact List.mem_of_mem_drop (List.mem_of_mem_take old)
  rcases List.mem_append.mp member with inLaps | last
  · obtain ⟨l, same, held'⟩ := List.mem_flatten.mp inLaps
    rw [List.eq_of_mem_replicate same] at held'
    exact held x (List.mem_append.mp (List.mem_of_mem_filter held'))
  · exact held x (Or.inl (List.mem_of_mem_filter last))

/-- Items that come later push retained ones out, or leave them. -/
theorem retained_append (capacity : Nat) (hist later : List T) :
    ∃ kept, kept.Sublist (retained capacity hist) ∧
      ∃ rest, rest.Sublist later ∧ retained capacity (hist ++ later) = kept ++ rest := by
  refine ⟨hist.drop ((hist ++ later).length - capacity), ?_,
    later.drop ((hist ++ later).length - capacity - hist.length), List.drop_sublist _ _, List.drop_append⟩
  apply List.drop_sublist_drop_left
  rw [List.length_append]
  omega

theorem inWindow_sublist {l l' : List T} (part : l.Sublist l') :
    (inWindow timestamp startTs endTs l).Sublist (inWindow timestamp startTs endTs l') := part.filter _

/-- A query finds everything of the window that is still there later, if nothing of the window comes
later and there is room for what is collected. -/
theorem Stores.window_kept (stores : rb.Stores hist) (window : startTs ≤ endTs)
    (past : ∀ x ∈ retained rb.capacity.1 hist, timestamp x ≤ endTs)
    (room : (collected timestamp startTs endTs rb.capacity.1 hist).length ≤ maxCount) {later : List T}
    (quiet : inWindow timestamp startTs endTs later = []) :
    (inWindow timestamp startTs endTs (retained rb.capacity.1 (hist ++ later))).Sublist
      (rb.extractRange timestamp startTs endTs maxCount) := by
  obtain ⟨kept, part, rest, new, parts⟩ := retained_append rb.capacity.1 hist later
  have none : inWindow timestamp startTs endTs rest = [] := by
    apply List.sublist_nil.mp
    rw [← quiet]
    exact inWindow_sublist new
  rw [stores.extractRange_eq_collected window past, List.take_of_length_le room, parts, inWindow,
    List.filter_append]
  change (inWindow timestamp startTs endTs kept ++ inWindow timestamp startTs endTs rest).Sublist _
  rw [none, List.append_nil]
  exact (inWindow_sublist part).trans (retained_sublist_collected rb.capacity hist)

/-- What comes later with a time stamp of the window is still there at its end, and is not found. -/
theorem Stores.window_lost (stores : rb.Stores hist) (window : startTs ≤ endTs)
    (past : ∀ x ∈ retained rb.capacity.1 hist, timestamp x ≤ endTs) {later : List T}
    (distinct : (hist ++ later).Nodup) (ordered : (later.map timestamp).Pairwise (· ≤ ·))
    (early : ∀ x ∈ later, timestamp x ≤ endTs)
    (found : (inWindow timestamp startTs endTs (retained rb.capacity.1 (hist ++ later))).Sublist
      (rb.extractRange timestamp startTs endTs maxCount)) : inWindow timestamp startTs endTs later = [] := by
  rw [inWindow, List.filter_eq_nil_iff]
  intro x member inside
  have some_ : later ≠ [] := List.ne_nil_of_mem member
  have after : timestamp x ≤ timestamp (later.getLast some_) := by
    rw [List.pairwise_map] at ordered
    rw [← List.dropLast_append_getLast some_] at ordered member
    rcases List.mem_append.mp member with front | last
    · exact (List.pairwise_append.mp ordered).2.2 x front _ (List.mem_singleton.mpr rfl)
    · rw [List.mem_singleton.mp last]
      exact UInt64.le_refl _
  have newest : later.getLast some_ ∈ retained rb.capacity.1 (hist ++ later) := by
    have positive := capacity_pos rb.capacity
    have length := List.length_pos_iff.mpr some_
    have left : (hist ++ later).drop ((hist ++ later).length - rb.capacity.1) ≠ [] := by
      rw [ne_eq, List.drop_eq_nil_iff, List.length_append]
      omega
    have last : (hist ++ later).getLast (by simp [some_]) = later.getLast some_ :=
      List.getLast_append_of_ne_nil _ some_
    rw [retained, ← last, ← List.getLast_drop left]
    exact List.getLast_mem left
  have due : later.getLast some_ ∈ inWindow timestamp startTs endTs (retained rb.capacity.1 (hist ++ later)) := by
    rw [inWindow, List.mem_filter]
    refine ⟨newest, decide_eq_true ⟨?_, early _ (List.getLast_mem some_)⟩⟩
    exact UInt64.le_trans (of_decide_eq_true inside).1 after
  have old := found.subset due
  rw [stores.extractRange_eq_collected window past] at old
  have held := mem_collected (List.mem_of_mem_take old)
  exact (List.nodup_append.mp distinct).2.2 _ held _ (List.getLast_mem some_) rfl

end RingBuffer
end EnerSentry.Datahub
