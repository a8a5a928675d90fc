import EnerSentry.Lib.Runs
import EnerSentry.Protocol.RingContents

/-!
When two rings give up the same frames whatever they are fed. On a serial line it is enough
that they hold the same bytes. Over TCP they also have to be at the same place, since cells
behind the buffered bytes are looked at; two empty rings that are not can be told apart.
-/

namespace EnerSentry.Protocol
open EnerSentry.Lib EnerSentry.Lib.Packing

namespace ModbusStreamAccumulator

/-- A chunk goes in, and the frames that can be cut off come out; no bytes are no chunk. -/
def feeding (isTcp : Bool) : Runs.Step ModbusStreamAccumulator (List UInt8) (List UInt8) :=
  fun a data => if data.isEmpty then (a, []) else (a.append data).extractFrames isTcp

theorem feeding_cons (isTcp : Bool) (a : ModbusStreamAccumulator) (x : UInt8) (xs : List UInt8) :
    feeding isTcp a (x :: xs) = (a.append (x :: xs)).extractFrames isTcp := rfl

/-- The same bytes in the same order, and the same number slid over since the last frame. -/
structure SameBytes (a b : ModbusStreamAccumulator) : Prop where
  left : a.Sound
  right : b.Sound
  size : a.size = b.size
  slid : a.huntSlidBytes = b.huntSlidBytes
  bytes : ∀ i < a.size, a.peek i = b.peek i

section SameBytes
variable {a b : ModbusStreamAccumulator} {isTcp : Bool} {n : Nat}

theorem SameBytes.append (same : SameBytes a b) (data : List UInt8) : SameBytes (a.append data) (b.append data) := by
  refine ⟨same.left.append data, same.right.append data, ?_, ?_, fun i inside => ?_⟩
  · rw [append_size, append_size, same.size]
  · rw [append_huntSlidBytes, append_huntSlidBytes, same.slid]
  · have inside' : i < (b.append data).size := by
      rw [append_size] at inside ⊢
      rwa [← same.size]
    rw [peek_append same.left inside, peek_append same.right inside', ← same.size]
    split
    · rename_i old
      exact same.bytes _ old
    · rfl

theorem peek_advance (a : ModbusStreamAccumulator) (n i : Nat) : (a.advance n).peek i = a.peek (n + i) := by
  simp only [advance, peek, capacity]
  refine congrArg a.buf ?_
  omega

/-- The same bytes with the first ones given up. -/
theorem SameBytes.advance (same : SameBytes a b) (inside : n ≤ a.size) :
    (a.advance n).size = (b.advance n).size ∧
      ∀ i < (a.advance n).size, (a.advance n).peek i = (b.advance n).peek i := by
  have size : (a.advance n).size = a.size - n := if_pos inside
  have size' : (b.advance n).size = b.size - n := if_pos (same.size ▸ inside)
  refine ⟨by rw [size, size', same.size], fun i few => ?_⟩
  rw [peek_advance, peek_advance]
  exact same.bytes _ (by omega)

/-- The same move on the same bytes. -/
theorem SameBytes.makes (same : SameBytes a b) (cut : a.cut isTcp = b.cut isTcp) :
    (a.tryExtractFrame isTcp).2 = (b.tryExtractFrame isTcp).2 ∧
      SameBytes (a.tryExtractFrame isTcp).1 (b.tryExtractFrame isTcp).1 := by
  have left := same.left.tryExtractFrame isTcp
  have right := same.right.tryExtractFrame isTcp
  have first := makes_tryExtractFrame a isTcp
  have second := makes_tryExtractFrame b isTcp
  generalize a.tryExtractFrame isTcp = x at left first
  generalize b.tryExtractFrame isTcp = y at right second
  rw [← cut] at second
  generalize chosen : a.cut isTcp = c at first second
  cases first with
  | wait =>
    cases second with
    | wait => exact ⟨rfl, same⟩
  | slide count =>
    cases second with
    | slide count' =>
      have header := cut_slide chosen
      have some : 1 ≤ a.size := Nat.le_trans (by cases isTcp <;> decide) header
      obtain ⟨size, bytes⟩ := same.advance some
      refine ⟨rfl, left, right, ?_, ?_, ?_⟩
      all_goals
        simp only [popFront_one, ← same.slid]
        split
      · rfl
      · exact size
      · rfl
      · rfl
      · exact fun i few => absurd few (Nat.not_lt_zero i)
      · exact bytes
  | take n =>
    cases second with
    | take n =>
      have whole := (cut_take chosen).1
      obtain ⟨size, bytes⟩ := same.advance whole
      refine ⟨?_, left, right, size, rfl, bytes⟩
      refine congrArg some (List.map_congr_left fun i member => same.bytes i ?_)
      have few := List.mem_range.mp member
      omega

end SameBytes

/-- A relation between rings that every chunk and every attempt keeps, with the same frames. -/
structure Twinned (isTcp : Bool) (R : ModbusStreamAccumulator → ModbusStreamAccumulator → Prop) : Prop where
  append : ∀ a b data, R a b → R (a.append data) (b.append data)
  frame : ∀ a b, R a b → (a.tryExtractFrame isTcp).2 = (b.tryExtractFrame isTcp).2
  attempt : ∀ a b, R a b → R (a.tryExtractFrame isTcp).1 (b.tryExtractFrame isTcp).1

section Twinned
variable {isTcp : Bool} {R : ModbusStreamAccumulator → ModbusStreamAccumulator → Prop}
  {a b : ModbusStreamAccumulator}

theorem Twinned.extractFrames (twinned : Twinned isTcp R) (related : R a b) :
    (a.extractFrames isTcp).2 = (b.extractFrames isTcp).2 ∧ R (a.extractFrames isTcp).1 (b.extractFrames isTcp).1 := by
  induction size : a.size using Nat.strong_induction_on generalizing a b with
  | _ size ih =>
    have frame := twinned.frame a b related
    have next := twinned.attempt a b related
    rw [extractFrames_eq a, extractFrames_eq b]
    rcases tried : a.tryExtractFrame isTcp with ⟨a', _ | f⟩
    · rcases tried' : b.tryExtractFrame isTcp with ⟨b', _ | g⟩
      · rw [tried, tried'] at next
        exact ⟨rfl, next⟩
      · rw [tried, tried'] at frame
        cases frame
    · rcases tried' : b.tryExtractFrame isTcp with ⟨b', _ | g⟩
      · rw [tried, tried'] at frame
        cases frame
      · rw [tried, tried'] at frame next
        obtain rfl := Option.some.inj frame
        obtain ⟨frames, rings⟩ := ih a'.size (size ▸ (size_tryExtractFrame tried).1) next rfl
        exact ⟨congrArg (f :: ·) frames, rings⟩

theorem Twinned.feeding (twinned : Twinned isTcp R) (related : R a b) (data : List UInt8) :
    (feeding isTcp a data).2 = (feeding isTcp b data).2 ∧ R (feeding isTcp a data).1 (feeding isTcp b data).1 := by
  cases data with
  | nil => exact ⟨rfl, related⟩
  | cons x xs => exact twinned.extractFrames (twinned.append a b (x :: xs) related)

/-- On a serial line only the bytes count. -/
theorem twinned_serial : Twinned false SameBytes where
  append _ _ data same := same.append data
  frame _ _ same := (same.makes (cut_congr same.size same.bytes (by simp))).1
  attempt _ _ same := (same.makes (cut_congr same.size same.bytes (by simp))).2

/-- The same bytes at the same place; a cell that differs is past the first seven and unmarked
on both sides, or among the first seven and was not written yet. -/
structure Aligned (a b : ModbusStreamAccumulator) : Prop where
  same : SameBytes a b
  read : a.read = b.read
  cells : ∀ k < capacity, a.buf k = b.buf k ∨ (7 ≤ k ∧ flagged (a.buf k) = false ∧ flagged (b.buf k) = false) ∨
    (k < 7 ∧ a.read = 0 ∧ a.size ≤ k)

theorem Aligned.append (aligned : Aligned a b) (data : List UInt8) : Aligned (a.append data) (b.append data) := by
  have same := aligned.same
  have write : a.write = b.write := by rw [same.left.write, same.right.write, aligned.read, same.size]
  refine ⟨same.append data, ?_, fun k inside => ?_⟩
  · rw [append_read same.left, append_read same.right, aligned.read, same.size]
  · rw [append_buf, append_buf, ← write]
    rcases CyclicCells.fill_agree a.buf b.buf data k with agree | untouched
    · exact Or.inl agree
    · rw [CyclicCells.fill_untouched untouched, CyclicCells.fill_untouched untouched]
      refine (aligned.cells k inside).imp_right (Or.imp_right ?_)
      rintro ⟨first, start, ahead⟩
      have place := same.left.write
      have few : a.size + data.length ≤ k := by
        by_contra more
        apply untouched (k - a.size) (by omega)
        rw [place, start]
        unfold capacity at *
        omega
      refine ⟨first, ?_, ?_⟩
      · rw [append_read same.left, start]
        unfold capacity
        omega
      · rw [append_size]
        split <;> omega

/-- The cell behind seven bytes is marked on both sides or on none. -/
theorem Aligned.next (aligned : Aligned a b) (seven : a.size = 7) : flagged (a.peek 7) = flagged (b.peek 7) := by
  have inside : (a.read + 7) % capacity < capacity := Nat.mod_lt _ (by decide)
  rw [peek, peek, ← aligned.read]
  rcases aligned.cells _ inside with same | ⟨-, plain, plain'⟩ | ⟨first, -, ahead⟩
  · rw [same]
  · rw [plain, plain']
  · omega

theorem Aligned.cut (aligned : Aligned a b) : a.cut true = b.cut true :=
  cut_congr aligned.same.size aligned.same.bytes fun _ seven => aligned.next seven

/-- While one of the first seven cells differs there are too few bytes to move. -/
theorem Aligned.attempt (aligned : Aligned a b) :
    Aligned (a.tryExtractFrame true).1 (b.tryExtractFrame true).1 := by
  have same := (aligned.same.makes aligned.cut).2
  have first := makes_tryExtractFrame a true
  have second := makes_tryExtractFrame b true
  generalize a.tryExtractFrame true = x at same first
  generalize b.tryExtractFrame true = y at same second
  rw [← aligned.cut] at second
  have settled : 7 ≤ a.size → ∀ k < capacity, a.buf k = b.buf k ∨
      (7 ≤ k ∧ flagged (a.buf k) = false ∧ flagged (b.buf k) = false) := by
    intro many k inside
    rcases aligned.cells k inside with agree | plain | ⟨first, -, ahead⟩
    · exact Or.inl agree
    · exact Or.inr plain
    · omega
  generalize chosen : a.cut true = c at first second
  cases first with
  | wait =>
    cases second with
    | wait => exact aligned
  | slide count =>
    cases second with
    | slide count' =>
      have many : 7 ≤ a.size := cut_slide chosen
      have read : ({ a with huntCount := count }.popFront 1).read = ({ b with huntCount := count' }.popFront 1).read ∧
          ({ a with huntCount := count }.popFront 1).buf = a.buf ∧
            ({ b with huntCount := count' }.popFront 1).buf = b.buf := by
        simp only [popFront_one, ← aligned.same.slid]
        split
        · exact ⟨rfl, rfl, rfl⟩
        · exact ⟨congrArg (fun r => (r + 1) % capacity) aligned.read, rfl, rfl⟩
      refine ⟨same, read.1, fun k inside => ?_⟩
      rw [read.2.1, read.2.2]
      exact (settled many k inside).imp_right Or.inl
  | take n =>
    cases second with
    | take n =>
      obtain ⟨whole, long⟩ := cut_take chosen
      have many : 7 ≤ a.size := Nat.le_trans (Nat.le_of_lt long) whole
      refine ⟨same, congrArg (fun r => (r + n) % capacity) aligned.read, fun k inside => ?_⟩
      exact (settled many k inside).imp_right Or.inl

theorem twinned_tcp : Twinned true Aligned where
  append _ _ data aligned := aligned.append data
  frame _ _ aligned := (aligned.same.makes aligned.cut).1
  attempt _ _ aligned := aligned.attempt

end Twinned
end ModbusStreamAccumulator
end EnerSentry.Protocol
