import EnerSentry.Lib.CyclicCells
import EnerSentry.Protocol.StreamAccumulator

/-!
What the ring of received bytes holds. An attempt to cut a frame off comes to one of three
moves, which the buffered bytes decide, but for one look past them: with seven bytes over
TCP the function code is read from the next cell, whatever it still holds.
-/

namespace EnerSentry.Protocol
open EnerSentry.Lib EnerSentry.Lib.Packing

/-- The mark of an exception in a function code. -/
def flagged (function : UInt8) : Bool := function &&& 0x80 != 0

namespace ModbusStreamAccumulator

/-- The bookkeeping of every ring that the operations leave behind. -/
structure Sound (a : ModbusStreamAccumulator) : Prop where
  read : a.read < capacity
  size : a.size ≤ capacity
  write : a.write = (a.read + a.size) % capacity
  drained : a.size = 0 → a.huntSlidBytes = 0

/-- What an attempt does to the ring. -/
inductive Cut where
  | wait
  | slide
  | take (n : Nat)
  deriving DecidableEq, Repr

/-- The move once a frame of `n` bytes is announced. -/
def cutAt (a : ModbusStreamAccumulator) (isTcp : Bool) (n : Nat) : Cut :=
  if a.size < n then .wait else if !isTcp && !a.crcValid n then .slide else .take n

def headerLength (isTcp : Bool) : Nat := if isTcp then 7 else 4

def functionOffset (isTcp : Bool) : Nat := if isTcp then 7 else 1

def exceptionLength (isTcp : Bool) : Nat := if isTcp then 9 else 5

/-- The move of an attempt. -/
def cut (a : ModbusStreamAccumulator) (isTcp : Bool) : Cut :=
  if a.size < headerLength isTcp then .wait
  else if flagged (a.peek (functionOffset isTcp)) then a.cutAt isTcp (exceptionLength isTcp)
  else
    match a.expectedLength isTcp (a.peek (functionOffset isTcp)) with
    | none => .slide
    | some n => a.cutAt isTcp n

/-- The ring and the frame after a move; the count of bad checksums is nobody's concern. -/
inductive Makes (a : ModbusStreamAccumulator) : Cut → ModbusStreamAccumulator × Option (List UInt8) → Prop
  | wait : Makes a .wait (a, none)
  | slide (count : UInt32) : Makes a .slide ({ a with huntCount := count }.popFront 1, none)
  | take (n : Nat) : Makes a (.take n)
      ({ a.advance n with huntSlidBytes := 0 }, some ((List.range n).map a.peek))

section Attempt
variable {a b : ModbusStreamAccumulator} {isTcp : Bool} {n : Nat} {data : List UInt8}

theorem makes_extract (long : 5 ≤ n) : Makes a (a.cutAt isTcp n) (a.extract isTcp n) := by
  unfold cutAt extract
  by_cases few : a.size < n
  · simp only [if_pos few]
    exact .wait
  · simp only [if_neg few]
    by_cases bad : (!isTcp && !a.crcValid n) = true
    · simp only [if_pos bad]
      exact .slide _
    · simp only [if_neg bad, pop, if_neg (show n ≠ 0 by omega)]
      exact .take n

theorem five_le_exceptionLength (isTcp : Bool) : 5 ≤ exceptionLength isTcp := by
  cases isTcp <;> decide

theorem makes_tryExtractFrame (a : ModbusStreamAccumulator) (isTcp : Bool) :
    Makes a (a.cut isTcp) (a.tryExtractFrame isTcp) := by
  have attempt : a.tryExtractFrame isTcp =
      if a.size < headerLength isTcp then (a, none)
      else if flagged (a.peek (functionOffset isTcp)) then a.extract isTcp (exceptionLength isTcp)
      else
        match a.expectedLength isTcp (a.peek (functionOffset isTcp)) with
        | none => (a.popFront 1, none)
        | some expected => a.extract isTcp expected := by
    cases isTcp <;> rfl
  rw [attempt, cut]
  split
  · exact .wait
  · split
    · exact makes_extract (five_le_exceptionLength isTcp)
    · cases announced : a.expectedLength isTcp (a.peek (functionOffset isTcp)) with
      | none => exact .slide a.huntCount
      | some n => exact makes_extract (five_le_expectedLength announced)

theorem cutAt_take {m : Nat} (taken : a.cutAt isTcp m = .take n) : n = m ∧ n ≤ a.size := by
  unfold cutAt at taken
  split at taken
  · cases taken
  · split at taken
    · cases taken
    · obtain rfl := Cut.take.inj taken
      exact ⟨rfl, by omega⟩

/-- A frame is taken when all of it is there, and a unit address with it. -/
theorem cut_take (taken : a.cut isTcp = .take n) : n ≤ a.size ∧ headerLength isTcp < n := by
  unfold cut at taken
  split at taken
  · cases taken
  · split at taken
    · obtain ⟨rfl, inside⟩ := cutAt_take taken
      exact ⟨inside, by cases isTcp <;> decide⟩
    · split at taken
      · cases taken
      · rename_i announced
        obtain ⟨rfl, inside⟩ := cutAt_take taken
        refine ⟨inside, ?_⟩
        cases isTcp with
        | false => exact five_le_expectedLength announced
        | true =>
          simp only [expectedLength, if_true, Option.ite_none_left_eq_some, Option.some.injEq, Bool.or_eq_true,
            decide_eq_true_eq, not_or] at announced
          simp only [headerLength, if_true]
          omega

theorem cut_slide (slid : a.cut isTcp = .slide) : headerLength isTcp ≤ a.size := by
  by_contra few
  rw [cut, if_pos (Nat.lt_of_not_le few)] at slid
  cases slid

/-- The move is decided by what is buffered, and with seven bytes over TCP by the cell behind. -/
theorem cut_congr (size : a.size = b.size) (same : ∀ i < a.size, a.peek i = b.peek i)
    (next : isTcp = true → a.size = 7 → flagged (a.peek 7) = flagged (b.peek 7)) : a.cut isTcp = b.cut isTcp := by
  have checks : ∀ n, n ≤ a.size → 2 ≤ n → a.crcValid n = b.crcValid n := by
    intro n inside long
    have body : (List.range (n - 2)).map a.peek = (List.range (n - 2)).map b.peek :=
      List.map_congr_left fun i member => same i (by have := List.mem_range.mp member; omega)
    simp only [crcValid, body, same (n - 1) (by omega), same (n - 2) (by omega)]
  have ends : ∀ n, 5 ≤ n → a.cutAt isTcp n = b.cutAt isTcp n := by
    intro n long
    unfold cutAt
    rw [← size]
    by_cases few : a.size < n
    · rw [if_pos few, if_pos few]
    · rw [if_neg few, if_neg few, checks n (by omega) (by omega)]
  rw [cut, cut, ← size]
  by_cases short : a.size < headerLength isTcp
  · rw [if_pos short, if_pos short]
  · have mark : flagged (a.peek (functionOffset isTcp)) = flagged (b.peek (functionOffset isTcp)) := by
      cases isTcp with
      | false => exact congrArg flagged (same 1 (by simp [headerLength] at short; omega))
      | true =>
        by_cases seven : a.size = 7
        · exact next rfl seven
        · exact congrArg flagged (same 7 (by simp [headerLength] at short; omega))
    have length : a.expectedLength isTcp (a.peek (functionOffset isTcp)) =
        b.expectedLength isTcp (b.peek (functionOffset isTcp)) := by
      cases isTcp with
      | false =>
        simp only [headerLength, Bool.false_eq_true, if_false] at short
        simp only [expectedLength, functionOffset, Bool.false_eq_true, if_false, same 1 (by omega), same 2 (by omega)]
      | true =>
        simp only [headerLength, if_true] at short
        simp only [expectedLength, if_true, same 4 (by omega), same 5 (by omega)]
    rw [if_neg short, if_neg short, ← mark, ← length, ends _ (five_le_exceptionLength isTcp)]
    cases announced : a.expectedLength isTcp (a.peek (functionOffset isTcp)) with
    | none => rfl
    | some n => simp only [ends n (five_le_expectedLength announced)]

end Attempt

section Bookkeeping
variable {a b : ModbusStreamAccumulator} {isTcp : Bool} {n i : Nat} {data : List UInt8}

theorem append_nil : a.append [] = a := rfl

theorem append_size : (a.append data).size = if data = [] then a.size else min (a.size + data.length) capacity := by
  cases data <;> rfl

theorem append_buf : (a.append data).buf = CyclicCells.fill capacity a.write a.buf data := by
  cases data <;> rfl

theorem append_huntSlidBytes : (a.append data).huntSlidBytes = a.huntSlidBytes := by
  cases data <;> rfl

/-- As many of the oldest bytes go as do not fit. -/
theorem append_read (sound : a.Sound) (data : List UInt8) :
    (a.append data).read = (a.read + (a.size + data.length - capacity)) % capacity := by
  have inside := sound.read
  have bound := sound.size
  cases data with
  | nil =>
    rw [append_nil, List.length_nil, Nat.add_zero, Nat.sub_eq_zero_of_le bound, Nat.add_zero, Nat.mod_eq_of_lt inside]
  | cons x xs =>
    unfold append
    simp only [List.length_cons, Nat.add_one_ne_zero, if_false]
    by_cases ended : capacity < a.size + (xs.length + 1)
    · rw [if_pos ended]
    · rw [if_neg ended, Nat.sub_eq_zero_of_le (Nat.le_of_not_lt ended), Nat.add_zero, Nat.mod_eq_of_lt inside]

theorem append_write : (a.append data).write = if data = [] then a.write else (a.write + data.length) % capacity := by
  cases data <;> rfl

theorem Sound.append (sound : a.Sound) (data : List UInt8) : (a.append data).Sound := by
  obtain ⟨inside, bound, write, drained⟩ := sound
  have read := append_read ⟨inside, bound, write, drained⟩ data
  by_cases none : data = []
  · subst none
    exact ⟨inside, bound, write, drained⟩
  · have some : 0 < data.length := List.length_pos_iff.mpr none
    have size : (a.append data).size = min (a.size + data.length) capacity := append_size.trans (if_neg none)
    have next : (a.append data).write = (a.write + data.length) % capacity := append_write.trans (if_neg none)
    unfold capacity at *
    refine ⟨?_, ?_, ?_, ?_⟩
    · unfold capacity
      omega
    · unfold capacity
      omega
    · unfold capacity
      omega
    · intro empty
      omega

/-- The bytes of the ring and the new ones, without the oldest that do not fit. -/
theorem peek_append (sound : a.Sound) (inside : i < (a.append data).size) :
    (a.append data).peek i =
      if i + (a.size + data.length - capacity) < a.size then a.peek (i + (a.size + data.length - capacity))
      else data.getD (i + (a.size + data.length - capacity) - a.size) 0 := by
  have read := append_read sound data
  have bound := sound.size
  have write := sound.write
  have size : i < a.size ∧ data = [] ∨ i < min (a.size + data.length) capacity := by
    rw [append_size] at inside
    split at inside
    · rename_i none
      exact Or.inl ⟨inside, none⟩
    · exact Or.inr inside
  rw [peek, read, append_buf, write]
  unfold capacity at *
  split
  · rename_i old
    rw [CyclicCells.fill_untouched]
    · rw [peek]
      unfold capacity
      refine congrArg a.buf ?_
      omega
    · intro t short
      omega
  · rename_i new
    have place : ((a.read + (a.size + data.length - 4096)) % 4096 + i) % 4096 =
        ((a.read + a.size) % 4096 + (i + (a.size + data.length - 4096) - a.size)) % 4096 := by omega
    have within : i + (a.size + data.length - 4096) - a.size < data.length := by
      rcases size with ⟨few, rfl⟩ | few
      · simp only [List.length_nil] at *
        omega
      · omega
    rw [place]
    refine CyclicCells.fill_recent ?_ (by omega)
    rw [List.getD_eq_getElem?_getD, List.getElem?_eq_getElem within, Option.getD_some]

/-- A byte that was there, while nothing is pushed out. -/
theorem peek_append_old (sound : a.Sound) (room : a.size + data.length ≤ capacity) (inside : i < a.size) :
    (a.append data).peek i = a.peek i := by
  have size : i < (a.append data).size := by
    rw [append_size]
    split
    · exact inside
    · omega
  have kept : i + (a.size + data.length - capacity) = i := by omega
  rw [peek_append sound size, kept, if_pos inside]

/-- A new byte, while nothing is pushed out. -/
theorem peek_append_new (sound : a.Sound) (room : a.size + data.length ≤ capacity) (inside : i < data.length) :
    (a.append data).peek (a.size + i) = data.getD i 0 := by
  have some : data ≠ [] := by
    rintro rfl
    exact absurd inside (Nat.not_lt_zero i)
  have size : a.size + i < (a.append data).size := by
    rw [append_size, if_neg some]
    omega
  have kept : a.size + i + (a.size + data.length - capacity) = a.size + i := by omega
  rw [peek_append sound size, kept, if_neg (by omega), Nat.add_sub_cancel_left]

theorem Sound.advance (sound : a.Sound) (inside : n ≤ a.size) : (a.advance n).read = (a.read + n) % capacity ∧
    (a.advance n).size = a.size - n ∧ (a.advance n).read < capacity ∧
    (a.advance n).write = ((a.advance n).read + (a.advance n).size) % capacity := by
  have size : (a.advance n).size = a.size - n := if_pos inside
  have read : (a.advance n).read = (a.read + n) % capacity := rfl
  have write : (a.advance n).write = (a.read + a.size) % capacity := sound.write
  refine ⟨read, size, ?_, ?_⟩
  · rw [read]
    exact Nat.mod_lt _ (by decide)
  · rw [write, read, size]
    unfold capacity
    omega

theorem sound_empty : Sound {} := ⟨by decide, by decide, by decide, fun _ => rfl⟩

theorem popFront_one (a : ModbusStreamAccumulator) : a.popFront 1 =
    if maxHuntBytes ≤ (a.huntSlidBytes + 1) % 2 ^ 64 then (a.advance 1).clear
    else { a.advance 1 with huntSlidBytes := (a.huntSlidBytes + 1) % 2 ^ 64 } := rfl

/-- Every move keeps the books. -/
theorem Sound.makes (sound : a.Sound) {result : ModbusStreamAccumulator × Option (List UInt8)}
    (makes : Makes a (a.cut isTcp) result) : result.1.Sound := by
  generalize chosen : a.cut isTcp = c at makes
  cases makes with
  | wait => exact sound
  | slide count =>
    have some : 4 ≤ a.size := Nat.le_trans (by cases isTcp <;> decide) (cut_slide chosen)
    have marked : ({ a with huntCount := count } : ModbusStreamAccumulator).Sound :=
      ⟨sound.read, sound.size, sound.write, sound.drained⟩
    obtain ⟨read, size, inside, write⟩ := marked.advance (show 1 ≤ a.size by omega)
    have bound := sound.size
    rw [popFront_one]
    split
    · exact ⟨Nat.zero_lt_succ _, Nat.zero_le _, rfl, fun _ => rfl⟩
    · exact ⟨inside, by simp only [size]; omega, write, fun empty => by simp only [size] at empty; omega⟩
  | take n =>
    have whole := (cut_take chosen).1
    obtain ⟨read, size, inside, write⟩ := sound.advance whole
    have bound := sound.size
    exact ⟨inside, by simp only [size]; omega, write, fun _ => rfl⟩

theorem Sound.tryExtractFrame (sound : a.Sound) (isTcp : Bool) : (a.tryExtractFrame isTcp).1.Sound :=
  sound.makes (makes_tryExtractFrame a isTcp)

theorem Sound.extractFrames (sound : a.Sound) (isTcp : Bool) : (a.extractFrames isTcp).1.Sound := by
  induction size : a.size using Nat.strong_induction_on generalizing a with
  | _ size ih =>
    have next := sound.tryExtractFrame isTcp
    rw [extractFrames_eq]
    rcases tried : a.tryExtractFrame isTcp with ⟨b, _ | frame⟩
    · rw [tried] at next
      exact next
    · rw [tried] at next
      exact ih b.size (size ▸ (size_tryExtractFrame tried).1) next rfl

end Bookkeeping
end ModbusStreamAccumulator
end EnerSentry.Protocol
