import EnerSentry.Protocol.RingTwins

/-!
Bytes that tell an empty TCP ring from a new one. Bytes that announce no usable length are
slid over one at a time, and each time a cell that was not written yet decides whether the
ring slides or waits. A ring that waits is a byte behind for good.
-/

namespace EnerSentry.Protocol
open EnerSentry.Lib EnerSentry.Lib.Packing

/-- A pair of bytes that is no length of a frame. -/
def useless (high low : UInt8) : Bool := (join high low).toNat < 2 || 4090 < (join high low).toNat

namespace ModbusStreamAccumulator

section First
variable {a : ModbusStreamAccumulator} {isTcp : Bool} {n : Nat}

/-- What the first attempt takes is the first frame. -/
theorem frames_take (taken : a.cut isTcp = .take n) :
    ∃ rest, (a.extractFrames isTcp).2 = (List.range n).map a.peek :: rest := by
  have made := makes_tryExtractFrame a isTcp
  rw [taken] at made
  rw [extractFrames_eq]
  generalize a.tryExtractFrame isTcp = result at made
  cases made with
  | take n => exact ⟨_, rfl⟩

/-- Without a frame the loop is over. -/
theorem frames_none (kept : ∀ n, a.cut isTcp ≠ .take n) : (a.extractFrames isTcp).2 = [] := by
  have made := makes_tryExtractFrame a isTcp
  rw [extractFrames_eq]
  generalize a.cut isTcp = c at made kept
  generalize a.tryExtractFrame isTcp = result at made
  cases made with
  | wait => rfl
  | slide count => rfl
  | take n => exact absurd rfl (kept n)

theorem first_frame {frame : List UInt8} {rest : List (List UInt8)}
    (cutOff : (a.extractFrames isTcp).2 = frame :: rest) :
    ∃ n, headerLength isTcp < n ∧ frame = (List.range n).map a.peek := by
  by_cases taken : ∃ n, a.cut isTcp = .take n
  · obtain ⟨n, taken⟩ := taken
    obtain ⟨rest', frames⟩ := frames_take taken
    exact ⟨n, (cut_take taken).2, (List.cons.inj (cutOff.symm.trans frames)).1⟩
  · rw [frames_none fun n same => taken ⟨n, same⟩] at cutOff
    cases cutOff

end First

/-- The ring at `r` after the bytes `xs`, all but the last six of which it slid over. -/
structure Slid (r : Nat) (cells : Nat → UInt8) (xs : List UInt8) (a : ModbusStreamAccumulator) : Prop where
  sound : a.Sound
  buf : a.buf = CyclicCells.fill capacity r cells xs
  read : a.read = (r + (xs.length - 6)) % capacity
  size : a.size = min xs.length 6
  slid : a.huntSlidBytes = xs.length - 6

section Sliding
variable {a : ModbusStreamAccumulator} {r : Nat} {cells : Nat → UInt8} {xs : List UInt8} {x : UInt8}

theorem Slid.start (sound : a.Sound) (empty : a.size = 0) : Slid a.read a.buf [] a := by
  have inside := sound.read
  exact ⟨sound, rfl, (Nat.mod_eq_of_lt inside).symm, empty, sound.drained empty⟩

/-- One more byte in the ring, before anything is cut off. -/
theorem Slid.append (slid : Slid r cells xs a) (x : UInt8) :
    (a.append [x]).buf = CyclicCells.fill capacity r cells (xs ++ [x]) ∧
      (a.append [x]).read = (r + (xs.length - 6)) % capacity ∧
      (a.append [x]).size = min xs.length 6 + 1 := by
  have write := slid.sound.write
  have read := append_read slid.sound [x]
  have few : a.size + 1 - capacity = 0 := by
    rw [slid.size]
    unfold capacity
    omega
  refine ⟨?_, ?_, ?_⟩
  · have single : CyclicCells.fill capacity a.write a.buf [x] = Function.update a.buf (a.write % capacity) x := rfl
    rw [append_buf, single, CyclicCells.fill_concat, slid.buf, write, slid.read, slid.size]
    refine congrArg (fun p => Function.update _ p x) ?_
    unfold capacity
    omega
  · rw [read, List.length_singleton, few, Nat.add_zero, slid.read, Nat.mod_mod]
  · rw [append_size, if_neg (List.cons_ne_nil _ _), List.length_singleton, slid.size]
    unfold capacity
    omega

theorem Slid.recent (slid : Slid r cells xs a) (many : 6 ≤ xs.length) {i : Nat} (inside : i < 7) :
    (a.append [x]).peek i ∈ xs ++ [x] := by
  obtain ⟨buf, read, -⟩ := slid.append x
  have place : ((a.append [x]).read + i) % capacity = (r + (xs.length - 6 + i)) % capacity := by
    rw [read]
    unfold capacity
    omega
  rw [peek, place, buf]
  apply CyclicCells.fill_mem
  rw [List.length_append, List.length_singleton]
  omega

theorem expectedLength_useless (field : useless (a.peek 4) (a.peek 5)) (function : UInt8) :
    a.expectedLength true function = none := by
  rw [useless, Bool.or_eq_true, decide_eq_true_eq, decide_eq_true_eq] at field
  rw [expectedLength, if_pos rfl]
  apply if_pos
  rw [Bool.or_eq_true, decide_eq_true_eq, decide_eq_true_eq]
  unfold capacity
  omega

/-- The cell the next look past the buffered bytes goes to. -/
theorem Slid.ahead (slid : Slid r cells xs a) (many : 6 ≤ xs.length) (x : UInt8) :
    (a.append [x]).peek 7 = CyclicCells.fill capacity r cells (xs ++ [x]) ((r + (xs.length + 1)) % capacity) := by
  obtain ⟨buf, read, -⟩ := slid.append x
  rw [peek, buf, read]
  refine congrArg _ ?_
  unfold capacity
  omega

theorem Slid.seven (slid : Slid r cells xs a) (many : 6 ≤ xs.length) (x : UInt8) : (a.append [x]).size = 7 := by
  rw [(slid.append x).2.2]
  omega

/-- Seven bytes hold a header, so that the function code decides. -/
theorem Slid.headed (slid : Slid r cells xs a) (many : 6 ≤ xs.length) (x : UInt8) :
    ¬(a.append [x]).size < headerLength true := by
  rw [slid.seven many x]
  decide

/-- Seven bytes with an unmarked cell behind them: the first one goes. -/
theorem Slid.slide (slid : Slid r cells xs a) (many : 6 ≤ xs.length)
    (dull : ∀ y ∈ xs ++ [x], ∀ z ∈ xs ++ [x], useless y z)
    (plain : flagged (CyclicCells.fill capacity r cells (xs ++ [x]) ((r + (xs.length + 1)) % capacity)) = false) :
    ∃ count, feeding true a [x] = ({ a.append [x] with huntCount := count }.popFront 1, []) := by
  have chosen : (a.append [x]).cut true = .slide := by
    have mark : flagged ((a.append [x]).peek (functionOffset true)) = false :=
      (congrArg flagged (slid.ahead many x)).trans plain
    have field : useless ((a.append [x]).peek 4) ((a.append [x]).peek 5) :=
      dull _ (slid.recent many (by decide)) _ (slid.recent many (by decide))
    rw [ModbusStreamAccumulator.cut, if_neg (slid.headed many x), mark, expectedLength_useless field]
    rfl
  have made := makes_tryExtractFrame (a.append [x]) true
  rw [chosen] at made
  rw [feeding_cons, extractFrames_eq]
  generalize (a.append [x]).tryExtractFrame true = result at made
  cases made with
  | slide count => exact ⟨count, rfl⟩

/-- Seven bytes with a mark behind them: the ring waits for the rest of an exception. -/
theorem Slid.waits (slid : Slid r cells xs a) (many : 6 ≤ xs.length)
    (mark : flagged (CyclicCells.fill capacity r cells (xs ++ [x]) ((r + (xs.length + 1)) % capacity)) = true) :
    feeding true a [x] = (a.append [x], []) := by
  have chosen : (a.append [x]).cut true = .wait := by
    have mark' : flagged ((a.append [x]).peek (functionOffset true)) = true :=
      (congrArg flagged (slid.ahead many x)).trans mark
    rw [ModbusStreamAccumulator.cut, if_neg (slid.headed many x), mark', if_pos rfl, cutAt, slid.seven many x]
    rfl
  have made := makes_tryExtractFrame (a.append [x]) true
  rw [chosen] at made
  rw [feeding_cons, extractFrames_eq]
  generalize (a.append [x]).tryExtractFrame true = result at made
  cases made with
  | wait => rfl

/-- A run of bytes goes on, its oldest byte given up. -/
theorem Slid.step (slid : Slid r cells xs a) (short : xs.length < 4101)
    (dull : ∀ y ∈ xs ++ [x], ∀ z ∈ xs ++ [x], useless y z)
    (plain : 6 ≤ xs.length →
      flagged (CyclicCells.fill capacity r cells (xs ++ [x]) ((r + (xs.length + 1)) % capacity)) = false) :
    Slid r cells (xs ++ [x]) (feeding true a [x]).1 ∧ (feeding true a [x]).2 = [] := by
  obtain ⟨buf, read, size⟩ := slid.append x
  have length : (xs ++ [x]).length = xs.length + 1 := List.length_append ..
  by_cases many : 6 ≤ xs.length
  · obtain ⟨count, fed⟩ := slid.slide many dull (plain many)
    have sound : (feeding true a [x]).1.Sound := (slid.sound.append [x]).extractFrames true
    have further : ¬maxHuntBytes ≤ (a.huntSlidBytes + 1) % 2 ^ 64 := by
      rw [slid.slid]
      unfold maxHuntBytes
      omega
    have advanced : (a.append [x]).size = 7 := by omega
    rw [fed, popFront_one, append_huntSlidBytes, if_neg further] at sound ⊢
    refine ⟨⟨sound, buf, ?_, ?_, ?_⟩, rfl⟩
    · simp only [ModbusStreamAccumulator.advance, read, length]
      unfold capacity
      omega
    · simp only [ModbusStreamAccumulator.advance, advanced, length]
      rw [if_pos (by decide)]
      omega
    · simp only [slid.slid, length]
      omega
  · have waits : (a.append [x]).tryExtractFrame true = (a.append [x], none) := by
      apply if_pos
      rw [size, if_pos rfl]
      omega
    rw [feeding_cons, extractFrames_eq, waits]
    refine ⟨⟨slid.sound.append [x], buf, ?_, ?_, ?_⟩, rfl⟩
    · rw [read, length]
      unfold capacity
      omega
    · rw [size, length]
      omega
    · rw [append_huntSlidBytes, slid.slid, length]
      omega

/-- The byte that slides the ring over its limit empties it and winds it back. -/
theorem Slid.clears (slid : Slid r cells xs a) (long : xs.length = 4101)
    (dull : ∀ y ∈ xs ++ [x], ∀ z ∈ xs ++ [x], useless y z)
    (plain : flagged (CyclicCells.fill capacity r cells (xs ++ [x]) ((r + (xs.length + 1)) % capacity)) = false) :
    (feeding true a [x]).1.buf = CyclicCells.fill capacity r cells (xs ++ [x]) ∧ (feeding true a [x]).1.read = 0 ∧
      (feeding true a [x]).1.size = 0 ∧ (feeding true a [x]).2 = [] := by
  obtain ⟨count, fed⟩ := slid.slide (by omega) dull plain
  have limit : maxHuntBytes ≤ (a.huntSlidBytes + 1) % 2 ^ 64 := by
    rw [slid.slid, long]
    decide
  rw [fed, popFront_one, append_huntSlidBytes, if_pos limit]
  exact ⟨(slid.append x).1, rfl, rfl, rfl⟩

/-- Ahead of a run lie the cells from before it, and after a lap its first bytes. -/
theorem plain_ahead {i : Nat} (first : 7 ≤ i) (written : i ≤ xs.length) (lap : i < capacity + 7)
    (stale : ∀ k, 7 ≤ k → k < capacity → k ≤ xs.length → flagged (cells ((r + k) % capacity)) = false)
    (head : ∀ y ∈ xs.take 7, flagged y = false) :
    flagged (CyclicCells.fill capacity r cells (xs.take i) ((r + i) % capacity)) = false := by
  have length : (xs.take i).length = i := List.length_take_of_le written
  by_cases fresh : i < capacity
  · rw [CyclicCells.fill_untouched]
    · exact stale i first fresh written
    · intro j inside
      rw [length] at inside
      exact CyclicCells.cell_ne inside (by omega)
  · have place : (r + i) % capacity = (r + (i - capacity)) % capacity := by
      unfold capacity at *
      omega
    have inside : i - capacity < xs.length := by
      unfold capacity at *
      omega
    have old : (xs.take i)[i - capacity]? = some (xs.get ⟨i - capacity, inside⟩) := by
      rw [List.getElem?_take_of_lt (by unfold capacity; omega)]
      exact List.getElem?_eq_getElem inside
    rw [place, CyclicCells.fill_recent old (by omega)]
    refine head _ (List.mem_of_getElem? (i := i - capacity) ?_)
    rw [List.getElem?_take_of_lt (by omega)]
    exact List.getElem?_eq_getElem inside

/-- The cell ahead of a run that got one more byte. -/
theorem plain_last (many : 6 ≤ xs.length) (lap : xs.length < capacity + 6)
    (stale : ∀ k, 7 ≤ k → k < capacity → k ≤ (xs ++ [x]).length → flagged (cells ((r + k) % capacity)) = false)
    (head : ∀ y ∈ (xs ++ [x]).take 7, flagged y = false) :
    flagged (CyclicCells.fill capacity r cells (xs ++ [x]) ((r + (xs.length + 1)) % capacity)) = false := by
  have length : (xs ++ [x]).length = xs.length + 1 := List.length_append ..
  have whole : (xs ++ [x]).take (xs.length + 1) = xs ++ [x] := List.take_of_length_le (Nat.le_of_eq length)
  have plain := plain_ahead (i := xs.length + 1) (by omega) (Nat.le_of_eq length.symm) (by omega) stale head
  rwa [whole] at plain

end Sliding

/-- The chunks that hand over bytes one by one. -/
def singly (xs : List UInt8) : List (List UInt8) := xs.map fun x => [x]

theorem singly_concat (xs : List UInt8) (x : UInt8) : singly (xs ++ [x]) = singly xs ++ [[x]] := List.map_append

section Probes
variable {a b : ModbusStreamAccumulator} {xs : List UInt8}

/-- Bytes that never announce a length, over cells that are unmarked, are slid over. -/
theorem slid_run (sound : a.Sound) (empty : a.size = 0) (xs : List UInt8) (short : xs.length ≤ 4101)
    (dull : ∀ y ∈ xs, ∀ z ∈ xs, useless y z) (head : ∀ y ∈ xs.take 7, flagged y = false)
    (stale : ∀ k, 7 ≤ k → k < capacity → k ≤ xs.length → flagged (a.peek k) = false) :
    Slid a.read a.buf xs (Runs.run (feeding true) a (singly xs)) ∧ Runs.outputs (feeding true) a (singly xs) = [] := by
  induction xs using List.reverseRecOn with
  | nil => exact ⟨Slid.start sound empty, rfl⟩
  | append_singleton xs x ih =>
    have length : (xs ++ [x]).length = xs.length + 1 := List.length_append ..
    obtain ⟨slid, silent⟩ := ih (by omega)
      (fun y first z second => dull y (List.mem_append_left _ first) z (List.mem_append_left _ second))
      (fun y member => head y (List.take_append ▸ List.mem_append_left _ member))
      (fun k first last written => stale k first last (by omega))
    obtain ⟨next, silent'⟩ := slid.step (by omega) dull fun many =>
      plain_last many (by unfold capacity; omega) stale head
    rw [singly_concat, Runs.run_concat, Runs.outputs_concat]
    exact ⟨next, by rw [silent, silent', List.append_nil]⟩

theorem slid_out (sound : a.Sound) (empty : a.size = 0) (xs : List UInt8) (long : xs.length = 4102)
    (dull : ∀ y ∈ xs, ∀ z ∈ xs, useless y z) (head : ∀ y ∈ xs.take 7, flagged y = false)
    (stale : ∀ k, 7 ≤ k → k < capacity → flagged (a.peek k) = false) :
    (Runs.run (feeding true) a (singly xs)).buf = CyclicCells.fill capacity a.read a.buf xs ∧
      (Runs.run (feeding true) a (singly xs)).read = 0 ∧ (Runs.run (feeding true) a (singly xs)).size = 0 ∧
      Runs.outputs (feeding true) a (singly xs) = [] := by
  rcases List.eq_nil_or_concat' xs with rfl | ⟨xs, x, rfl⟩
  · cases long
  · have length : (xs ++ [x]).length = xs.length + 1 := List.length_append ..
    obtain ⟨slid, silent⟩ := slid_run sound empty xs (by omega)
      (fun y first z second => dull y (List.mem_append_left _ first) z (List.mem_append_left _ second))
      (fun y member => head y (List.take_append ▸ List.mem_append_left _ member))
      (fun k first last _ => stale k first last)
    have plain : flagged (CyclicCells.fill capacity a.read a.buf (xs ++ [x])
        ((a.read + (xs.length + 1)) % capacity)) = false :=
      plain_last (by omega) (by unfold capacity; omega) (fun k first last _ => stale k first last) head
    obtain ⟨buf, read, size, silent'⟩ := slid.clears (by omega) dull plain
    rw [singly_concat, Runs.run_concat, Runs.outputs_concat]
    exact ⟨buf, read, size, by rw [silent, silent', List.append_nil]⟩

/-- Seven zeros and three bytes that end in no exception: nothing comes out. -/
theorem behind_zeros (sound : a.Sound) (size : a.size = 7) (zero : ∀ i < 7, a.peek i = 0) (n : Nat) :
    (a.append [1, 0x83, 0]).cut true ≠ .take n := by
  have room : a.size + [(1 : UInt8), 0x83, 0].length ≤ capacity := by
    rw [size]
    decide
  have mark : (a.append [1, 0x83, 0]).peek 7 = 1 := size ▸ peek_append_new sound room (show 0 < 3 by decide)
  have field : useless ((a.append [1, 0x83, 0]).peek 4) ((a.append [1, 0x83, 0]).peek 5) := by
    rw [peek_append_old sound room (by omega), peek_append_old sound room (by omega), zero 4 (by decide),
      zero 5 (by decide)]
    decide
  have header : ¬(a.append [1, 0x83, 0]).size < headerLength true := by
    rw [append_size, if_neg (List.cons_ne_nil _ _), size]
    decide
  have plain : flagged 1 = false := by decide
  rw [cut, if_neg header, functionOffset, if_pos rfl, mark, plain, expectedLength_useless field]
  intro taken
  cases taken

/-- Six zeros and an exception behind them. -/
theorem behind_six (sound : a.Sound) (size : a.size = 6) : (a.append [1, 0x83, 0]).cut true = .take 9 := by
  have room : a.size + [(1 : UInt8), 0x83, 0].length ≤ capacity := by
    rw [size]
    decide
  have mark : (a.append [1, 0x83, 0]).peek 7 = 0x83 := by
    have new : (a.append [1, 0x83, 0]).peek (a.size + 1) = 0x83 := peek_append_new sound room (show 1 < 3 by decide)
    rwa [size] at new
  have whole : (a.append [1, 0x83, 0]).size = 9 := by
    rw [append_size, if_neg (List.cons_ne_nil _ _), size]
    rfl
  have header : ¬(a.append [1, 0x83, 0]).size < headerLength true := by
    rw [whole]
    decide
  have flag : flagged 0x83 = true := by decide
  rw [cut, if_neg header, functionOffset, if_pos rfl, mark, flag, if_pos rfl, cutAt, whole]
  rfl

theorem zeros_dull (n : Nat) : ∀ y ∈ List.replicate n (0 : UInt8), ∀ z ∈ List.replicate n (0 : UInt8), useless y z := by
  intro y member z member'
  rw [List.eq_of_mem_replicate member, List.eq_of_mem_replicate member']
  decide

theorem zeros_head (n : Nat) : ∀ y ∈ (List.replicate n (0 : UInt8)).take 7, flagged y = false := by
  intro y member
  rw [List.eq_of_mem_replicate (List.mem_of_mem_take member)]
  decide

/-- Zeros up to a mark, then an exception: the ring waits a byte behind, and says nothing. -/
theorem zeros_behind_mark {m : Nat} (sound : a.Sound) (empty : a.size = 0) (many : 6 ≤ m) (last : m + 1 < capacity)
    (plain : ∀ k, 7 ≤ k → k < m + 1 → flagged (a.peek k) = false) (mark : flagged (a.peek (m + 1)) = true) :
    Runs.outputs (feeding true) a (singly (List.replicate (m + 1) 0) ++ [[1, 0x83, 0]]) = [] := by
  have length : (List.replicate m (0 : UInt8)).length = m := List.length_replicate
  unfold capacity at last
  obtain ⟨slid, silent⟩ := slid_run sound empty (List.replicate m 0) (by omega) (zeros_dull m) (zeros_head m)
    (fun k low _ few => plain k low (by omega))
  have ahead : CyclicCells.fill capacity a.read a.buf (List.replicate m 0 ++ [0])
      ((a.read + ((List.replicate m (0 : UInt8)).length + 1)) % capacity) = a.peek (m + 1) := by
    rw [length]
    refine CyclicCells.fill_untouched fun i inside => CyclicCells.cell_ne ?_ (by unfold capacity; omega)
    rw [List.length_append, length, List.length_singleton] at inside
    omega
  have waits := slid.waits (x := 0) (by omega) (ahead ▸ mark)
  rw [List.replicate_succ', singly_concat, List.append_assoc, Runs.outputs_append, silent, List.nil_append]
  generalize Runs.run (feeding true) a (singly (List.replicate m 0)) = c at slid waits
  have size : (c.append [0]).size = 7 := by
    rw [(slid.append 0).2.2]
    omega
  have zero : ∀ i < 7, (c.append [0]).peek i = 0 := by
    intro i inside
    have member := slid.recent (x := 0) (by omega) inside
    rw [List.mem_append, List.mem_singleton] at member
    exact member.elim List.eq_of_mem_replicate id
  simp only [List.singleton_append, Runs.outputs, waits, List.nil_append, List.append_nil]
  exact frames_none (behind_zeros (slid.sound.append [0]) size zero)

/-- Zeros over unmarked cells, then an exception: the ring cuts it off. -/
theorem zeros_plain {n : Nat} (sound : a.Sound) (empty : a.size = 0) (many : 6 ≤ n) (last : n < capacity)
    (plain : ∀ k, 7 ≤ k → k ≤ n → flagged (a.peek k) = false) :
    Runs.outputs (feeding true) a (singly (List.replicate n 0) ++ [[1, 0x83, 0]]) ≠ [] := by
  have length : (List.replicate n (0 : UInt8)).length = n := List.length_replicate
  unfold capacity at last
  obtain ⟨slid, silent⟩ := slid_run sound empty (List.replicate n 0) (by omega) (zeros_dull n) (zeros_head n)
    (fun k low _ few => plain k low (by omega))
  rw [Runs.outputs_append, silent, List.nil_append]
  generalize Runs.run (feeding true) a (singly (List.replicate n 0)) = c at slid
  have size : c.size = 6 := by
    rw [slid.size]
    omega
  obtain ⟨rest, frames⟩ := frames_take (behind_six slid.sound size)
  simp only [Runs.outputs, feeding_cons, frames, List.append_nil]
  exact List.cons_ne_nil _ _

/-- Two empty rings are told apart by a mark that one has earlier than the other. -/
theorem told_apart {j : Nat} (left : a.Sound) (right : b.Sound) (none : a.size = 0) (none' : b.size = 0) (first : 7 ≤ j)
    (last : j < capacity) (plain : ∀ k, 7 ≤ k → k < j → flagged (a.peek k) = false) (mark : flagged (a.peek j) = true)
    (plain' : ∀ k, 7 ≤ k → k ≤ j → flagged (b.peek k) = false) :
    ∃ chunks, Runs.outputs (feeding true) a chunks = [] ∧ Runs.outputs (feeding true) b chunks ≠ [] := by
  obtain ⟨m, rfl⟩ := Nat.exists_eq_add_of_le' (show 1 ≤ j by omega)
  refine ⟨singly (List.replicate (m + 1) 0) ++ [[1, 0x83, 0]], ?_, ?_⟩
  · exact zeros_behind_mark left none (by omega) last plain mark
  · exact zeros_plain right none' (by omega) last plain'

theorem Sound.feeding (sound : a.Sound) (isTcp : Bool) (data : List UInt8) :
    (ModbusStreamAccumulator.feeding isTcp a data).1.Sound := by
  cases data with
  | nil => exact sound
  | cons x xs => exact (sound.append (x :: xs)).extractFrames isTcp

theorem Sound.run {isTcp : Bool} (sound : a.Sound) (chunks : List (List UInt8)) :
    (Runs.run (ModbusStreamAccumulator.feeding isTcp) a chunks).Sound :=
  Runs.reached_always (ModbusStreamAccumulator.feeding isTcp) chunks sound
    (fun _ data sound => sound.feeding isTcp data) _
    Runs.run_mem_reached

end Probes

/-- A lap and a half window, with one mark where the second lap does not come to. -/
def lap : List UInt8 := (List.range 4102).map fun i => if i = 7 then 0xFF else 0x7F

section Lap
variable {a : ModbusStreamAccumulator} {i : Nat} {x : UInt8}

theorem length_lap : lap.length = 4102 := by rw [lap, List.length_map, List.length_range]

theorem lap_cases (written : lap[i]? = some x) : i = 7 ∧ x = 0xFF ∨ i ≠ 7 ∧ x = 0x7F := by
  rw [lap, List.getElem?_map, Option.map_eq_some_iff] at written
  obtain ⟨j, here, value⟩ := written
  obtain ⟨inside, same⟩ := List.getElem?_eq_some_iff.mp here
  rw [List.getElem_range] at same
  subst same
  by_cases seventh : i = 7
  · exact Or.inl ⟨seventh, by rw [← value, if_pos seventh]⟩
  · exact Or.inr ⟨seventh, by rw [← value, if_neg seventh]⟩

theorem lap_dull : ∀ y ∈ lap, ∀ z ∈ lap, useless y z := by
  have values : ∀ y ∈ lap, y = 0xFF ∨ y = 0x7F := by
    intro y member
    obtain ⟨i, written⟩ := List.getElem?_of_mem member
    exact (lap_cases written).imp And.right And.right
  intro y first z second
  rcases values y first with rfl | rfl <;> rcases values z second with rfl | rfl <;> decide

theorem lap_head : ∀ y ∈ lap.take 7, flagged y = false := by
  intro y member
  obtain ⟨i, written⟩ := List.getElem?_of_mem member
  rw [List.getElem?_take] at written
  split at written
  · rename_i few
    rcases lap_cases written with ⟨rfl, -⟩ | ⟨-, rfl⟩
    · exact absurd few (Nat.lt_irrefl 7)
    · decide
  · cases written

/-- After the lap the mark is in the cell seven after the one the ring was at. -/
theorem lap_mark (r : Nat) (inside : r < capacity) (cells : Nat → UInt8) :
    flagged (CyclicCells.fill capacity r cells lap 7) = decide (r = 0) := by
  by_cases start : r = 0
  · subst start
    have written : lap[7]? = some 0xFF := by
      have here : 7 < lap.length := by
        rw [length_lap]
        decide
      rcases lap_cases (List.getElem?_eq_getElem here) with ⟨-, mark⟩ | ⟨other, -⟩
      · rw [List.getElem?_eq_getElem here, mark]
      · exact absurd rfl other
    have holds : CyclicCells.fill capacity 0 cells lap ((0 + 7) % capacity) = 0xFF :=
      CyclicCells.fill_recent written (by rw [length_lap]; decide)
    exact congrArg flagged holds
  · rw [decide_eq_false start]
    unfold capacity at inside
    rcases CyclicCells.fill_cases (n := capacity) (w := r) cells lap 7 with
      ⟨i, x, written, here, holds⟩ | ⟨untouched, -⟩
    · rw [holds]
      unfold capacity at here
      rcases lap_cases written with ⟨rfl, -⟩ | ⟨-, rfl⟩
      · omega
      · decide
    · refine absurd ?_ (untouched ((capacity + 7 - r) % capacity) ?_)
      · unfold capacity
        omega
      · rw [length_lap]
        unfold capacity
        omega

/-- An empty ring that answers silence where a new one does is wound back and unmarked. -/
theorem wound_back (sound : a.Sound) (empty : a.size = 0)
    (alike : ∀ chunks, Runs.outputs (feeding true) a chunks = [] ↔ Runs.outputs (feeding true) {} chunks = []) :
    a.read = 0 ∧ ∀ k, 7 ≤ k → k < capacity → flagged (a.buf k) = false := by
  have unmarked : ∀ k, 7 ≤ k → k < capacity → flagged (a.peek k) = false := by
    intro k
    induction k using Nat.strong_induction_on with
    | _ k ih =>
      intro first last
      by_contra mark
      obtain ⟨chunks, silent, loud⟩ := told_apart sound sound_empty empty rfl first last
        (fun i low few => ih i few low (by omega)) (Bool.not_eq_false _ ▸ mark)
        (fun _ _ _ => (by decide : flagged 0 = false))
      exact loud ((alike chunks).mp silent)
  have wound : a.read = 0 := by
    by_contra ahead
    obtain ⟨buf, read, size, silent⟩ := slid_out sound empty lap length_lap lap_dull lap_head unmarked
    obtain ⟨buf', read', size', silent'⟩ := slid_out sound_empty rfl lap length_lap lap_dull lap_head
      (fun _ _ _ => (by decide : flagged 0 = false))
    have plain : flagged ((Runs.run (feeding true) a (singly lap)).peek 7) = false := by
      rw [peek, buf, read]
      exact (lap_mark a.read sound.read a.buf).trans (decide_eq_false ahead)
    have mark : flagged ((Runs.run (feeding true) {} (singly lap)).peek 7) = true := by
      rw [peek, buf', read']
      exact lap_mark 0 (by decide) _
    obtain ⟨chunks, quiet, loud⟩ := told_apart (sound_empty.run _) (sound.run _) size' size (Nat.le_refl 7) (by decide)
      (fun k low high => absurd high (Nat.not_lt_of_le low)) mark (fun k low high => Nat.le_antisymm high low ▸ plain)
    have both := alike (singly lap ++ chunks)
    rw [Runs.outputs_append, Runs.outputs_append, silent, silent', List.nil_append, List.nil_append] at both
    exact loud (both.mpr quiet)
  refine ⟨wound, fun k first last => ?_⟩
  have plain := unmarked k first last
  rwa [peek, wound, Nat.zero_add, Nat.mod_eq_of_lt last] at plain

end Lap
end ModbusStreamAccumulator
end EnerSentry.Protocol
