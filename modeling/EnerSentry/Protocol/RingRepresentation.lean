import EnerSentry.Lib.Runs
import EnerSentry.Protocol.Checksum
import EnerSentry.Protocol.RingContents

/-!
The ring of received bytes as a queue. Whatever calls it gets, its size stays in bounds, the write
index lies behind the buffered bytes, and these are the last ones appended, as long as no caller
drops more bytes than are buffered.
-/

namespace EnerSentry.Protocol
open EnerSentry.Lib EnerSentry.Lib.Runs EnerSentry.Lib.Packing

/-- The public calls. -/
inductive RingCall where
  | append (data : List UInt8)
  | tryExtractFrame (isTcp : Bool)
  | popFront (n : UInt64)
  | onFrameExtracted
  | clear
  deriving DecidableEq, Repr

namespace ModbusStreamAccumulator

/-- One call, with the frame it returns. -/
def call : Step ModbusStreamAccumulator RingCall (List UInt8)
  | a, .append data => (a.append data, [])
  | a, .tryExtractFrame isTcp => ((a.tryExtractFrame isTcp).1, (a.tryExtractFrame isTcp).2.toList)
  | a, .popFront n => (a.popFront n.toNat, [])
  | a, .onFrameExtracted => (a.onFrameExtracted, [])
  | a, .clear => (a.clear, [])

/-- All bytes that were ever appended. -/
def fed (_ : ModbusStreamAccumulator) (bytes : List UInt8) : RingCall → List (List UInt8) → List UInt8
  | .append data, _ => bytes ++ data
  | _, _ => bytes

/-- The books agree, and the ring holds the last bytes that were appended. -/
structure Represents (t : ModbusStreamAccumulator × List UInt8) : Prop where
  size : t.1.size ≤ capacity
  write : (t.1.read + t.1.size) % capacity = t.1.write
  bytes : t.1.bytes <:+ t.2

/-- What a call does to the buffered bytes. -/
def Serves (a : ModbusStreamAccumulator) : RingCall → ModbusStreamAccumulator × List (List UInt8) → Prop
  | .append data, (b, _) => b.bytes = (a.bytes ++ data).drop (a.size + data.length - capacity)
  | .tryExtractFrame isTcp, (b, [frame]) =>
      5 ≤ frame.length ∧ frame.length ≤ capacity ∧ a.bytes = frame ++ b.bytes ∧
        (isTcp = false → crc16ModbusVerify frame = true)
  | .tryExtractFrame _, (b, []) =>
      (∃ k ≤ 1, b.bytes = a.bytes.drop k) ∨ (b.bytes = [] ∧ maxHuntBytes ≤ a.huntSlidBytes + 1)
  | .tryExtractFrame _, _ => False
  | .popFront n, (b, _) =>
      b.bytes = a.bytes.drop n.toNat ∨ (b.bytes = [] ∧ maxHuntBytes ≤ a.huntSlidBytes + n.toNat)
  | .onFrameExtracted, (b, _) => b.bytes = a.bytes
  | .clear, (b, _) => b.bytes = []

/-- No more bytes are dropped than are buffered, unless the write index is met again or the hunt
budget clears the ring. -/
def Within (a : ModbusStreamAccumulator) : RingCall → Prop
  | .popFront n => n.toNat ≤ a.size ∨ n.toNat % capacity = a.size % capacity ∨
      maxHuntBytes ≤ (a.huntSlidBytes + n.toNat) % 2 ^ 64
  | _ => True

/-- The books of every state that such calls leave behind. -/
structure Kept (a : ModbusStreamAccumulator) : Prop where
  read : a.read < capacity
  size : a.size ≤ capacity
  write : a.write = (a.read + a.size) % capacity
  slid : a.huntSlidBytes < maxHuntBytes

section Calls
variable {a b : ModbusStreamAccumulator} {data frame : List UInt8} {isTcp : Bool} {n : Nat}

theorem Kept.sound (kept : a.Kept) : Sound { a with huntSlidBytes := 0 } :=
  ⟨kept.read, kept.size, kept.write, fun _ => rfl⟩

theorem kept_start : Kept {} := ⟨by decide, by decide, by decide, by decide⟩

/-- The bytes that fit, the newest. -/
theorem Sound.bytes_append (sound : a.Sound) (data : List UInt8) :
    (a.append data).bytes = (a.bytes ++ data).drop (a.size + data.length - capacity) := by
  have bound := sound.size
  have size : (a.append data).size = a.size + data.length - (a.size + data.length - capacity) := by
    rw [append_size]
    split
    · rename_i none
      rw [none, List.length_nil]
      omega
    · omega
  apply List.ext_getElem
  · rw [length_bytes, size, List.length_drop, List.length_append, length_bytes]
  · intro i before after
    have inside : i < (a.append data).size := by simpa using before
    have found := getD_bytes inside
    rw [List.getD_eq_getElem?_getD, List.getElem?_eq_getElem before, Option.getD_some] at found
    rw [found, peek_append sound inside]
    simp only [List.getElem_drop, Nat.add_comm (a.size + data.length - capacity) i]
    split
    · rename_i old
      rw [List.getElem_append_left (by simpa using old), ← getD_bytes old, List.getD_eq_getElem?_getD,
        List.getElem?_eq_getElem (by simpa using old), Option.getD_some]
    · rename_i new
      have within : i + (a.size + data.length - capacity) - a.size < data.length := by omega
      rw [List.getElem_append_right (by simpa using new), List.getD_eq_getElem?_getD,
        List.getElem?_eq_getElem within, Option.getD_some]
      simp only [length_bytes]

theorem Kept.append (kept : a.Kept) (data : List UInt8) :
    (a.append data).Kept ∧ (a.append data).bytes = (a.bytes ++ data).drop (a.size + data.length - capacity) := by
  have sound := kept.sound.append data
  have bytes := kept.sound.bytes_append data
  cases data with
  | nil => exact ⟨kept, bytes⟩
  | cons x xs => exact ⟨⟨sound.read, sound.size, sound.write, kept.slid⟩, bytes⟩

/-- Bytes leave the front of the ring. -/
theorem Kept.advance (kept : a.Kept) (met : n ≤ a.size ∨ n % capacity = a.size % capacity) :
    (a.advance n).Kept ∧ (a.advance n).bytes = a.bytes.drop n := by
  obtain ⟨read, size, write, slid⟩ := kept
  by_cases inside : n ≤ a.size
  · have left : (a.advance n).size = a.size - n := if_pos inside
    refine ⟨⟨Nat.mod_lt _ (by decide), ?_, ?_, slid⟩, bytes_advance inside⟩
    · rw [left]
      omega
    · show a.write = ((a.read + n) % capacity + (a.advance n).size) % capacity
      rw [left, write, Nat.mod_add_mod]
      congr 1
      omega
  · have left : (a.advance n).size = 0 := if_neg inside
    have same := met.resolve_left inside
    refine ⟨⟨Nat.mod_lt _ (by decide), ?_, ?_, slid⟩, ?_⟩
    · rw [left]
      exact Nat.zero_le _
    · show a.write = ((a.read + n) % capacity + (a.advance n).size) % capacity
      rw [left, write, Nat.add_zero, Nat.mod_mod, Nat.add_mod, ← same, ← Nat.add_mod]
    · rw [List.drop_eq_nil_of_le (by rw [length_bytes]; omega), bytes, left, List.range_zero, List.map_nil]

theorem Kept.clear (a : ModbusStreamAccumulator) : a.clear.Kept ∧ a.clear.bytes = [] :=
  ⟨⟨Nat.zero_lt_succ _, Nat.zero_le _, rfl, Nat.zero_lt_succ _⟩, rfl⟩

theorem Kept.popFront (kept : a.Kept)
    (pops : n ≤ a.size ∨ n % capacity = a.size % capacity ∨ maxHuntBytes ≤ (a.huntSlidBytes + n) % 2 ^ 64) :
    (a.popFront n).Kept ∧ ((a.popFront n).bytes = a.bytes.drop n ∨
      ((a.popFront n).bytes = [] ∧ maxHuntBytes ≤ a.huntSlidBytes + n)) := by
  unfold ModbusStreamAccumulator.popFront
  by_cases none : n = 0
  · rw [if_pos none, none]
    exact ⟨kept, Or.inl rfl⟩
  rw [if_neg none]
  by_cases used : maxHuntBytes ≤ (a.huntSlidBytes + n) % 2 ^ 64
  · rw [if_pos used]
    exact ⟨(Kept.clear _).1, Or.inr ⟨rfl, used.trans (Nat.mod_le _ _)⟩⟩
  · obtain ⟨moved, bytes⟩ := kept.advance (pops.imp_right (Or.resolve_right · used))
    rw [if_neg used]
    exact ⟨⟨moved.read, moved.size, moved.write, Nat.lt_of_not_le used⟩, Or.inl bytes⟩

/-- On a serial line only a frame with a correct checksum is taken. -/
theorem checked_of_cut (taken : a.cut false = .take n) : a.crcValid n = true := by
  have ends : ∀ m, a.cutAt false m = .take n → a.crcValid n = true := by
    intro m taken
    obtain ⟨rfl, -⟩ := cutAt_take taken
    unfold cutAt at taken
    split at taken
    · cases taken
    · split at taken
      · cases taken
      · rename_i right
        simpa using right
  unfold cut at taken
  split at taken
  · cases taken
  · split at taken
    · exact ends _ taken
    · split at taken
      · cases taken
      · exact ends _ taken

/-- The move of an attempt, seen in the buffered bytes. -/
theorem Kept.tryExtractFrame (kept : a.Kept) (isTcp : Bool) :
    (a.tryExtractFrame isTcp).1.Kept ∧ Serves a (.tryExtractFrame isTcp) (call a (.tryExtractFrame isTcp)) := by
  have makes := makes_tryExtractFrame a isTcp
  simp only [call]
  generalize chosen : a.cut isTcp = c at makes
  generalize a.tryExtractFrame isTcp = result at makes
  cases makes with
  | wait => exact ⟨kept, Or.inl ⟨0, Nat.zero_le _, rfl⟩⟩
  | slide count =>
    have some : 1 ≤ a.size := Nat.le_trans (by cases isTcp <;> decide) (cut_slide chosen)
    have marked : ({ a with huntCount := count } : ModbusStreamAccumulator).Kept :=
      ⟨kept.read, kept.size, kept.write, kept.slid⟩
    obtain ⟨popped, bytes⟩ := marked.popFront (n := 1) (Or.inl some)
    exact ⟨popped, bytes.imp_left fun dropped => ⟨1, Nat.le_refl _, dropped⟩⟩
  | take n =>
    obtain ⟨inside, long⟩ := cut_take chosen
    obtain ⟨moved, bytes⟩ := kept.advance (Or.inl inside)
    have frame : (List.range n).map a.peek = a.bytes.take n := (take_bytes inside).symm
    have bound := kept.size
    have size : (a.bytes.take n).length = n := by
      rw [List.length_take, length_bytes]
      omega
    refine ⟨⟨moved.read, moved.size, moved.write, by simp [maxHuntBytes]⟩, ?_⟩
    simp only [Option.toList_some, Serves, frame, size]
    refine ⟨?_, inside.trans bound, ?_, ?_⟩
    · exact Nat.le_trans (by cases isTcp <;> decide) long
    · exact (List.take_append_drop n a.bytes).symm.trans (congrArg (a.bytes.take n ++ ·) bytes.symm)
    · rintro rfl
      rw [take_bytes inside, ← crcValid_iff_verify (Nat.le_of_lt long)]
      exact checked_of_cut chosen

/-- A call within what is buffered keeps the books and serves the queue. -/
theorem Kept.call {e : RingCall} (kept : a.Kept) (within : Within a e) :
    (call a e).1.Kept ∧ Serves a e (call a e) := by
  cases e with
  | append data => exact kept.append data
  | tryExtractFrame isTcp => exact kept.tryExtractFrame isTcp
  | popFront n => exact kept.popFront within
  | onFrameExtracted => exact ⟨⟨kept.read, kept.size, kept.write, Nat.zero_lt_succ _⟩, rfl⟩
  | clear => exact Kept.clear a

/-- What a served call leaves is still the end of all that was appended. -/
theorem suffix_of_serves {e : RingCall} {bytes : List UInt8} (last : a.bytes <:+ bytes)
    (serves : Serves a e (ModbusStreamAccumulator.call a e)) :
    (ModbusStreamAccumulator.call a e).1.bytes <:+ fed a bytes e (ModbusStreamAccumulator.call a e).2 := by
  cases e with
  | append data =>
    obtain ⟨front, rfl⟩ := last
    have all : a.bytes ++ data <:+ (front ++ a.bytes) ++ data := ⟨front, (List.append_assoc ..).symm⟩
    exact (serves ▸ List.drop_suffix _ _).trans all
  | tryExtractFrame isTcp =>
    generalize ModbusStreamAccumulator.call a (.tryExtractFrame isTcp) = result at serves
    obtain ⟨b, _ | ⟨frame, _ | ⟨more, rest⟩⟩⟩ := result
    · rcases serves with ⟨k, -, dropped⟩ | ⟨emptied, -⟩
      · exact (dropped ▸ List.drop_suffix k _).trans last
      · exact emptied ▸ List.nil_suffix
    · exact List.IsSuffix.trans ⟨frame, serves.2.2.1.symm⟩ last
    · exact serves.elim
  | popFront n =>
    rcases serves with dropped | ⟨emptied, -⟩
    · exact (dropped ▸ List.drop_suffix _ _).trans last
    · exact emptied ▸ List.nil_suffix
  | onFrameExtracted => exact serves ▸ last
  | clear => exact serves ▸ List.nil_suffix

end Calls

section Run
variable (calls : List RingCall)

/-- A ring beside everything that was appended to it. -/
def watched : Step (ModbusStreamAccumulator × List UInt8) RingCall (List UInt8) := watch call fed

/-- The representation holds throughout a run of calls, and every call serves the queue. -/
def WellRepresented : Prop :=
  (∀ t ∈ reached watched ({}, []) calls, Represents t) ∧
    ∀ v ∈ visits call {} calls, Serves v.1 v.2 (call v.1 v.2)

theorem kept_reached (within : ∀ v ∈ visits call {} calls, Within v.1 v.2) : ∀ a ∈ reached call {} calls, a.Kept :=
  reached_invariant call calls kept_start (fun _ _ kept within => (kept.call within).1) within

theorem visits_watched : (∀ v ∈ visits watched ({}, []) calls, Within v.1.1 v.2) ↔
    ∀ v ∈ visits call {} calls, Within v.1 v.2 := by
  rw [← visits_watch call fed ({}, []) calls, List.forall_mem_map]
  rfl

/-- Dropping more than is there parts the read index from the write index. -/
theorem not_represents {t : ModbusStreamAccumulator × List UInt8} {e : RingCall} (represents : Represents t)
    (outside : ¬Within t.1 e) : ¬Represents (watched t e).1 := by
  intro after
  cases e with
  | popFront n =>
    simp only [Within, not_or] at outside
    obtain ⟨beyond, apart, unused⟩ := outside
    have next : t.1.popFront n.toNat =
        { t.1.advance n.toNat with huntSlidBytes := (t.1.huntSlidBytes + n.toNat) % 2 ^ 64 } := by
      rw [popFront, if_neg (by omega)]
      exact if_neg unused
    have none : (t.1.advance n.toNat).size = 0 := if_neg beyond
    have met : ((t.1.popFront n.toNat).read + (t.1.popFront n.toNat).size) % capacity =
        (t.1.popFront n.toNat).write := after.write
    rw [next] at met
    have same : ((t.1.read + n.toNat) % capacity + (t.1.advance n.toNat).size) % capacity = t.1.write := met
    rw [none, Nat.add_zero, Nat.mod_mod, ← represents.write] at same
    unfold capacity at same apart
    omega
  | append data => exact outside trivial
  | tryExtractFrame isTcp => exact outside trivial
  | onFrameExtracted => exact outside trivial
  | clear => exact outside trivial

theorem well_represented_iff : WellRepresented calls ↔ ∀ v ∈ visits call {} calls, Within v.1 v.2 := by
  constructor
  · rintro ⟨represented, -⟩
    apply (visits_watched calls).mp
    intro v visited
    by_contra outside
    obtain ⟨before, after⟩ := visit_mem_reached visited
    exact not_represents (represented _ before) outside (represented _ after)
  · intro within
    have kept := kept_reached calls within
    constructor
    · have along := reached_invariant watched calls (I := fun t => t.1.Kept ∧ t.1.bytes <:+ t.2)
        (A := fun t e => Within t.1 e) ⟨kept_start, [], rfl⟩
        (fun t e holds within => ⟨(holds.1.call within).1, suffix_of_serves holds.2 (holds.1.call within).2⟩)
        ((visits_watched calls).mpr within)
      intro t member
      obtain ⟨books, last⟩ := along t member
      exact ⟨books.size, books.write.symm, last⟩
    · intro v visited
      exact ((kept _ (visit_mem_reached visited).1).call (within v visited)).2

/-- Two bytes dropped where one is buffered leave the read index past the write index. -/
theorem well_represented_fails : ¬WellRepresented [.append [0], .popFront 2] := by
  intro holds
  have last := (holds.1 _ run_mem_reached).write
  exact absurd last (by decide)

end Run
end ModbusStreamAccumulator
end EnerSentry.Protocol
