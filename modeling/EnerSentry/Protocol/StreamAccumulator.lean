import EnerSentry.Protocol.ModbusFrame

/-!
The ring that turns received bytes into frames. New bytes push out the oldest ones; a
frame is cut off by the length its header announces, and a header that announces nothing
usable is slid over byte by byte.
-/

namespace EnerSentry.Protocol
open EnerSentry.Lib.Packing

/-- The ring's cells are numbered from 0; only the first `capacity` of them are used. -/
structure ModbusStreamAccumulator where
  buf : Nat → UInt8 := fun _ => 0
  read : Nat := 0
  write : Nat := 0
  size : Nat := 0
  huntCount : UInt32 := 0
  huntSlidBytes : Nat := 0

namespace ModbusStreamAccumulator

def capacity : Nat := 4096

def maxHuntBytes : Nat := 4096

def append (a : ModbusStreamAccumulator) (data : List UInt8) : ModbusStreamAccumulator :=
  let len := data.length
  if len = 0 then a
  else
    let read := if capacity < a.size + len then (a.read + (a.size + len - capacity)) % capacity else a.read
    let buf := (data.zipIdx).foldl
      (fun buf (b : UInt8 × Nat) => Function.update buf ((a.write + b.2) % capacity) b.1) a.buf
    { a with
      buf := buf
      read := read
      write := (a.write + len) % capacity
      size := min (a.size + len) capacity }

def clear (a : ModbusStreamAccumulator) : ModbusStreamAccumulator :=
  { a with read := 0, write := 0, size := 0, huntCount := 0, huntSlidBytes := 0 }

/-- A cell past the buffered bytes still holds what was there before. -/
def peek (a : ModbusStreamAccumulator) (offset : Nat) : UInt8 := a.buf ((a.read + offset) % capacity)

def advance (a : ModbusStreamAccumulator) (n : Nat) : ModbusStreamAccumulator :=
  { a with read := (a.read + n) % capacity, size := if n ≤ a.size then a.size - n else 0 }

/-- The count of slid bytes is a machine word. -/
def popFront (a : ModbusStreamAccumulator) (n : Nat) : ModbusStreamAccumulator :=
  if n = 0 then a
  else
    let slid := { a.advance n with huntSlidBytes := (a.huntSlidBytes + n) % 2 ^ 64 }
    if maxHuntBytes ≤ slid.huntSlidBytes then slid.clear else slid

def onFrameExtracted (a : ModbusStreamAccumulator) : ModbusStreamAccumulator :=
  { a with huntSlidBytes := 0 }

def pop (a : ModbusStreamAccumulator) (n : Nat) : ModbusStreamAccumulator × List UInt8 :=
  (if n = 0 then a else a.advance n, (List.range n).map a.peek)

/-- The checksum over the first bytes, taken bit by bit, against the two that follow them. -/
def crcValid (a : ModbusStreamAccumulator) (len : Nat) : Bool :=
  let crc := ((List.range (len - 2)).map a.peek).foldl
    (fun crc byte => Nat.repeat crc16Shift 8 (crc ^^^ byte.toUInt16)) 0xFFFF
  crc == join (a.peek (len - 1)) (a.peek (len - 2))

/-- The length of a normal frame by its header, or `none` where the header is refused. -/
def expectedLength (a : ModbusStreamAccumulator) (isTcp : Bool) (function : UInt8) : Option Nat :=
  if isTcp then
    let lenField := (join (a.peek 4) (a.peek 5)).toNat
    if lenField < 2 || capacity < 6 + lenField then none else some (6 + lenField)
  else if isReadCode function then some (3 + (a.peek 2).toNat + 2)
  else if function == 0x05 || function == 0x06 || function == 0x0F || function == 0x10 then some 8
  else none

/-- A frame of `expected` bytes leaves the ring once it is complete and, on a serial line,
its checksum is right. -/
def extract (a : ModbusStreamAccumulator) (isTcp : Bool) (expected : Nat) :
    ModbusStreamAccumulator × Option (List UInt8) :=
  if a.size < expected then (a, none)
  else if !isTcp && !a.crcValid expected then ({ a with huntCount := a.huntCount + 1 }.popFront 1, none)
  else
    let popped := a.pop expected
    (popped.1.onFrameExtracted, some popped.2)

def tryExtractFrame (a : ModbusStreamAccumulator) (isTcp : Bool) :
    ModbusStreamAccumulator × Option (List UInt8) :=
  let minHdr := if isTcp then 7 else 4
  if a.size < minHdr then (a, none)
  else
    let unitOff := if isTcp then 6 else 0
    let function := a.peek (unitOff + 1)
    if function &&& 0x80 != 0 then a.extract isTcp (if isTcp then 9 else 5)
    else
      match a.expectedLength isTcp function with
      | none => (a.popFront 1, none)
      | some expected => a.extract isTcp expected

def extractLoop (isTcp : Bool) : Nat → ModbusStreamAccumulator → ModbusStreamAccumulator × List (List UInt8)
  | 0, a => (a, [])
  | fuel + 1, a =>
      match a.tryExtractFrame isTcp with
      | (a', none) => (a', [])
      | (a', some frame) =>
          let rest := extractLoop isTcp fuel a'
          (rest.1, frame :: rest.2)

/-- Every frame that can be cut off now. Each takes at least five bytes with it, so the
bytes in the ring bound the number of rounds. -/
def extractFrames (a : ModbusStreamAccumulator) (isTcp : Bool) :
    ModbusStreamAccumulator × List (List UInt8) :=
  extractLoop isTcp a.size a

section Frames
variable {a b : ModbusStreamAccumulator} {isTcp : Bool} {frame : List UInt8} {expected : Nat}

theorem size_extract (long : 5 ≤ expected) (extracted : a.extract isTcp expected = (b, some frame)) :
    b.size < a.size ∧ 5 ≤ frame.length := by
  rw [extract] at extracted
  split at extracted
  · exact absurd (congrArg Prod.snd extracted) (by simp)
  · rename_i complete
    split at extracted
    · exact absurd (congrArg Prod.snd extracted) (by simp)
    · obtain ⟨rfl, rfl⟩ := by simpa using extracted
      have nonzero : expected ≠ 0 := by omega
      constructor
      · simp only [onFrameExtracted, pop, if_neg nonzero, advance]
        split <;> omega
      · simpa [pop] using long

theorem five_le_expectedLength {function : UInt8}
    (announced : a.expectedLength isTcp function = some expected) : 5 ≤ expected := by
  rw [expectedLength] at announced
  cases isTcp with
  | true =>
    simp only [↓reduceIte, Option.ite_none_left_eq_some, Option.some.injEq, Bool.or_eq_true,
      decide_eq_true_eq, not_or] at announced
    omega
  | false =>
    simp only [Bool.false_eq_true, ↓reduceIte] at announced
    split at announced
    · have := Option.some.inj announced
      omega
    · split at announced
      · have := Option.some.inj announced
        omega
      · exact absurd announced (by simp)

/-- A frame is never empty, and the ring is shorter without it. -/
theorem size_tryExtractFrame (extracted : a.tryExtractFrame isTcp = (b, some frame)) :
    b.size < a.size ∧ 5 ≤ frame.length := by
  simp only [tryExtractFrame] at extracted
  generalize (if isTcp then 7 else 4) = minHdr at extracted
  generalize a.peek ((if isTcp then 6 else 0) + 1) = function at extracted
  have fixed : 5 ≤ if isTcp then 9 else 5 := by split <;> omega
  generalize (if isTcp then 9 else 5) = length at extracted fixed
  split at extracted
  · exact absurd (congrArg Prod.snd extracted) (by simp)
  · split at extracted
    · exact size_extract fixed extracted
    · split at extracted
      · exact absurd (congrArg Prod.snd extracted) (by simp)
      · rename_i announced
        exact size_extract (five_le_expectedLength announced) extracted

theorem tryExtractFrame_empty (empty : a.size = 0) : a.tryExtractFrame isTcp = (a, none) := by
  have short : a.size < if isTcp then 7 else 4 := by split <;> omega
  rw [tryExtractFrame, if_pos short]

theorem extractLoop_enough (fuel : Nat) (enough : a.size ≤ fuel) :
    extractLoop isTcp fuel a = extractFrames a isTcp := by
  suffices same : ∀ n m (a : ModbusStreamAccumulator), a.size ≤ n → a.size ≤ m →
      extractLoop isTcp n a = extractLoop isTcp m a from same _ _ _ enough (Nat.le_refl _)
  intro n
  induction n with
  | zero =>
    intro m a empty _
    have stuck : a.tryExtractFrame isTcp = (a, none) := tryExtractFrame_empty (Nat.le_zero.mp empty)
    cases m with
    | zero => rfl
    | succ m => rw [extractLoop, extractLoop, stuck]
  | succ n ih =>
    intro m a here there
    cases m with
    | zero =>
      rw [extractLoop, extractLoop, tryExtractFrame_empty (Nat.le_zero.mp there)]
    | succ m =>
      rw [extractLoop, extractLoop]
      rcases tried : a.tryExtractFrame isTcp with ⟨b, _ | frame⟩
      · rfl
      · have shorter := (size_tryExtractFrame tried).1
        simp only [ih m b (by omega) (by omega)]

/-- The receiving loop, one round at a time. -/
theorem extractFrames_eq (a : ModbusStreamAccumulator) (isTcp : Bool) :
    a.extractFrames isTcp =
      match a.tryExtractFrame isTcp with
      | (b, none) => (b, [])
      | (b, some frame) => ((b.extractFrames isTcp).1, frame :: (b.extractFrames isTcp).2) := by
  rw [← extractLoop_enough (a.size + 1) (Nat.le_succ _), extractLoop]
  rcases tried : a.tryExtractFrame isTcp with ⟨b, _ | frame⟩
  · rfl
  · have shorter := (size_tryExtractFrame tried).1
    simp only [extractLoop_enough a.size (Nat.le_of_lt shorter)]

end Frames
end ModbusStreamAccumulator
end EnerSentry.Protocol
