import EnerSentry.Protocol.Checksum
import EnerSentry.Protocol.Reconnection

/-!
However a stream of valid frames is cut into chunks, the ring gives up those frames. What is
buffered is always the front of the stream: a part of its first frame is left alone, and a whole
one is taken.
-/

namespace EnerSentry.Protocol
open EnerSentry.Lib EnerSentry.Lib.Packing

/-- A response frame as a device sends it. -/
def ValidFrame (transport : Transport) (frame : List UInt8) : Prop :=
  match transport with
  | .rtu => crc16ModbusVerify frame = true ∧ announced (frame.getD 1 0) (frame.getD 2 0) = some frame.length
  | .tcp =>
      let lenField := (readU16BE frame 4).toNat
      2 ≤ lenField ∧ lenField ≤ 4090 ∧ frame.length = 6 + lenField ∧
        (flagged (frame.getD 7 0) = true → lenField = 3)

instance (transport : Transport) (frame : List UInt8) : Decidable (ValidFrame transport frame) :=
  match transport with
  | .rtu => inferInstanceAs (Decidable (_ ∧ _))
  | .tcp => inferInstanceAs (Decidable (_ ∧ _ ∧ _ ∧ (_ → _)))

theorem ValidFrame.five_le {transport : Transport} {frame : List UInt8} (valid : ValidFrame transport frame) :
    5 ≤ frame.length := by
  cases transport with
  | rtu => exact five_le_announced valid.2
  | tcp =>
    obtain ⟨low, -, length, -⟩ := valid
    omega

namespace ModbusStreamAccumulator
variable {a : ModbusStreamAccumulator} {transport : Transport} {data frame rest later : List UInt8} {i n : Nat}

theorem size_append (room : a.size + data.length ≤ capacity) : (a.append data).size = a.size + data.length := by
  rw [append_size]
  split
  · rename_i none
    rw [none, List.length_nil, Nat.add_zero]
  · exact Nat.min_eq_left room

/-- A chunk that fits goes behind the bytes that are there. -/
theorem bytes_append (sound : a.Sound) (room : a.size + data.length ≤ capacity) :
    (a.append data).bytes = a.bytes ++ data := by
  have size := size_append room
  apply List.ext_getElem
  · rw [length_bytes, List.length_append, length_bytes, size]
  · intro i before after
    have inside : i < (a.append data).size := by simpa using before
    have found := getD_bytes inside
    rw [List.getD_eq_getElem?_getD, List.getElem?_eq_getElem before, Option.getD_some] at found
    rw [found]
    by_cases old : i < a.size
    · rw [peek_append_old sound room old, List.getElem_append_left (by simpa using old), ← getD_bytes old,
        List.getD_eq_getElem?_getD, List.getElem?_eq_getElem (by simpa using old), Option.getD_some]
    · obtain ⟨k, rfl⟩ := Nat.exists_eq_add_of_le (Nat.le_of_not_lt old)
      have new : k < data.length := by omega
      rw [peek_append_new sound room new, List.getElem_append_right (by simp), List.getD_eq_getElem?_getD,
        List.getElem?_eq_getElem new, Option.getD_some]
      simp

/-- What is buffered is the front of a stream that begins with this frame. -/
def Fronts (a : ModbusStreamAccumulator) (rest frame later : List UInt8) : Prop := a.bytes ++ rest = frame ++ later

theorem Fronts.peek (fronts : a.Fronts rest frame later) (inside : i < a.size) (within : i < frame.length) :
    a.peek i = frame.getD i 0 := by
  have buffered : i < a.bytes.length := by simpa using inside
  calc a.peek i = a.bytes.getD i 0 := (getD_bytes inside).symm
    _ = (a.bytes ++ rest).getD i 0 := (List.getD_append _ _ _ _ buffered).symm
    _ = (frame ++ later).getD i 0 := by rw [fronts]
    _ = frame.getD i 0 := List.getD_append _ _ _ _ within

/-- A frame that is all there stands at the front. -/
theorem Fronts.whole (fronts : a.Fronts rest frame later) (complete : frame.length ≤ a.size) :
    (List.range frame.length).map a.peek = frame := by
  have buffered : frame.length ≤ a.bytes.length := by rwa [length_bytes]
  calc (List.range frame.length).map a.peek = a.bytes.take frame.length := (take_bytes complete).symm
    _ = (a.bytes ++ rest).take frame.length := (List.take_append_of_le_length buffered).symm
    _ = (frame ++ later).take frame.length := by rw [fronts]
    _ = frame := List.take_left

theorem Fronts.advance (fronts : a.Fronts rest frame later) (complete : frame.length ≤ a.size) :
    (a.advance frame.length).bytes ++ rest = later := by
  have buffered : frame.length ≤ a.bytes.length := by rwa [length_bytes]
  calc (a.advance frame.length).bytes ++ rest = a.bytes.drop frame.length ++ rest := by rw [bytes_advance complete]
    _ = (a.bytes ++ rest).drop frame.length := (List.drop_append_of_le_length buffered).symm
    _ = (frame ++ later).drop frame.length := by rw [fronts]
    _ = later := List.drop_left

/-- On a serial line the header announces the frame. -/
theorem cut_serial (header : 4 ≤ a.size) (known : announced (a.peek 1) (a.peek 2) = some n) :
    a.cut false = a.cutAt false n := by
  unfold announced at known
  rw [cut, if_neg (by simpa [headerLength] using header)]
  simp only [functionOffset, exceptionLength, expectedLength, Bool.false_eq_true, if_false, flagged]
  split at known
  · rename_i mark
    rw [if_pos mark, ← Option.some.inj known]
  · rename_i plain
    rw [if_neg plain, known]

theorem cutAt_serial (complete : n ≤ a.size) (checked : a.crcValid n = true) : a.cutAt false n = .take n := by
  rw [cutAt, if_neg (Nat.not_lt.mpr complete), checked]
  rfl

theorem cutAt_tcp (a : ModbusStreamAccumulator) (n : Nat) :
    a.cutAt true n = if a.size < n then .wait else .take n := rfl

theorem cut_valid_rtu (valid : ValidFrame .rtu frame) (fronts : a.Fronts rest frame later) :
    a.cut false = if a.size < frame.length then .wait else .take frame.length := by
  have long := valid.five_le
  obtain ⟨verified, length⟩ := valid
  by_cases header : 4 ≤ a.size
  · rw [← fronts.peek (by omega) (by omega), ← fronts.peek (by omega) (by omega)] at length
    refine (cut_serial header length).trans ?_
    by_cases short : a.size < frame.length
    · rw [if_pos short, cutAt, if_pos short]
    · have complete := Nat.le_of_not_lt short
      rw [if_neg short, cutAt_serial complete]
      rw [crcValid_iff_verify (by omega), fronts.whole complete, verified]
  · have short : a.size < 4 := Nat.lt_of_not_le header
    rw [if_pos (by omega)]
    exact if_pos short

/-- Over TCP the length field announces the frame. -/
theorem expectedLength_valid (valid : ValidFrame .tcp frame) (fronts : a.Fronts rest frame later) (header : 7 ≤ a.size)
    (function : UInt8) : a.expectedLength true function = some frame.length := by
  have long := valid.five_le
  obtain ⟨low, high, length, -⟩ := valid
  have field : join (a.peek 4) (a.peek 5) = readU16BE frame 4 := by
    rw [readU16BE, fronts.peek (by omega) (by omega), fronts.peek (by omega) (by omega)]
  have usable : ¬((decide ((readU16BE frame 4).toNat < 2) ||
      decide (capacity < 6 + (readU16BE frame 4).toNat)) = true) := by
    rw [Bool.or_eq_true, decide_eq_true_eq, decide_eq_true_eq]
    unfold capacity
    omega
  simp only [expectedLength, if_true, field]
  rw [if_neg usable, length]

theorem cut_valid_tcp (valid : ValidFrame .tcp frame) (fronts : a.Fronts rest frame later) :
    a.cut true = if a.size < frame.length then .wait else .take frame.length := by
  have long := valid.five_le
  have announces := expectedLength_valid valid fronts
  obtain ⟨low, high, length, exceptional⟩ := valid
  by_cases header : 7 ≤ a.size
  · have decided : a.cut true = if flagged (a.peek 7) then a.cutAt true 9 else a.cutAt true frame.length := by
      rw [cut, announces header]
      exact if_neg (Nat.not_lt.mpr header)
    refine decided.trans ?_
    by_cases mark : flagged (a.peek 7) = true
    · rw [if_pos mark, cutAt_tcp]
      by_cases seven : a.size = 7
      · -- the function code is read from a cell that has not arrived yet
        rw [if_pos (by omega), if_pos (by omega)]
      · rw [fronts.peek (by omega) (by omega)] at mark
        have nine : frame.length = 9 := by
          have := exceptional mark
          omega
        rw [nine]
    · rw [if_neg mark, cutAt_tcp]
  · have short : a.size < 7 := Nat.lt_of_not_le header
    rw [if_pos (by omega)]
    exact if_pos short

/-- A part of a valid frame is left alone, and the whole of it is taken. -/
theorem cut_valid (valid : ValidFrame transport frame) (fronts : a.Fronts rest frame later) :
    a.cut (transport = .tcp) = if a.size < frame.length then .wait else .take frame.length := by
  cases transport with
  | rtu => exact cut_valid_rtu valid fronts
  | tcp => exact cut_valid_tcp valid fronts

/-- What a ring of a stream of frames has left to give up: the buffered bytes are the front of it, and
its first frame is not complete. -/
structure Holds (a : ModbusStreamAccumulator) (rest : List UInt8) (left : List (List UInt8)) : Prop where
  sound : a.Sound
  bytes : a.bytes ++ rest = left.flatten
  incomplete : ∀ f ∈ left.head?, a.size < f.length

/-- Everything has been given up when nothing more comes. -/
theorem Holds.done {left : List (List UInt8)} (holds : a.Holds [] left) : left = [] ∧ a.size = 0 := by
  have bytes := holds.bytes
  rw [List.append_nil] at bytes
  have size : a.size = left.flatten.length := by rw [← bytes, length_bytes]
  cases left with
  | nil => exact ⟨rfl, size⟩
  | cons f fs =>
    have short := holds.incomplete f rfl
    rw [size, List.flatten_cons, List.length_append] at short
    exact absurd short (by omega)

/-- The frames that are complete are given up, and no others. -/
theorem extractFrames_valid (sound : a.Sound) (frames : List (List UInt8))
    (valid : ∀ f ∈ frames, ValidFrame transport f) (bytes : a.bytes ++ rest = frames.flatten) :
    ∃ left, frames = (a.extractFrames (transport = .tcp)).2 ++ left ∧
      (a.extractFrames (transport = .tcp)).1.Holds rest left := by
  induction frames generalizing a with
  | nil =>
    have empty : a.size = 0 := by
      have none := (List.append_eq_nil_iff.mp bytes).1
      rw [← length_bytes, none, List.length_nil]
    rw [extractFrames_eq, tryExtractFrame_empty empty]
    exact ⟨[], rfl, sound, bytes, fun _ none => by cases none⟩
  | cons f fs ih =>
    obtain ⟨first, others⟩ := List.forall_mem_cons.mp valid
    have fronts : a.Fronts rest f fs.flatten := bytes
    have moves := makes_tryExtractFrame a (transport = .tcp)
    have kept := sound.makes moves
    rw [cut_valid first fronts] at moves
    rw [extractFrames_eq]
    by_cases short : a.size < f.length
    · rw [if_pos short] at moves
      generalize a.tryExtractFrame (transport = .tcp) = result at moves
      cases moves
      exact ⟨f :: fs, rfl, sound, bytes, fun g head => by cases head; exact short⟩
    · rw [if_neg short] at moves
      generalize a.tryExtractFrame (transport = .tcp) = result at moves kept
      cases moves
      have complete := Nat.le_of_not_lt short
      obtain ⟨left, split, holds⟩ := ih kept others (fronts.advance complete)
      refine ⟨left, ?_, holds⟩
      rw [fronts.whole complete, List.cons_append, ← split]

/-- A chunk of the stream brings the frames it completes. -/
theorem Holds.feeding {left : List (List UInt8)} (holds : a.Holds (data ++ rest) left)
    (valid : ∀ f ∈ left, ValidFrame transport f) (room : a.size + data.length ≤ capacity) :
    ∃ left', left = (feeding (transport = .tcp) a data).2 ++ left' ∧
      (feeding (transport = .tcp) a data).1.Holds rest left' := by
  cases data with
  | nil => exact ⟨left, rfl, holds⟩
  | cons x xs =>
    apply extractFrames_valid (holds.sound.append _) left valid
    rw [bytes_append holds.sound room, List.append_assoc]
    exact holds.bytes

end ModbusStreamAccumulator

namespace ModbusEngine
open ModbusStreamAccumulator
variable {e : ModbusEngine} {left : List (List UInt8)}

/-- The bytes that come with an event. -/
def chunk : EngineEvent → List UInt8
  | .bytes data => data
  | _ => []

/-- The frames that the receiving loop cuts off in a sequence of events. -/
def extracted (e : ModbusEngine) (later : List EngineEvent) : List (List UInt8) :=
  (Runs.visits step e later).flatMap fun v => (v.1.receive (chunk v.2)).2

theorem receive_feeding (e : ModbusEngine) (data : List UInt8) :
    (e.receive data).2 = (feeding (e.transport = .tcp) e.accumulator data).2 := by
  rw [receive, feeding]
  split <;> rfl

theorem transport_step (e : ModbusEngine) (event : EngineEvent) : (e.step event).1.transport = e.transport := by
  have parts := congrArg (fun next => next.1.transport) (step_withRing (e := e) (a := e.accumulator) event)
  exact parts.trans (transport_handle _ event)

theorem ring_chunk (e : ModbusEngine) (event : EngineEvent) :
    (e.step event).1.accumulator = (feeding (e.transport = .tcp) e.accumulator (chunk event)).1 := by
  rw [ring_step]
  cases event <;> rfl

/-- Of a stream of valid frames, the frames that are left are cut off as their bytes come. -/
theorem extracted_of_holds (later : List EngineEvent)
    (holds : e.accumulator.Holds (later.flatMap chunk) left) (valid : ∀ f ∈ left, ValidFrame e.transport f)
    (room : ∀ v ∈ Runs.visits step e later, v.1.accumulator.size + (chunk v.2).length ≤ capacity) :
    e.extracted later = left ∧ (Runs.run step e later).accumulator.size = 0 := by
  induction later generalizing e left with
  | nil =>
    obtain ⟨rfl, empty⟩ := holds.done
    exact ⟨rfl, empty⟩
  | cons event later ih =>
    obtain ⟨here, after⟩ := List.forall_mem_cons.mp room
    obtain ⟨left', split, next⟩ := holds.feeding valid here
    rw [← ring_chunk] at next
    have same : (e.step event).1.transport = e.transport := transport_step e event
    obtain ⟨frames, empty⟩ := ih next (fun f member => same ▸ valid f (split ▸ List.mem_append_right _ member)) after
    refine ⟨?_, empty⟩
    calc e.extracted (event :: later)
        = (e.receive (chunk event)).2 ++ (e.step event).1.extracted later := rfl
      _ = (feeding (e.transport = .tcp) e.accumulator (chunk event)).2 ++ left' := by rw [receive_feeding, frames]
      _ = left := split.symm

/-- However a stream of valid frames is cut into chunks that fit into the ring, and whatever is
written in between, the engine cuts off exactly these frames and is left with an empty ring. -/
theorem extracted_frames (transport : Transport) (history later : List EngineEvent) (frames : List (List UInt8))
    (empty : (Runs.run step { transport := transport } history).accumulator.size = 0)
    (valid : ∀ f ∈ frames, ValidFrame transport f) (whole : later.flatMap chunk = frames.flatten)
    (room : ∀ v ∈ Runs.visits step (Runs.run step { transport := transport } history) later,
      v.1.accumulator.size + (chunk v.2).length ≤ capacity) :
    (Runs.run step { transport := transport } history).extracted later = frames ∧
      (Runs.run step (Runs.run step { transport := transport } history) later).accumulator.size = 0 := by
  have same : (Runs.run step { transport := transport } history).transport = transport :=
    Runs.reached_always step history (I := fun e => e.transport = transport) rfl
      (fun e event kept => (transport_step e event).trans kept) _ Runs.run_mem_reached
  refine extracted_of_holds later ⟨reached_ring transport history, ?_, ?_⟩ (by rwa [same]) room
  · rw [List.length_eq_zero_iff.mp (length_bytes.trans empty), List.nil_append, whole]
  · intro f head
    rw [empty]
    exact Nat.lt_of_lt_of_le (Nat.zero_lt_succ 4) (valid f (List.mem_of_mem_head? head)).five_le

/-- An exception and a reading over TCP, cut behind the seventh byte and in the second header. -/
theorem extracted_frames_split :
    extracted { transport := .tcp }
      [.bytes [0, 1, 0, 0, 0, 3, 1], .connectionChanged true, .bytes [0x83, 2, 0, 2, 0],
        .bytes [0, 0, 5, 1, 3, 2, 0, 42]] =
      [[0, 1, 0, 0, 0, 3, 1, 0x83, 2], [0, 2, 0, 0, 0, 5, 1, 3, 2, 0, 42]] :=
  (extracted_frames .tcp [] _ [[0, 1, 0, 0, 0, 3, 1, 0x83, 2], [0, 2, 0, 0, 0, 5, 1, 3, 2, 0, 42]] rfl
    (by decide) rfl (by decide +kernel)).1

end ModbusEngine
end EnerSentry.Protocol
