import EnerSentry.Protocol.ModbusEngine

/-!
What a serial stream should give up: complete valid frames, and dirty bytes slid over one by
one until a frame or an incomplete candidate is in front. The receiving loop gives up the
same frames as far as the first dirty byte, where it stops.
-/

namespace EnerSentry.Protocol
open EnerSentry.Lib EnerSentry.Lib.Packing

/-- What stands at the front of a serial stream. -/
inductive Front where
  | incomplete
  | dirty
  | frame (n : Nat)
  deriving DecidableEq, Repr

/-- The length that a serial header announces. -/
def announced (function byteCount : UInt8) : Option Nat :=
  if function &&& 0x80 != 0 then some 5
  else if isReadCode function then some (3 + byteCount.toNat + 2)
  else if function == 0x05 || function == 0x06 || function == 0x0F || function == 0x10 then some 8
  else none

def crcBitwise (data : List UInt8) : UInt16 :=
  data.foldl (fun crc byte => Nat.repeat crc16Shift 8 (crc ^^^ byte.toUInt16)) 0xFFFF

/-- The first `n` bytes end in the checksum of those before. -/
def sealed (bytes : List UInt8) (n : Nat) : Bool :=
  crcBitwise (bytes.take (n - 2)) == join (bytes.getD (n - 1) 0) (bytes.getD (n - 2) 0)

def front (bytes : List UInt8) : Front :=
  if bytes.length < 4 then .incomplete
  else
    match announced (bytes.getD 1 0) (bytes.getD 2 0) with
    | none => .dirty
    | some n => if bytes.length < n then .incomplete else if sealed bytes n then .frame n else .dirty

/-- The frames a stream holds, each with the number of dirty bytes right before it. -/
def drainLoop : Nat → Nat → List UInt8 → List (Nat × List UInt8)
  | 0, _, _ => []
  | fuel + 1, slid, bytes =>
      match front bytes with
      | .incomplete => []
      | .dirty => drainLoop fuel (slid + 1) (bytes.drop 1)
      | .frame n => (slid, bytes.take n) :: drainLoop fuel 0 (bytes.drop n)

/-- Every round takes a byte at least. -/
def drain (bytes : List UInt8) : List (Nat × List UInt8) := drainLoop (bytes.length + 1) 0 bytes

section Drain
variable {bytes : List UInt8} {n : Nat}

theorem five_le_announced {function byteCount : UInt8} (known : announced function byteCount = some n) : 5 ≤ n := by
  unfold announced at known
  split at known
  · exact (Option.some.inj known).le
  · split at known
    · have := Option.some.inj known
      omega
    · split at known
      · have := Option.some.inj known
        omega
      · cases known

theorem front_frame (found : front bytes = .frame n) : 5 ≤ n ∧ n ≤ bytes.length := by
  unfold front at found
  split at found
  · cases found
  · split at found
    · cases found
    · rename_i known
      split at found
      · cases found
      · split at found
        · cases found
          exact ⟨five_le_announced known, by omega⟩
        · cases found

theorem front_dirty (found : front bytes = .dirty) : 4 ≤ bytes.length := by
  by_contra short
  rw [front, if_pos (by omega)] at found
  cases found

theorem drainLoop_enough (fuel fuel' slid : Nat) (bytes : List UInt8) (enough : bytes.length < fuel)
    (enough' : bytes.length < fuel') : drainLoop fuel slid bytes = drainLoop fuel' slid bytes := by
  induction fuel generalizing fuel' slid bytes with
  | zero => exact absurd enough (Nat.not_lt_zero _)
  | succ fuel ih =>
    cases fuel' with
    | zero => exact absurd enough' (Nat.not_lt_zero _)
    | succ fuel' =>
      rw [drainLoop, drainLoop]
      cases found : front bytes with
      | incomplete => rfl
      | dirty =>
        have long := front_dirty found
        exact ih _ _ _ (by rw [List.length_drop]; omega) (by rw [List.length_drop]; omega)
      | frame n =>
        have long := front_frame found
        exact congrArg _ (ih _ _ _ (by rw [List.length_drop]; omega) (by rw [List.length_drop]; omega))

/-- Dirty bytes are counted on the next frame, not on those behind it. -/
theorem drainLoop_head (fuel slid : Nat) (bytes : List UInt8) :
    ∀ s ∈ (drainLoop fuel slid bytes).head?, slid ≤ s.1 := by
  induction fuel generalizing slid bytes with
  | zero => simp [drainLoop]
  | succ fuel ih =>
    rw [drainLoop]
    cases front bytes with
    | incomplete => simp
    | dirty => exact fun s member => Nat.le_of_succ_le (ih (slid + 1) _ s member)
    | frame n => simp

end Drain

namespace ModbusStreamAccumulator
variable {a : ModbusStreamAccumulator}

/-- The buffered bytes, the oldest first. -/
def bytes (a : ModbusStreamAccumulator) : List UInt8 := (List.range a.size).map a.peek

@[simp] theorem length_bytes : a.bytes.length = a.size := by simp [bytes]

theorem getD_bytes {i : Nat} (inside : i < a.size) : a.bytes.getD i 0 = a.peek i := by
  simp [bytes, List.getD_eq_getElem?_getD, List.getElem?_map, List.getElem?_range inside]

theorem take_bytes {n : Nat} (inside : n ≤ a.size) : a.bytes.take n = (List.range n).map a.peek := by
  rw [bytes, ← List.map_take, List.take_range, Nat.min_eq_left inside]

theorem bytes_advance {n : Nat} (inside : n ≤ a.size) : (a.advance n).bytes = a.bytes.drop n := by
  apply List.ext_getElem
  · simp [advance, inside]
  · intro i before after
    simp [bytes, advance, peek, Nat.add_assoc]

theorem crcValid_eq {n : Nat} (long : 2 ≤ n) (inside : n ≤ a.size) : a.crcValid n = sealed a.bytes n := by
  rw [crcValid, sealed, take_bytes (by omega), getD_bytes (by omega), getD_bytes (by omega), crcBitwise]

/-- One attempt on a serial line sees the front of the buffered bytes. -/
theorem tryExtractFrame_front (a : ModbusStreamAccumulator) :
    match front a.bytes with
    | .frame n => ∃ b, a.tryExtractFrame false = (b, some (a.bytes.take n)) ∧ b.bytes = a.bytes.drop n
    | _ => (a.tryExtractFrame false).2 = none := by
  unfold front
  rw [length_bytes]
  by_cases short : a.size < 4
  · rw [if_pos short]
    simp only [tryExtractFrame, Bool.false_eq_true, if_false, short, if_true]
  · rw [if_neg short, getD_bytes (by omega), getD_bytes (by omega)]
    have attempt : a.tryExtractFrame false =
        match announced (a.peek 1) (a.peek 2) with
        | none => (a.popFront 1, none)
        | some n => a.extract false n := by
      unfold tryExtractFrame announced expectedLength
      simp only [Bool.false_eq_true, if_false, if_neg short]
      split
      · rfl
      · rfl
    rw [attempt]
    cases known : announced (a.peek 1) (a.peek 2) with
    | none => rfl
    | some n =>
      have long := five_le_announced known
      simp only [extract]
      by_cases few : a.size < n
      · rw [if_pos few, if_pos few]
      · rw [if_neg few, if_neg few, crcValid_eq (by omega) (by omega)]
        cases checked : sealed a.bytes n with
        | true =>
          have popped : a.pop n = (a.advance n, a.bytes.take n) := by
            rw [pop, if_neg (by omega), take_bytes (by omega)]
          refine ⟨(a.advance n).onFrameExtracted, ?_, bytes_advance (by omega)⟩
          rw [popped]
          rfl
        | false => rfl

/-- The loop gives up the frames before the first dirty byte. -/
theorem extractFrames_drain (a : ModbusStreamAccumulator) :
    (a.extractFrames false).2 = ((drain a.bytes).takeWhile (fun s => s.1 == 0)).map (·.2) := by
  induction size : a.size using Nat.strong_induction_on generalizing a with
  | _ size ih =>
    rw [extractFrames_eq, drain, drainLoop]
    have attempt := tryExtractFrame_front a
    cases found : front a.bytes with
    | incomplete =>
      simp only [found] at attempt
      rw [← Prod.mk.eta (p := a.tryExtractFrame false), attempt]
      rfl
    | dirty =>
      simp only [found] at attempt
      have later := drainLoop_head a.bytes.length 1 (a.bytes.drop 1)
      rw [← Prod.mk.eta (p := a.tryExtractFrame false), attempt]
      simp only
      cases behind : drainLoop a.bytes.length 1 (a.bytes.drop 1) with
      | nil => rfl
      | cons s rest =>
        have slid : 1 ≤ s.1 := later s (by rw [behind]; rfl)
        rw [List.takeWhile_cons_of_neg (by simp; omega), List.map_nil]
    | frame n =>
      simp only [found] at attempt
      obtain ⟨b, extracted, rest⟩ := attempt
      have shorter := (size_tryExtractFrame extracted).1
      have enough : b.bytes.length < a.bytes.length := by simpa using shorter
      rw [extracted]
      simp only [ih b.size (size ▸ shorter) b rfl]
      rw [drainLoop_enough a.bytes.length (b.bytes.length + 1) 0 (a.bytes.drop n) (rest ▸ enough)
        (by rw [← rest]; omega), ← rest, List.takeWhile_cons_of_pos (by rfl)]
      rfl

end ModbusStreamAccumulator

section Prefix
variable {T O : Type*} {p : T → Bool} {f : T → List O}

/-- A cut of a list that loses no output loses nothing, when everything has an output. -/
theorem flatMap_takeWhile_iff (speaks : ∀ x, f x ≠ []) (xs : List T) :
    (xs.takeWhile p).flatMap f = xs.flatMap f ↔ ∀ x ∈ xs, p x = true := by
  induction xs with
  | nil => simp
  | cons x xs ih =>
    by_cases holds : p x = true
    · rw [List.takeWhile_cons_of_pos holds, List.flatMap_cons, List.flatMap_cons, List.append_cancel_left_eq, ih,
        List.forall_mem_cons]
      exact (and_iff_right holds).symm
    · rw [List.takeWhile_cons_of_neg holds, List.forall_mem_cons]
      refine iff_of_false (fun silent => ?_) (fun all => holds all.1)
      exact speaks x (List.append_eq_nil_iff.mp silent.symm).1

end Prefix

namespace ModbusEngine
variable {e : ModbusEngine} {data : List UInt8}

/-- What the ring holds once a chunk is in it. -/
def buffered (e : ModbusEngine) (data : List UInt8) : List UInt8 := (e.accumulator.append data).bytes

/-- What the application hears of one frame on a serial line. -/
def serialSignals (frame : List UInt8) : List EngineSignal :=
  match parseRtuResponse frame with
  | none => [.frameError 0 0 .malformed]
  | some resp => reportResponse 0 resp.slaveAddress resp

theorem serialSignals_ne_nil (frame : List UInt8) : serialSignals frame ≠ [] := by
  unfold serialSignals reportResponse
  split
  · exact List.cons_ne_nil _ _
  · split <;> exact List.cons_ne_nil _ _

theorem onFrame_serial (serial : e.transport = .rtu) (frame : List UInt8) :
    e.onFrame frame = (e, serialSignals frame) := by
  simp only [onFrame, serial, reduceCtorEq, if_false, serialSignals]
  cases parseRtuResponse frame <;> rfl

theorem outputs_serial (serial : e.transport = .rtu) (frames : List (List UInt8)) :
    Runs.outputs onFrame e frames = frames.flatMap serialSignals := by
  induction frames with
  | nil => rfl
  | cons frame frames ih => rw [Runs.outputs, onFrame_serial serial, ih, List.flatMap_cons]

theorem signals_serial (serial : e.transport = .rtu) (arrived : data ≠ []) : (e.onBytesReceived data).2 =
    ((drain (e.buffered data)).takeWhile (fun s => s.1 == 0)).flatMap (fun s => serialSignals s.2) := by
  have chunk : ¬data.isEmpty = true := by simpa using arrived
  have frames : (e.receive data).2 = ((drain (e.buffered data)).takeWhile (fun s => s.1 == 0)).map (·.2) := by
    rw [receive, if_neg chunk, serial]
    exact ModbusStreamAccumulator.extractFrames_drain (e.accumulator.append data)
  have same : (e.receive data).1.transport = .rtu := transport_receive.trans serial
  rw [onBytesReceived]
  simp only
  rw [outputs_serial same, frames, List.flatMap_map]

/-- One chunk brings every complete valid frame that is buffered with it, the ones behind
dirty bytes included. -/
def Delivers (e : ModbusEngine) (data : List UInt8) : Prop :=
  (e.onBytesReceived data).2 = (drain (e.buffered data)).flatMap (fun s => serialSignals s.2)

/-- On a serial line all frames are delivered if and only if none stands behind a dirty byte. -/
theorem delivers_iff (serial : e.transport = .rtu) (arrived : data ≠ []) :
    Delivers e data ↔ ∀ s ∈ drain (e.buffered data), s.1 = 0 := by
  rw [Delivers, signals_serial serial arrived,
    flatMap_takeWhile_iff (fun s : Nat × List UInt8 => serialSignals_ne_nil s.2)]
  simp only [beq_iff_eq]

/-- Two responses of slave 17 in one chunk. -/
theorem delivers_iff_pair : Delivers { transport := .rtu }
    [0x11, 0x83, 0x02, 0xC1, 0x34, 0x11, 0x83, 0x02, 0xC1, 0x34] :=
  (delivers_iff rfl (by decide)).mpr (by decide +kernel)

/-- The same response behind one dirty byte stays in the ring. -/
theorem delivers_fails : ¬Delivers { transport := .rtu } [0x00, 0x11, 0x83, 0x02, 0xC1, 0x34] := by
  unfold Delivers
  decide +kernel

end ModbusEngine
end EnerSentry.Protocol
