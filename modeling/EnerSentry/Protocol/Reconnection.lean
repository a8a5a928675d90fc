import EnerSentry.Protocol.RingProbes
import EnerSentry.Protocol.TransactionPairing

/-!
A lost connection empties the table of requests and the marks of the allocator, but the ring
of received bytes is left as it is. The engine then goes on like a new one exactly when no
bytes were left in the ring and, over TCP, nothing that a look past the buffered bytes meets.
-/

namespace EnerSentry.Protocol
open EnerSentry.Lib ModbusStreamAccumulator

/-- What comes over a connection once it stands. -/
def EngineEvent.OverConnection : EngineEvent → Prop
  | connectionChanged _ => False
  | _ => True

def EngineOutput.signals (outputs : List EngineOutput) : List EngineSignal :=
  outputs.filterMap fun
    | .signal s => some s
    | .wrote .. => none

def EngineSignal.slave : EngineSignal → UInt8
  | responseParsed _ slave _ => slave
  | frameError _ slave _ => slave

namespace ModbusEngine

/-- After the connection is lost, every sequence of writes and received bytes has the signals
it has on a new engine. -/
def Reborn (e : ModbusEngine) : Prop :=
  ∀ later : List EngineEvent, (∀ event ∈ later, event.OverConnection) →
    EngineOutput.signals (Runs.outputs step (e.onConnectionChanged false) later) =
      EngineOutput.signals (Runs.outputs step { transport := e.transport } later)

/-- No bytes are left, and over TCP the ring is back at its first cell, with no mark of an
exception in any cell that can be looked at before it is written. -/
structure Drained (e : ModbusEngine) : Prop where
  empty : e.accumulator.size = 0
  wound : e.transport = .tcp →
    e.accumulator.read = 0 ∧ ∀ k, 7 ≤ k → k < capacity → flagged (e.accumulator.buf k) = false

/-- The engine with another ring. -/
def withRing (e : ModbusEngine) (a : ModbusStreamAccumulator) : ModbusEngine := { e with accumulator := a }

/-- What an event does to the ring, and the frames it gives up. -/
def carry (transport : Transport) (a : ModbusStreamAccumulator) : EngineEvent → ModbusStreamAccumulator × List
    (List UInt8)
  | .bytes data => feeding (transport = .tcp) a data
  | _ => (a, [])

/-- What an event with its frames does to the rest of the engine. -/
def handle (e : ModbusEngine) (frames : List (List UInt8)) : EngineEvent → ModbusEngine × List EngineOutput
  | .bytes _ => (Runs.run onFrame e frames, (Runs.outputs onFrame e frames).map .signal)
  | event => e.step event

section WithRing
variable {e : ModbusEngine} {a b : ModbusStreamAccumulator}

theorem handOver_withRing (channel : Channel) (r : ModbusRequest) : (e.withRing a).handOver channel r =
    { e.handOver channel r with engine := (e.handOver channel r).engine.withRing a } := by
  simp only [handOver]
  split
  · split <;> rfl
  · rfl

theorem emplace_withRing (tid : UInt16) (entry : InFlightEntry) :
    (e.withRing a).emplace tid entry = (e.emplace tid entry).withRing a := by
  cases found : e.inFlight tid with
  | some other => simp only [emplace, withRing, found]
  | none => simp only [emplace, withRing, found]

/-- A write does not look at the ring. -/
theorem writeRequest_withRing (channel : Option Channel) (req : ModbusRequest) (linkId : UInt32) :
    (e.withRing a).writeRequest channel req linkId = { e.writeRequest channel req linkId with
      engine := (e.writeRequest channel req linkId).engine.withRing a } := by
  cases channel with
  | none => rfl
  | some channel =>
    have transport : (e.withRing a).transport = e.transport := rfl
    have allocator : (e.withRing a).txIdAllocator = e.txIdAllocator := rfl
    simp only [writeRequest, transport, allocator]
    split
    · split
      · rfl
      · have registered := emplace_withRing (e := { e with txIdAllocator := e.txIdAllocator.allocate.2 }) (a := a)
          e.txIdAllocator.allocate.1 ⟨linkId, req.slaveAddress⟩
        simp only [withRing] at registered ⊢
        rw [registered]
        exact handOver_withRing channel _
    · exact handOver_withRing channel req

/-- Nor does a frame that has been cut off. -/
theorem onFrame_withRing (frame : List UInt8) :
    (e.withRing a).onFrame frame = ((e.onFrame frame).1.withRing a, (e.onFrame frame).2) := by
  have transport : (e.withRing a).transport = e.transport := rfl
  have inFlight : (e.withRing a).inFlight = e.inFlight := rfl
  simp only [onFrame, transport, inFlight]
  split
  · rfl
  · split
    · split <;> rfl
    · rfl

theorem frames_withRing (frames : List (List UInt8)) :
    Runs.run onFrame (e.withRing a) frames = (Runs.run onFrame e frames).withRing a ∧
      Runs.outputs onFrame (e.withRing a) frames = Runs.outputs onFrame e frames := by
  induction frames generalizing e with
  | nil => exact ⟨rfl, rfl⟩
  | cons frame frames ih =>
    obtain ⟨engine, signals⟩ := ih (e := (e.onFrame frame).1)
    rw [Runs.run, Runs.run, Runs.outputs, Runs.outputs, onFrame_withRing]
    exact ⟨engine, congrArg _ signals⟩

/-- The ring and the rest of the engine, told apart. -/
theorem step_withRing (event : EngineEvent) : (e.withRing a).step event =
    ((e.handle (carry e.transport a event).2 event).1.withRing (carry e.transport a event).1,
      (e.handle (carry e.transport a event).2 event).2) := by
  cases event with
  | write channel req linkId =>
    simp only [step, writeRequest_withRing, handle, carry]
  | bytes data =>
    cases data with
    | nil => rfl
    | cons x xs =>
      obtain ⟨engine, signals⟩ := frames_withRing (e := e) (a := (feeding (e.transport = .tcp) a (x :: xs)).1)
        (feeding (e.transport = .tcp) a (x :: xs)).2
      exact Prod.ext engine (congrArg (List.map EngineOutput.signal) signals)
  | connectionChanged connected => cases connected <;> rfl

theorem transport_frames (frames : List (List UInt8)) : (Runs.run onFrame e frames).transport = e.transport := by
  induction frames generalizing e with
  | nil => rfl
  | cons frame frames ih => exact ih.trans transport_onFrame

theorem transport_handle (frames : List (List UInt8)) (event : EngineEvent) :
    (e.handle frames event).1.transport = e.transport := by
  cases event with
  | write channel req linkId => exact transport_writeRequest channel
  | bytes data => exact transport_frames frames
  | connectionChanged connected => exact transport_onConnectionChanged connected

theorem carry_twinned {transport : Transport} {R : ModbusStreamAccumulator → ModbusStreamAccumulator → Prop}
    (twinned : Twinned (transport = .tcp) R) (related : R a b) (event : EngineEvent) :
    (carry transport a event).2 = (carry transport b event).2 ∧
      R (carry transport a event).1 (carry transport b event).1 := by
  cases event with
  | bytes data => exact twinned.feeding related data
  | _ => exact ⟨rfl, related⟩

/-- Engines that differ in twinned rings cannot be told apart. -/
theorem outputs_twinned {R : ModbusStreamAccumulator → ModbusStreamAccumulator → Prop}
    (twinned : Twinned (e.transport = .tcp) R) (related : R a b) (events : List EngineEvent) :
    Runs.outputs step (e.withRing a) events = Runs.outputs step (e.withRing b) events := by
  induction events generalizing e a b with
  | nil => rfl
  | cons event events ih =>
    obtain ⟨frames, rings⟩ := carry_twinned twinned related event
    rw [Runs.outputs, Runs.outputs, step_withRing, step_withRing, ← frames]
    refine congrArg _ (ih ?_ rings)
    rwa [transport_handle]

end WithRing

section Sufficiency
variable {e : ModbusEngine} {a : ModbusStreamAccumulator}

theorem onConnectionChanged_lost (e : ModbusEngine) :
    e.onConnectionChanged false = withRing { transport := e.transport } e.accumulator := rfl

theorem Drained.same (drained : e.Drained) (sound : e.accumulator.Sound) : SameBytes e.accumulator {} :=
  ⟨sound, sound_empty, drained.empty, sound.drained drained.empty,
    fun i inside => absurd (drained.empty ▸ inside) (Nat.not_lt_zero i)⟩

theorem Drained.aligned (drained : e.Drained) (sound : e.accumulator.Sound) (tcp : e.transport = .tcp) :
    Aligned e.accumulator {} := by
  obtain ⟨start, plain⟩ := drained.wound tcp
  refine ⟨drained.same sound, start, fun k inside => Or.inr ?_⟩
  by_cases first : k < 7
  · exact Or.inr ⟨first, start, drained.empty ▸ Nat.zero_le k⟩
  · exact Or.inl ⟨Nat.le_of_not_lt first, plain k (Nat.le_of_not_lt first) inside, (by decide : flagged 0 = false)⟩

/-- With nothing left in the ring the writes come out alike as well. -/
theorem Drained.outputs (drained : e.Drained) (sound : e.accumulator.Sound) (later : List EngineEvent) :
    Runs.outputs step (e.onConnectionChanged false) later = Runs.outputs step { transport := e.transport } later := by
  rw [onConnectionChanged_lost]
  cases transport : e.transport with
  | tcp =>
    exact outputs_twinned (e := { transport := .tcp }) (b := {}) twinned_tcp (drained.aligned sound transport) later
  | rtu => exact outputs_twinned (e := { transport := .rtu }) (b := {}) twinned_serial (drained.same sound) later

end Sufficiency

/-- What an engine without requests says of a frame. -/
def heard (transport : Transport) (frame : List UInt8) : List EngineSignal :=
  (({ transport := transport } : ModbusEngine).onFrame frame).2

def unitOffset (transport : Transport) : Nat := if transport = .tcp then 6 else 0

/-- The exception a unit answers with. -/
def exceptionFrame (transport : Transport) (unit : UInt8) : List UInt8 :=
  if transport = .tcp then [0, 0, 0, 0, 0, 3, unit, 0x83, 0x02] else withCrc [unit, 0x83, 0x02]

theorem length_exceptionFrame (transport : Transport) (unit : UInt8) :
    (exceptionFrame transport unit).length = exceptionLength (transport = .tcp) := by
  cases transport <;> rfl

theorem unitOffset_lt (transport : Transport) : unitOffset transport < exceptionLength (transport = .tcp) ∧
    unitOffset transport ≤ headerLength (transport = .tcp) ∧ exceptionLength (transport = .tcp) ≤ 9 := by
  cases transport <;> decide

section Heard
variable {transport : Transport} {a : ModbusStreamAccumulator} {frame : List UInt8}

theorem slaveAddress_readData {head resp : ModbusResponse} {byteCount : Nat} {data : List UInt8}
    (parsed : readData head byteCount data = some resp) : resp.slaveAddress = head.slaveAddress := by
  unfold readData at parsed
  split at parsed
  · rw [← Option.some.inj parsed]
  · split at parsed
    · cases parsed
    · rw [← Option.some.inj parsed]

theorem slaveAddress_tcp {resp : ModbusResponse} (parsed : parseTcpResponse frame = some resp) :
    resp.slaveAddress = frame.getD 6 0 := by
  simp only [parseTcpResponse, Option.ite_none_left_eq_some] at parsed
  obtain ⟨-, -, -, parsed⟩ := parsed
  split at parsed
  · rw [← Option.some.inj (Option.ite_none_left_eq_some.mp parsed).2]
  · split at parsed
    · exact slaveAddress_readData (Option.ite_none_left_eq_some.mp parsed).2
    · split at parsed
      · rw [← Option.some.inj (Option.ite_none_left_eq_some.mp parsed).2]
      · obtain ⟨-, answer⟩ := Option.ite_none_right_eq_some.mp parsed
        rw [← Option.some.inj (Option.ite_none_left_eq_some.mp answer).2]

theorem slaveAddress_rtu {resp : ModbusResponse} (parsed : parseRtuResponse frame = some resp) :
    resp.slaveAddress = frame.getD 0 0 := by
  simp only [parseRtuResponse, Option.ite_none_left_eq_some] at parsed
  obtain ⟨-, parsed⟩ := parsed
  split at parsed
  · rw [← Option.some.inj (Option.ite_none_left_eq_some.mp parsed).2]
  · split at parsed
    · exact slaveAddress_readData (Option.ite_none_left_eq_some.mp parsed).2
    · split at parsed
      · rw [← Option.some.inj (Option.ite_none_left_eq_some.mp parsed).2]
      · obtain ⟨-, answer⟩ := Option.ite_none_right_eq_some.mp parsed
        rw [← Option.some.inj (Option.ite_none_left_eq_some.mp answer).2]

theorem onFrame_idle : (withRing { transport := transport } a).onFrame frame =
    (withRing { transport := transport } a, heard transport frame) := by
  have unmoved : (({ transport := transport } : ModbusEngine).onFrame frame).1 = { transport := transport } := by
    simp only [onFrame]
    split
    · rfl
    · split <;> rfl
  rw [onFrame_withRing, unmoved]
  rfl

/-- A frame is never passed over, and what is said first names its unit or none. -/
theorem heard_first (transport : Transport) (frame : List UInt8) : ∃ first rest, heard transport frame = first :: rest ∧
    (first.slave = 0 ∨ first.slave = frame.getD (unitOffset transport) 0) := by
  cases transport with
  | tcp =>
    cases parsed : parseTcpResponse frame with
    | none => exact ⟨.frameError 0 0 .malformed, [], by simp only [heard, onFrame, if_true, parsed], Or.inl rfl⟩
    | some resp =>
      exact ⟨.frameError 0 resp.slaveAddress .spurious, [], by simp only [heard, onFrame, if_true, parsed],
        Or.inr (slaveAddress_tcp parsed)⟩
  | rtu =>
    cases parsed : parseRtuResponse frame with
    | none => exact ⟨.frameError 0 0 .malformed, [], by simp [heard, onFrame, parsed], Or.inl rfl⟩
    | some resp =>
      have reported : heard .rtu frame = reportResponse 0 resp.slaveAddress resp := by simp [heard, onFrame, parsed]
      rw [reported, reportResponse]
      split
      · exact ⟨_, _, rfl, Or.inr (slaveAddress_rtu parsed)⟩
      · exact ⟨_, _, rfl, Or.inr (slaveAddress_rtu parsed)⟩

theorem frames_idle (transport : Transport) (frames : List (List UInt8)) :
    Runs.run onFrame ({ transport := transport } : ModbusEngine) frames = { transport := transport } ∧
      Runs.outputs onFrame ({ transport := transport } : ModbusEngine) frames = frames.flatMap (heard transport) := by
  induction frames with
  | nil => exact ⟨rfl, rfl⟩
  | cons frame frames ih =>
    have idle : ({ transport := transport } : ModbusEngine).onFrame frame =
        ({ transport := transport }, heard transport frame) :=
      onFrame_idle (a := {})
    rw [Runs.run, Runs.outputs, idle, List.flatMap_cons]
    exact ⟨ih.1, congrArg _ ih.2⟩

/-- Chunks of bytes alone, with no request in flight. -/
theorem outputs_idle (transport : Transport) (a : ModbusStreamAccumulator) (chunks : List (List UInt8)) :
    Runs.outputs step (withRing { transport := transport } a) (chunks.map .bytes) =
      ((Runs.outputs (feeding (transport = .tcp)) a chunks).flatMap (heard transport)).map .signal := by
  induction chunks generalizing a with
  | nil => rfl
  | cons data chunks ih =>
    obtain ⟨engine, signals⟩ := frames_idle transport (feeding (transport = .tcp) a data).2
    have stepped : step (withRing { transport := transport } a) (.bytes data) =
        (withRing { transport := transport } (feeding (transport = .tcp) a data).1,
          ((feeding (transport = .tcp) a data).2.flatMap (heard transport)).map .signal) := by
      rw [step_withRing]
      simp only [handle, carry, engine, signals]
    rw [List.map_cons, Runs.outputs, Runs.outputs, stepped, ih, List.flatMap_append, List.map_append]

end Heard

/-- The ring has the same things said of every sequence of chunks as an empty one. -/
def Alike (transport : Transport) (a : ModbusStreamAccumulator) : Prop :=
  ∀ chunks : List (List UInt8), (Runs.outputs (feeding (transport = .tcp)) a chunks).flatMap (heard transport) =
    (Runs.outputs (feeding (transport = .tcp)) {} chunks).flatMap (heard transport)

section Necessity
variable {transport : Transport} {a : ModbusStreamAccumulator} {e : ModbusEngine}

theorem Reborn.alike (reborn : e.Reborn) : Alike e.transport e.accumulator := by
  intro chunks
  have said : ∀ signals : List EngineSignal, EngineOutput.signals (signals.map .signal) = signals := by
    intro signals
    rw [EngineOutput.signals, List.filterMap_map]
    exact List.filterMap_some
  have same := reborn (chunks.map .bytes) fun event member => by
    obtain ⟨data, -, rfl⟩ := List.mem_map.mp member
    trivial
  have fresh := outputs_idle e.transport {} chunks
  rw [onConnectionChanged_lost, outputs_idle, said] at same
  rw [same]
  exact (congrArg EngineOutput.signals fresh).trans (said _)

theorem silent_iff (transport : Transport) (frames : List (List UInt8)) : frames.flatMap (heard transport) =
    [] ↔ frames = [] := by
  cases frames with
  | nil => simp
  | cons frame frames =>
    obtain ⟨first, rest, said, -⟩ := heard_first transport frame
    simp [said]

/-- The byte at the place of the unit is an old one, or one that every exception has. -/
theorem unit_old (transport : Transport) (sound : a.Sound) (left : a.size ≠ 0) :
    (a.append (exceptionFrame transport 1)).peek (unitOffset transport) =
      (a.append (exceptionFrame transport 2)).peek (unitOffset transport) := by
  have agree : ∀ i < unitOffset transport,
      (exceptionFrame transport 1).getD i 0 = (exceptionFrame transport 2).getD i 0 := by
    cases transport with
    | tcp => decide
    | rtu => exact fun i inside => absurd inside (Nat.not_lt_zero i)
  have bound := sound.size
  have long := unitOffset_lt transport
  have inside : ∀ unit, unitOffset transport < (a.append (exceptionFrame transport unit)).size := by
    intro unit
    have written := length_exceptionFrame transport unit
    have nonempty : exceptionFrame transport unit ≠ [] := List.ne_nil_of_length_pos (by omega)
    rw [append_size, if_neg nonempty, written]
    unfold capacity
    omega
  rw [peek_append sound (inside 1), peek_append sound (inside 2), length_exceptionFrame, length_exceptionFrame]
  split
  · rfl
  · apply agree
    unfold capacity at *
    omega

/-- With bytes left in the ring the first thing said is not about the unit that answers. -/
theorem Alike.empty (alike : Alike transport a) (sound : a.Sound) : a.size = 0 := by
  by_contra left
  have names : ∀ unit : UInt8, unit = 1 ∨ unit = 2 →
      (a.append (exceptionFrame transport unit)).peek (unitOffset transport) = unit := by
    intro unit which
    have said := alike [exceptionFrame transport unit]
    have fresh : ((Runs.outputs (feeding (transport = .tcp)) {} [exceptionFrame transport unit]).flatMap
        (heard transport)).head?.map EngineSignal.slave = some unit := by
      cases transport <;> rcases which with rfl | rfl <;> decide +kernel
    have nonzero : unit ≠ 0 := by rcases which with rfl | rfl <;> decide
    have fed : Runs.outputs (feeding (transport = .tcp)) a [exceptionFrame transport unit] =
        ((a.append (exceptionFrame transport unit)).extractFrames (transport = .tcp)).2 := by
      cases transport <;> exact List.append_nil _
    rw [← said, fed] at fresh
    cases cutOff : ((a.append (exceptionFrame transport unit)).extractFrames (transport = .tcp)).2 with
    | nil =>
      rw [cutOff] at fresh
      cases fresh
    | cons frame rest =>
      obtain ⟨n, long, rfl⟩ := first_frame cutOff
      obtain ⟨first, others, heard, slave⟩ :=
        heard_first transport ((List.range n).map (a.append (exceptionFrame transport unit)).peek)
      rw [cutOff, List.flatMap_cons, heard] at fresh
      have named : first.slave = unit := Option.some.inj fresh
      have inside : unitOffset transport < n := Nat.lt_of_le_of_lt (unitOffset_lt transport).2.1 long
      rw [named, List.getD_eq_getElem?_getD, List.getElem?_map, List.getElem?_range inside] at slave
      exact (slave.resolve_left nonzero).symm
  have same := unit_old transport sound left
  rw [names 1 (Or.inl rfl), names 2 (Or.inr rfl)] at same
  exact absurd same (by decide)

/-- A ring that has the same things said of everything as an empty one has nothing left. -/
theorem Alike.drained (alike : Alike e.transport e.accumulator) (sound : e.accumulator.Sound) : e.Drained := by
  refine ⟨alike.empty sound, fun tcp => wound_back sound (alike.empty sound) fun chunks => ?_⟩
  have same := alike chunks
  rw [tcp] at same
  rw [← silent_iff .tcp, ← silent_iff .tcp]
  exact Eq.congr_left same

end Necessity

section Reach
variable {e : ModbusEngine}

/-- Only bytes touch the ring. -/
theorem ring_step (e : ModbusEngine) (event : EngineEvent) :
    (e.step event).1.accumulator = (carry e.transport e.accumulator event).1 :=
  congrArg (fun x : ModbusEngine × List EngineOutput => x.1.accumulator)
    (step_withRing (e := e) (a := e.accumulator) event)

theorem reached_ring (transport : Transport) (history : List EngineEvent) :
    (Runs.run step { transport := transport } history).accumulator.Sound := by
  refine Runs.reached_always step history (I := fun e => e.accumulator.Sound) sound_empty (fun e event sound => ?_) _
    Runs.run_mem_reached
  rw [ring_step]
  cases event with
  | bytes data => exact sound.feeding _ data
  | _ => exact sound

end Reach

/-- After a lost connection the engine is as good as new exactly when nothing was left in the ring. -/
theorem reconnect_iff (transport : Transport) (history : List EngineEvent) :
    (Runs.run step { transport := transport } history).Reborn ↔
      (Runs.run step { transport := transport } history).Drained := by
  have sound := reached_ring transport history
  constructor
  · intro reborn
    exact reborn.alike.drained sound
  · intro drained later _
    exact congrArg EngineOutput.signals (drained.outputs sound later)

/-- A connection is lost in the middle of a frame; the next one begins with an exception, which
is not heard, since the old bytes are still in front of it. -/
theorem reconnect_fails :
    ¬(Runs.run step { transport := .tcp } [.bytes [0, 1, 0, 0, 0], .connectionChanged true]).Reborn := by
  intro reborn
  have same := reborn [.bytes (exceptionFrame .tcp 1)] fun event member => by
    rw [List.mem_singleton.mp member]
    trivial
  exact absurd same (by decide +kernel)

end ModbusEngine
end EnerSentry.Protocol
