import EnerSentry.Protocol.WriteRequest

/-!
Requests and responses over TCP. A monitor keeps, for each transaction id, the write that
was given it and whose frame went to the channel, until a response with this id is parsed or
the connection is lost. The in-flight table and the marks of the allocator say the same,
unless a write of the other transport takes back an id that it never had.
-/

namespace EnerSentry.Protocol
open EnerSentry.Lib

/-- What reaches the engine from above and from its channel. -/
inductive EngineEvent where
  | write (channel : Option Channel) (req : ModbusRequest) (linkId : UInt32)
  | bytes (data : List UInt8)
  | connectionChanged (connected : Bool)

inductive EngineOutput where
  | wrote (result : Int) (handed : Option ModbusRequest)
  | signal (s : EngineSignal)
  deriving DecidableEq, Repr

/-- The writes that the ids in use belong to. -/
abbrev Owners := UInt16 → Option InFlightEntry

def Owners.settle (o : Owners) (frame : List UInt8) : Owners :=
  match parseTcpResponse frame with
  | none => o
  | some resp => Function.update o resp.transactionId none

def EngineSignal.isResponse : EngineSignal → Bool
  | responseParsed .. => true
  | frameError .. => false

namespace ModbusEngine

def step : Runs.Step ModbusEngine EngineEvent EngineOutput := fun e event =>
  match event with
  | .write channel req linkId =>
      let w := e.writeRequest channel req linkId
      (w.engine, [.wrote w.result w.handed])
  | .bytes data =>
      let r := e.onBytesReceived data
      (r.1, r.2.map .signal)
  | .connectionChanged connected => (e.onConnectionChanged connected, [])

def trackOwners (e : ModbusEngine) (o : Owners) (event : EngineEvent) (outputs : List EngineOutput) : Owners :=
  match event with
  | .write _ req linkId =>
      match outputs with
      | [.wrote _ (some sent)] =>
          if e.transport = .tcp ∧ req.transport = .tcp then
            Function.update o sent.transactionId (some ⟨linkId, req.slaveAddress⟩)
          else o
      | _ => o
  | .bytes data => (e.receive data).2.foldl Owners.settle o
  | .connectionChanged connected => if connected then o else fun _ => none

def owning : Runs.Step (ModbusEngine × Owners) EngineEvent EngineOutput := Runs.watch step trackOwners

/-- The table has the ids in use, 0 is none of them, and each has the write it was given to. -/
structure Paired (x : ModbusEngine × Owners) : Prop where
  tcp : x.1.transport = .tcp
  keys : ∀ id, x.1.txIdAllocator.used id = (x.1.inFlight id).isSome
  nonzero : x.1.inFlight 0 = none
  owners : x.1.inFlight = x.2

/-- A parsed frame with an id of the table is reported once, under that entry, and frees the
id; any other parsed frame is an error and nothing else. -/
structure Routes (e : ModbusEngine) (frame : List UInt8) (resp : ModbusResponse) : Prop where
  hit : ∀ entry, e.inFlight resp.transactionId = some entry →
    (e.onFrame frame).2.filter EngineSignal.isResponse = [.responseParsed entry.linkId entry.slaveAddress resp] ∧
      (e.onFrame frame).1.inFlight = Function.update e.inFlight resp.transactionId none ∧
      (e.onFrame frame).1.txIdAllocator.used = Function.update e.txIdAllocator.used resp.transactionId false
  miss : e.inFlight resp.transactionId = none → e.onFrame frame = (e, [.frameError 0 resp.slaveAddress .spurious])

/-- Every parsed frame of a chunk of bytes is routed by the table as it is when its turn comes. -/
def RoutesAll (e : ModbusEngine) : EngineEvent → Prop
  | .bytes data => ∀ w ∈ Runs.visits onFrame (e.receive data).1 (e.receive data).2,
      ∀ resp, parseTcpResponse w.2 = some resp → w.1.Routes w.2 resp
  | _ => True

/-- A write that takes no id and cannot be built names none that is in flight. -/
def Spares (e : ModbusEngine) : EngineEvent → Prop
  | .write (some _) req _ =>
      ¬e.Pairs req → ¬req.Buildable → req.transactionId ≠ 0 → e.inFlight req.transactionId = none
  | _ => True

section Steps

theorem update_none {o : Owners} {tid : UInt16} (unowned : o tid = none) : Function.update o tid none = o := by
  rw [← unowned, Function.update_eq_self]

variable {e : ModbusEngine} {o : Owners} {entry : InFlightEntry} {tid : UInt16} {frame : List UInt8}

theorem register_of_free (free : e.inFlight tid = none) : e.register tid entry =
    { e with txIdAllocator := e.txIdAllocator.mark tid, inFlight := Function.update e.inFlight tid (some entry) } := by
  simp only [register, emplace, free]

theorem Paired.free (paired : Paired (e, o)) (unused : e.txIdAllocator.used tid = false) : e.inFlight tid = none := by
  have key := paired.keys tid
  rw [unused] at key
  exact Option.not_isSome_iff_eq_none.mp (by rw [← key]; decide)

theorem Paired.unused (paired : Paired (e, o)) (free : e.inFlight tid = none) : e.txIdAllocator.used tid = false := by
  have key := paired.keys tid
  rwa [free] at key

/-- Every id but 0 loses its mark with its entry; 0 has none. -/
theorem Paired.used_forget (paired : Paired (e, o)) (tid : UInt16) :
    (e.forget tid).txIdAllocator.used = Function.update e.txIdAllocator.used tid false := by
  simp only [ModbusEngine.forget, TransactionIdAllocator.release]
  split
  · rename_i zero
    have unused : e.txIdAllocator.used tid = false := paired.unused (zero.symm ▸ paired.nonzero)
    rw [Function.update_eq_self_iff.mpr unused.symm]
  · rfl

theorem Paired.forget (paired : Paired (e, o)) (tid : UInt16) : Paired (e.forget tid, Function.update o tid none) := by
  refine ⟨paired.tcp, fun id => ?_, ?_, congrArg (fun t : Owners => Function.update t tid none) paired.owners⟩
  · have key := paired.keys id
    rw [paired.used_forget tid]
    simp only [ModbusEngine.forget]
    by_cases own : id = tid
    · subst own
      simp only [Function.update_self, Option.isSome_none]
    · simpa only [Function.update_of_ne own] using key
  · simp only [ModbusEngine.forget]
    by_cases own : 0 = tid
    · rw [own, Function.update_self]
    · rw [Function.update_of_ne own]
      exact paired.nonzero

theorem Paired.onFrame (paired : Paired (e, o)) (frame : List UInt8) : Paired
    ((e.onFrame frame).1, o.settle frame) := by
  unfold Owners.settle
  cases parsed : parseTcpResponse frame with
  | none =>
    have miss : ∀ resp, parseTcpResponse frame = some resp → e.inFlight resp.transactionId = none := by simp [parsed]
    obtain ⟨slave, kind, missed⟩ := onFrame_miss paired.tcp miss
    rw [missed]
    exact paired
  | some resp =>
    cases hit : e.inFlight resp.transactionId with
    | none =>
      have missed : ∀ r, parseTcpResponse frame = some r → e.inFlight r.transactionId = none := by
        intro r same
        rwa [← Option.some.inj (parsed.symm.trans same)]
      obtain ⟨slave, kind, missed⟩ := onFrame_miss paired.tcp missed
      have unowned : o resp.transactionId = none := (congrFun paired.owners _).symm.trans hit
      simp only [missed, update_none unowned]
      exact paired
    | some entry =>
      rw [onFrame_hit paired.tcp parsed hit]
      exact paired.forget resp.transactionId

theorem Paired.frames (paired : Paired (e, o)) (frames : List (List UInt8)) :
    Paired (Runs.run ModbusEngine.onFrame e frames, frames.foldl Owners.settle o) := by
  induction frames generalizing e o with
  | nil => exact paired
  | cons frame frames ih => exact ih (paired.onFrame frame)

/-- Bytes alone touch no table. -/
theorem Paired.receive (paired : Paired (e, o)) (data : List UInt8) : Paired ((e.receive data).1, o) := by
  have frame : (e.receive data).1.transport = e.transport ∧ (e.receive data).1.inFlight = e.inFlight ∧
      (e.receive data).1.txIdAllocator = e.txIdAllocator := by
    unfold ModbusEngine.receive
    split <;> exact ⟨rfl, rfl, rfl⟩
  obtain ⟨transport, inFlight, allocator⟩ := frame
  refine ⟨transport.trans paired.tcp, fun id => ?_, ?_, inFlight.trans paired.owners⟩
  · simp only [allocator, inFlight]
    exact paired.keys id
  · rw [inFlight]
    exact paired.nonzero

theorem responses_reportResponse (linkId : UInt32) (slave : UInt8) (resp : ModbusResponse) :
    (reportResponse linkId slave resp).filter EngineSignal.isResponse = [.responseParsed linkId slave resp] := by
  unfold reportResponse
  split <;> rfl

theorem Paired.routes (paired : Paired (e, o)) {resp : ModbusResponse} (parsed : parseTcpResponse frame = some resp) :
    e.Routes frame resp := by
  constructor
  · intro entry hit
    rw [onFrame_hit paired.tcp parsed hit]
    exact ⟨responses_reportResponse .., rfl, paired.used_forget _⟩
  · intro miss
    have tcp : e.transport = .tcp := paired.tcp
    simp only [ModbusEngine.onFrame, tcp, if_true, parsed, miss]

theorem Paired.routesAll (paired : Paired (e, o)) (event : EngineEvent) : e.RoutesAll event := by
  cases event with
  | bytes data =>
    have received := paired.receive data
    intro w visited resp parsed
    have all := Runs.reached_always ModbusEngine.onFrame (e.receive data).2
      (I := fun d => ∃ o, Paired (d, o)) ⟨o, received⟩
      (fun d frame ⟨o, paired⟩ => ⟨_, paired.onFrame frame⟩)
    obtain ⟨o', paired'⟩ := all w.1 (Runs.visit_mem_reached visited).1
    exact paired'.routes parsed
  | _ => trivial

/-- A write that is handed over under an id of its own enters both tables. -/
theorem Paired.register (paired : Paired (e, o)) (nonzero : tid ≠ 0) (unused : e.txIdAllocator.used tid = false) :
    Paired (e.register tid entry, Function.update o tid (some entry)) := by
  rw [register_of_free (paired.free unused)]
  refine ⟨paired.tcp, fun id => ?_, ?_, congrArg (fun t : Owners => Function.update t tid (some entry)) paired.owners⟩
  · have key := paired.keys id
    simp only [TransactionIdAllocator.mark]
    by_cases own : id = tid
    · subst own
      simp only [Function.update_self, Option.isSome_some]
    · simpa only [Function.update_of_ne own] using key
  · simp only [Function.update_of_ne nonzero.symm]
    exact paired.nonzero

/-- A write keeps the pairing unless it takes back the id of another one. -/
theorem Paired.write (paired : Paired (e, o)) {channel : Option Channel} {req : ModbusRequest} {linkId : UInt32}
    (spares : e.Spares (.write channel req linkId)) : Paired (owning (e, o) (.write channel req linkId)).1 := by
  have written := write_cases e channel req linkId
  simp only [owning, Runs.watch, step, trackOwners]
  generalize e.writeRequest channel req linkId = w at written
  cases written with
  | closed absent => exact paired
  | exhausted pairs full => exact paired
  | undone pairs tid nonzero unused broken =>
    have registered : Paired (e.register tid ⟨linkId, req.slaveAddress⟩,
        Function.update o tid (some ⟨linkId, req.slaveAddress⟩)) := paired.register nonzero unused
    have again := registered.forget tid
    have unowned : o tid = none := (congrFun paired.owners tid).symm.trans (paired.free unused)
    rwa [Function.update_idem, update_none unowned] at again
  | paired pairs c present tid nonzero unused built =>
    simp only [if_pos (show e.transport = .tcp ∧ req.transport = .tcp from pairs)]
    exact paired.register nonzero unused
  | dropped unpaired named broken present =>
    obtain ⟨c, rfl⟩ := Option.ne_none_iff_exists'.mp present
    have unowned : o req.transactionId = none := (congrFun paired.owners _).symm.trans (spares unpaired broken named)
    have same := paired.forget req.transactionId
    rwa [update_none unowned] at same
  | rejected unpaired unnamed broken => exact paired
  | passed unpaired c present built =>
    simp only [if_neg (show ¬(e.transport = .tcp ∧ req.transport = .tcp) from unpaired)]
    exact paired

theorem Paired.step {x : ModbusEngine × Owners} (paired : Paired x) (event : EngineEvent) (spares : x.1.Spares event) :
    Paired (owning x event).1 := by
  cases event with
  | write channel req linkId => exact paired.write spares
  | bytes data =>
    exact (paired.receive data).frames _
  | connectionChanged connected =>
    cases connected with
    | true => exact paired
    | false => exact ⟨paired.tcp, fun id => rfl, rfl, rfl⟩

end Steps

/-- A write that takes back the id of another one breaks the pairing. -/
theorem Paired.unspared {x : ModbusEngine × Owners} (paired : Paired x) {event : EngineEvent}
    (takes : ¬x.1.Spares event) : ¬Paired (owning x event).1 := by
  intro still
  cases event with
  | write channel req linkId =>
    cases channel with
    | none => exact takes trivial
    | some c =>
      simp only [Spares, Classical.not_imp] at takes
      obtain ⟨unpaired, broken, named, inFlight⟩ := takes
      have wrote := dropped_of_unpaired c linkId unpaired named broken
      have after := congrFun still.owners req.transactionId
      simp only [owning, Runs.watch, ModbusEngine.step, trackOwners, wrote, ModbusEngine.forget,
        Function.update_self] at after
      exact inFlight ((congrFun paired.owners _).trans after.symm)
  | bytes data => exact takes trivial
  | connectionChanged connected => exact takes trivial

theorem paired_start : Paired ({ transport := .tcp }, fun _ => none) := ⟨rfl, fun _ => rfl, rfl, rfl⟩

/-- Throughout a run over TCP the in-flight table, the ids in use and the writes agree, and every
parsed frame is routed by them, exactly when no write takes back the id of another one. -/
theorem transactions_iff (events : List EngineEvent) :
    ((∀ x ∈ Runs.reached owning ({ transport := .tcp }, fun _ => none) events, Paired x) ∧
      ∀ v ∈ Runs.visits owning ({ transport := .tcp }, fun _ => none) events, v.1.1.RoutesAll v.2) ↔
      ∀ v ∈ Runs.visits owning ({ transport := .tcp }, fun _ => none) events, v.1.1.Spares v.2 := by
  have exact_ := Runs.reached_iff owning events (B := fun _ => True) (J := Paired)
    (A := fun x event => x.1.Spares event)
    trivial (fun _ _ _ => trivial) paired_start (fun x paired => paired)
    (fun x event _ paired spares => paired.step event spares) (fun x event _ paired takes => paired.unspared takes)
  refine ⟨fun both => exact_.mp both.1, fun spares => ⟨exact_.mpr spares, fun v visited => ?_⟩⟩
  exact (exact_.mpr spares v.1 (Runs.visit_mem_reached visited).1).routesAll v.2

/-- A read over TCP, then a write of the other transport that names its id and cannot be built. -/
def takenBack : List EngineEvent :=
  [.write (some fun frame => frame.length)
      { transport := .tcp, slaveAddress := 1, functionCode := 3, quantity := 1 } 42,
    .write (some fun frame => frame.length) { transport := .rtu, slaveAddress := 0, transactionId := 1 } 43]

/-- The read is on its way and has lost its entry. -/
theorem transactions_fail : ¬((∀ x ∈ Runs.reached owning ({ transport := .tcp }, fun _ => none) takenBack, Paired x) ∧
    ∀ v ∈ Runs.visits owning ({ transport := .tcp }, fun _ => none) takenBack, v.1.1.RoutesAll v.2) := by
  rintro ⟨paired, -⟩
  have final := paired _ Runs.run_mem_reached
  have lost : (Runs.run owning ({ transport := .tcp }, fun _ => none) takenBack).1.inFlight 1 = none := by
    decide +kernel
  have owned : (Runs.run owning ({ transport := .tcp }, fun _ => none) takenBack).2 1 = some ⟨42, 1⟩ := by
    decide +kernel
  exact absurd (lost.symm.trans ((congrFun final.owners 1).trans owned)) (by decide)

end ModbusEngine
end EnerSentry.Protocol
