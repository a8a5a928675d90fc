import EnerSentry.Sim.RemoteSession

/-!
What a master that has written may rely on: until somebody writes one of the cells again, or the
registers of the slave are published anew, every reader finds the values it wrote.
-/

namespace EnerSentry.Sim
open EnerSentry.Lib EnerSentry.Lib.CellMemory EnerSentry.Lib.Packing EnerSentry.Protocol

/-- A range of cells of one slave. -/
structure CellRange where
  slave : UInt8
  area : RegisterType
  addr : Nat
  count : Nat
  deriving DecidableEq, Repr

namespace SlaveCommand

def writes : SlaveCommand → Bool
  | .read _ _ _ => false
  | _ => true

/-- The cells a command addresses. -/
def range (slave : UInt8) : SlaveCommand → CellRange
  | .read fc addr qty => ⟨slave, areaOf fc, addr.toNat, qty.toNat⟩
  | .writeCoil addr _ => ⟨slave, .coil, addr.toNat, 1⟩
  | .writeRegister addr _ => ⟨slave, .holdingRegister, addr.toNat, 1⟩
  | .writeCoils addr _ bits => ⟨slave, .coil, addr.toNat, bits.length⟩
  | .writeRegisters addr _ words => ⟨slave, .holdingRegister, addr.toNat, words.length⟩

/-- The values a command writes. -/
def values : SlaveCommand → List UInt16
  | .read _ _ _ => []
  | .writeCoil _ val => [bitWord (val == 0xFF00)]
  | .writeRegister _ val => [val]
  | .writeCoils _ _ bits => bits.map bitWord
  | .writeRegisters _ _ words => words

end SlaveCommand

namespace CellRange

/-- No cell is in both. -/
def Apart (x y : CellRange) : Prop :=
  x.slave ≠ y.slave ∨ x.area ≠ y.area ∨ x.addr + x.count ≤ y.addr ∨ y.addr + y.count ≤ x.addr

/-- Every cell of the one is a cell of the other. -/
def Within (x y : CellRange) : Prop :=
  x.slave = y.slave ∧ x.area = y.area ∧ y.addr ≤ x.addr ∧ x.addr + x.count ≤ y.addr + y.count

end CellRange

/-- The cells that a request of the application addresses. -/
def requestRange (req : ModbusRequest) : CellRange := (commandOf req).range req.slaveAddress

/-- The event changes no cell of a range. -/
def RemoteEvent.Spares (x : CellRange) : RemoteEvent → Prop
  | .request req => (commandOf req).writes = true → (requestRange req).Apart x
  | .publish slave _ => slave ≠ x.slave

/-- The cells of a range hold these values. -/
def RemoteDevice.Holds (d : RemoteDevice) (x : CellRange) (values : List UInt16) : Prop :=
  ∃ m, d x.slave = some m ∧ ∀ i < x.count, m x.area (x.addr + i) = values[i]?

section Abstract
variable {m : RemoteMemory} {d : RemoteDevice} {x : CellRange} {values : List UInt16} {c : SlaveCommand}

/-- A write puts its values into its range or is refused. -/
theorem obey_write (slave : UInt8) (write : c.writes = true) :
    m.obey c = RemoteMemory.saved m (m.save (c.range slave).area (c.range slave).addr c.values) := by
  cases c with
  | read fc addr qty => cases write
  | _ => rfl

theorem length_values (slave : UInt8) (write : c.writes = true) : c.values.length = (c.range slave).count := by
  cases c with
  | read fc addr qty => cases write
  | writeCoils addr qty bits => exact List.length_map _
  | _ => rfl

theorem range_slave (c : SlaveCommand) (slave : UInt8) : (c.range slave).slave = slave := by
  cases c <;> rfl

theorem obey_read (plain : c.writes = false) : (m.obey c).1 = m := by
  cases c with
  | read fc addr qty =>
    rw [RemoteMemory.obey]
    split <;> rfl
  | _ => cases plain

/-- A command on other cells leaves a range as it is. -/
theorem obey_apart (spares : c.writes = true → (c.range x.slave).Apart x) {i : Nat} (inside : i < x.count) :
    (m.obey c).1 x.area (x.addr + i) = m x.area (x.addr + i) := by
  cases write : c.writes with
  | true =>
    have apart : Memory.Apart (c.range x.slave).area (c.range x.slave).addr c.values.length x.area (x.addr + i) := by
      rw [length_values x.slave write]
      obtain other | area | before | behind := spares write
      · exact absurd (range_slave c x.slave) other
      · exact Or.inl (Ne.symm area)
      · exact Or.inr (Or.inr (by omega))
      · exact Or.inr (Or.inl (by omega))
    rw [obey_write x.slave write, Memory.save]
    split
    · exact Memory.put_apart apart
    · rfl
  | false => rw [obey_read write]

variable {slaves : List UInt8} {event : RemoteEvent}

/-- A range keeps its values through an event that spares it. -/
theorem holds_step (holds : d.Holds x values) (spares : event.Spares x) :
    (deviceStep slaves d event).1.Holds x values := by
  obtain ⟨m, held, cells⟩ := holds
  cases event with
  | publish slave regs =>
    have other : x.slave ≠ slave := Ne.symm spares
    refine ⟨m, ?_, cells⟩
    simp only [deviceStep]
    split
    · rw [Function.update_of_ne other, held]
    · exact held
  | request req =>
    simp only [deviceStep, RemoteDevice.obey]
    cases there : d req.slaveAddress with
    | none => exact ⟨m, held, cells⟩
    | some n =>
      by_cases same : x.slave = req.slaveAddress
      · have asked : (commandOf req).writes = true → ((commandOf req).range x.slave).Apart x := by
          rw [same]
          exact spares
        have known : n = m := Option.some.inj (there.symm.trans (same ▸ held))
        refine ⟨(n.obey (commandOf req)).1, ?_, fun i inside => ?_⟩
        · simp only
          rw [same, Function.update_self]
        · rw [obey_apart asked inside, known, cells i inside]
      · refine ⟨m, ?_, cells⟩
        simp only
        rw [Function.update_of_ne same, held]

/-- A write that is carried out leaves its values in its range. -/
theorem holds_stored (slaves : List UInt8) {req : ModbusRequest} (write : (commandOf req).writes = true)
    (stored : (d.obey req.slaveAddress (commandOf req)).2 = .stored) :
    (deviceStep slaves d (.request req)).1.Holds (requestRange req) (commandOf req).values := by
  have named : (requestRange req).slave = req.slaveAddress := range_slave _ _
  rw [RemoteDevice.obey] at stored
  simp only [deviceStep, RemoteDevice.obey, RemoteDevice.Holds, named]
  cases there : d req.slaveAddress with
  | none =>
    rw [there] at stored
    cases stored
  | some m =>
    rw [there] at stored
    simp only [obey_write req.slaveAddress write, Memory.save, Function.update_self] at stored ⊢
    split at stored
    · rename_i covered
      rw [if_pos covered]
      refine ⟨_, rfl, fun i inside => ?_⟩
      have counted : i < (commandOf req).values.length := by
        rw [length_values req.slaveAddress write]
        exact inside
      rw [List.getElem?_eq_getElem counted]
      exact Memory.put_inside counted
    · cases stored

/-- A read within a range that holds values gets its part of them. -/
theorem answer_held {req : ModbusRequest} (plain : (commandOf req).writes = false)
    (within : (requestRange req).Within x) (counted : values.length = x.count) (holds : d.Holds x values) :
    (d.obey req.slaveAddress (commandOf req)).2 =
      .cells ((values.drop ((requestRange req).addr - x.addr)).take (requestRange req).count) := by
  obtain ⟨m, held, cells⟩ := holds
  obtain ⟨slave, area, low, high⟩ := within
  have named : req.slaveAddress = x.slave := (range_slave _ _).symm.trans slave
  have loaded : m.load (requestRange req).area (requestRange req).addr (requestRange req).count =
      some ((values.drop ((requestRange req).addr - x.addr)).take (requestRange req).count) := by
    have known : ∀ i < (requestRange req).count, m (requestRange req).area ((requestRange req).addr + i) =
        some (((values.drop ((requestRange req).addr - x.addr)).take (requestRange req).count).getD i 0) := by
      intro i inside
      have place : (requestRange req).addr + i = x.addr + ((requestRange req).addr - x.addr + i) := by omega
      have there : (requestRange req).addr - x.addr + i < values.length := by omega
      rw [area, place, cells _ (by omega), List.getD_eq_getElem?_getD, List.getElem?_take_of_lt inside,
        List.getElem?_drop, List.getElem?_eq_getElem there, Option.getD_some]
    rw [Memory.load_of_cells known]
    congr 1
    apply List.ext_getElem
    · simp
      omega
    · intro i short inside
      rw [List.getElem_map, List.getElem_range, List.getD_eq_getElem _ _ inside]
  rw [RemoteDevice.obey, named, held]
  unfold requestRange at loaded ⊢
  cases asked : commandOf req with
  | read fc addr qty =>
    rw [asked] at loaded
    simp only [RemoteMemory.obey]
    rw [SlaveCommand.range] at loaded ⊢
    rw [loaded]
  | _ =>
    rw [asked] at plain
    cases plain

end Abstract

section Masters
variable {slaves : List UInt8} {bank : RegisterBank} {w r : ModbusRequest} {between : List RemoteEvent}
  {resp : ModbusResponse}

/-- An answer that is not parsed as an exception is no refusal. -/
theorem stored_of_parsed {d : RemoteDevice} (write : (commandOf w).writes = true)
    (good : ((d.obey w.slaveAddress (commandOf w)).2.response w).isException = false) :
    (d.obey w.slaveAddress (commandOf w)).2 = .stored := by
  rw [RemoteDevice.obey] at good ⊢
  cases there : d w.slaveAddress with
  | none =>
    rw [there] at good
    cases good
  | some m =>
    rw [there] at good
    simp only [obey_write w.slaveAddress write, Memory.save] at good ⊢
    split at good
    · rename_i covered
      rw [if_pos covered]
      rfl
    · cases good

/-- After a write that was not refused, and any events that spare its cells, a read of some of them
brings the values that were written. -/
theorem read_your_writes (w r : ModbusRequest) (between : List RemoteEvent) (addressable : bank.Addressable)
    (admissible : ∀ e ∈ .request w :: (between ++ [.request r]), e.Admissible)
    (write : (commandOf w).writes = true) (plain : (commandOf r).writes = false)
    (within : (requestRange r).Within (requestRange w))
    (reply : (remoteStep slaves bank (.request w)).2 = [some resp]) (good : resp.isException = false)
    (spared : ∀ e ∈ between, e.Spares (requestRange w)) :
    (remoteStep slaves (Runs.run (remoteStep slaves) bank (.request w :: between)) (.request r)).2 =
      [some (Answer.response r (.cells (((commandOf w).values.drop ((requestRange r).addr - (requestRange w).addr)).take
        (requestRange r).count)))] := by
  have refines := remote_refines slaves
  obtain ⟨first, others⟩ := List.forall_mem_cons.mp admissible
  obtain ⟨middle, last⟩ := List.forall_mem_append.mp others
  have before : ∀ e ∈ .request w :: between, e.Admissible := List.forall_mem_cons.mpr ⟨first, middle⟩
  obtain ⟨fits, state, -⟩ := refines.run_refined addressable before
  rw [refines.outputs _ _ fits (last _ (List.mem_singleton.mpr rfl)), state]
  have parsed := refines.outputs bank (.request w) addressable first
  have same := Option.some.inj (List.head_eq_of_cons_eq (reply.symm.trans parsed))
  have stored := stored_of_parsed (d := bank.image slaves) write (same ▸ good)
  have start := holds_stored slaves write stored
  have kept := Runs.reached_invariant (deviceStep slaves) between
    (I := fun d => d.Holds (requestRange w) (commandOf w).values) (A := fun _ e => e.Spares (requestRange w))
    start (fun d e holds spares => holds_step holds spares)
    (fun v visited => spared _ (Runs.visits_map_snd (deviceStep slaves) _ between ▸
      List.mem_map_of_mem visited)) _ Runs.run_mem_reached
  have answer := answer_held plain within (length_values w.slaveAddress write) kept
  simp only [deviceStep, Runs.run] at answer ⊢
  rw [answer]

/-- A write of registers 1 and 2, one of register 3, and a read of register 2. -/
def writePair : ModbusRequest := ⟨.tcp, 7, 1, 0x10, 1, 2, [0x1234, 0xABCD], []⟩

def writeBehind : ModbusRequest := ⟨.tcp, 8, 1, 0x06, 3, 1, [9], []⟩

def readSecond : ModbusRequest := ⟨.tcp, 9, 1, 0x03, 2, 1, [], []⟩

theorem written_writePair : (remoteStep [1] fourRegisters (.request writePair)).2 =
    [some (Answer.stored.response writePair)] := by
  decide +kernel

theorem read_your_writes_second :
    (remoteStep [1] (Runs.run (remoteStep [1]) fourRegisters [.request writePair, .request writeBehind])
      (.request readSecond)).2 = [some (Answer.response readSecond (.cells [0xABCD]))] :=
  read_your_writes writePair readSecond [.request writeBehind] addressable_fourRegisters
    (by
      intro e member
      simp only [List.cons_append, List.nil_append, List.mem_cons, List.not_mem_nil, or_false] at member
      rcases member with rfl | rfl | rfl <;> exact ⟨by decide, by decide⟩)
    rfl rfl ⟨rfl, rfl, by decide, by decide⟩ written_writePair rfl
    (by
      intro e member
      rw [List.mem_singleton.mp member]
      exact fun _ => Or.inr (Or.inr (Or.inr (by decide))))

end Masters
end EnerSentry.Sim
