import EnerSentry.Sim.RemoteMemory

/-!
The request handler of the slave emulator. Both transports hand it a unit id and a request; it serves
the unit's registers from the bank and answers for a unit that is not there. Seen from the masters the
bank is a device: one memory for each unit.
-/

namespace EnerSentry.Sim
open EnerSentry.Lib.CellMemory EnerSentry.Lib.Packing EnerSentry.Protocol

/-- A handler that works on a state. -/
abbrev ServingHandler (S : Type*) := S → UInt8 → List UInt8 → List UInt8 × S

/-- The handler that is installed on every transport, for the slaves of a configuration. -/
def dispatchHandler (slaves : List UInt8) : ServingHandler RegisterBank := fun bank unitId pdu =>
  match dispatchBySlaveId unitId bank slaves pdu with
  | (none, next) => ([0x80 ||| pdu.headD 0xFF, 0x01], next)
  | (some r, next) => (r.bytes, next)

/-- The memory behind every unit id that is served. -/
abbrev RemoteDevice := UInt8 → Option RemoteMemory

def RemoteDevice.obey (d : RemoteDevice) (unitId : UInt8) (c : SlaveCommand) : RemoteDevice × Answer :=
  match d unitId with
  | none => (d, .refused 0x01)
  | some m => (Function.update d unitId (some (m.obey c).1), (m.obey c).2)

namespace RegisterBank

/-- The device that a bank stands for. -/
def image (bank : RegisterBank) (slaves : List UInt8) : RemoteDevice := fun unitId =>
  if unitId ∈ slaves then (bank unitId).map SlaveRegset.image else none

/-- Every cell of every slave has an address. -/
def Addressable (bank : RegisterBank) : Prop := ∀ slave regs, bank slave = some regs → regs.Addressable

variable {bank : RegisterBank} {slaves : List UInt8} {unitId : UInt8} {regs next : SlaveRegset} {pdu : List UInt8}
  {c : SlaveCommand}

theorem Addressable.publish (addressable : bank.Addressable) (fits : next.Addressable) :
    (bank.publish unitId next).Addressable := by
  intro slave regs held
  by_cases same : slave = unitId
  · subst same
    rw [publish_same] at held
    rw [← Option.some.inj held]
    exact fits
  · rw [publish_other bank next same] at held
    exact addressable slave regs held

theorem image_publish (listed : unitId ∈ slaves) :
    (bank.publish unitId next).image slaves = Function.update (bank.image slaves) unitId (some next.image) := by
  funext other
  by_cases same : other = unitId
  · subst same
    rw [image, if_pos listed, publish_same, Function.update_self]
    rfl
  · rw [image, publish_other bank next same, Function.update_of_ne same]
    rfl

/-- A register set of a unit that is not served is seen by nobody. -/
theorem image_publish_eq (bank : RegisterBank) (slaves : List UInt8) (unitId : UInt8) (next : SlaveRegset) :
    (bank.publish unitId next).image slaves =
      if unitId ∈ slaves then Function.update (bank.image slaves) unitId (some next.image) else bank.image slaves := by
  split
  · rename_i listed
    exact image_publish listed
  · rename_i unlisted
    funext other
    by_cases same : other = unitId
    · subst same
      rw [image, if_neg unlisted, image, if_neg unlisted]
    · rw [image, publish_other bank next same]
      rfl

/-- What is decoded is well formed and says which code asked for it. -/
theorem decodeCommand_formed (decoded : decodeCommand pdu = some c) : c.WellFormed ∧ c.code = pdu.headD 0 := by
  unfold decodeCommand at decoded
  simp only at decoded
  split at decoded
  · rename_i read
    obtain ⟨counted, same⟩ := Option.ite_none_left_eq_some.mp decoded
    obtain rfl := Option.some.inj same
    simp only [Bool.or_eq_true, not_or, beq_iff_eq] at counted
    have asked : 0 < (be16 pdu 3).toNat := Nat.pos_of_ne_zero fun zero => counted.1.2 (UInt16.toNat_inj.mp zero)
    exact ⟨⟨read, asked⟩, rfl⟩
  split at decoded
  · rename_i coil
    obtain ⟨-, same⟩ := Option.ite_none_left_eq_some.mp decoded
    obtain rfl := Option.some.inj same
    exact ⟨trivial, (beq_iff_eq.mp coil).symm⟩
  split at decoded
  · rename_i register
    obtain ⟨-, same⟩ := Option.ite_none_left_eq_some.mp decoded
    obtain rfl := Option.some.inj same
    exact ⟨trivial, (beq_iff_eq.mp register).symm⟩
  split at decoded
  · rename_i coils
    obtain ⟨counted, same⟩ := Option.ite_none_right_eq_some.mp decoded
    obtain rfl := Option.some.inj same
    refine ⟨⟨?_, (qty_wellCounted counted).1⟩, (beq_iff_eq.mp coils).symm⟩
    rw [List.length_map, List.length_range]
  split at decoded
  · rename_i registers
    obtain ⟨counted, same⟩ := Option.ite_none_right_eq_some.mp decoded
    obtain rfl := Option.some.inj same
    refine ⟨⟨?_, (qty_wellCounted counted).1⟩, (beq_iff_eq.mp registers).symm⟩
    rw [List.length_map, List.length_range]
  · cases decoded

/-- A command that is refused leaves the registers alone. -/
theorem execute_refused (failed : (execute regs c).1.exception.isNone = false) : (execute regs c).2 = regs := by
  cases c with
  | read fc addr qty =>
    rw [execute]
    split <;> rfl
  | writeCoil addr val =>
    rw [execute] at failed ⊢
    split at failed
    · rename_i outside
      rw [if_pos outside]
    · cases failed
  | writeRegister addr val =>
    rw [execute] at failed ⊢
    split at failed
    · rename_i outside
      rw [if_pos outside]
    · cases failed
  | writeCoils addr qty bits =>
    rw [execute] at failed ⊢
    split at failed
    · rename_i outside
      rw [if_pos outside]
    · cases failed
  | writeRegisters addr qty words =>
    rw [execute] at failed ⊢
    split at failed
    · rename_i outside
      rw [if_pos outside]
    · cases failed

/-- The answer to a snapshot is that of the command, and what is published is what the command leaves. -/
theorem serveSnapshot_decoded (bank : RegisterBank) (unitId : UInt8) (regs : SlaveRegset)
    (decoded : decodeCommand pdu = some c) :
    (serveSnapshot bank unitId regs pdu).1 = (execute regs c).1 ∧
      ((serveSnapshot bank unitId regs pdu).2 = bank ∧ (execute regs c).2 = regs ∨
        (serveSnapshot bank unitId regs pdu).2 = bank.publish unitId (execute regs c).2) := by
  have formed := decodeCommand_formed decoded
  have whole : dispatchFull regs pdu true = execute regs c := dispatchFull_decoded decoded
  cases pdu with
  | nil => cases decoded
  | cons fc rest =>
    cases write : isWriteCode fc with
    | true =>
      simp only [serveSnapshot, List.headD_cons, write, whole, Bool.true_and]
      cases done : (execute regs c).1.exception.isNone with
      | true => exact ⟨rfl, Or.inr rfl⟩
      | false => exact ⟨rfl, Or.inl ⟨rfl, execute_refused done⟩⟩
    | false =>
      have read : isReadCode fc = true := by
        cases c with
        | read code addr qty =>
          have same : code = fc := formed.2
          exact same ▸ formed.1.1
        | _ =>
          have same : _ = fc := formed.2
          rw [← same] at write
          cases write
      have plain : dispatchFull regs (fc :: rest) true = ((dispatchFull regs (fc :: rest) false).1, regs) :=
        dispatch_read_only read rest
      rw [whole] at plain
      simp only [serveSnapshot, List.headD_cons, write, Bool.false_and, Bool.false_eq_true, if_false]
      rw [plain]
      exact ⟨rfl, Or.inl ⟨trivial, rfl⟩⟩

end RegisterBank

/-- One request on the bank is one command on the device. -/
structure Handles (slaves : List UInt8) (bank : RegisterBank) (unitId : UInt8) (c : SlaveCommand)
    (done : List UInt8 × RegisterBank) : Prop where
  answer : done.1 = ((bank.image slaves).obey unitId c).2.pdu c
  device : done.2.image slaves = ((bank.image slaves).obey unitId c).1
  addressable : done.2.Addressable

theorem handles_decoded (slaves : List UInt8) {bank : RegisterBank} (unitId : UInt8) {pdu : List UInt8}
    {c : SlaveCommand} (addressable : bank.Addressable) (decoded : decodeCommand pdu = some c) :
    Handles slaves bank unitId c (dispatchHandler slaves bank unitId pdu) := by
  have formed := RegisterBank.decodeCommand_formed decoded
  have absent (missing : bank.image slaves unitId = none)
      (unserved : dispatchBySlaveId unitId bank slaves pdu = (none, bank)) :
      Handles slaves bank unitId c (dispatchHandler slaves bank unitId pdu) := by
    have same : pdu.headD 0xFF = c.code := by
      cases pdu with
      | nil => cases decoded
      | cons fc rest => exact formed.2.symm
    simp only [dispatchHandler, unserved]
    constructor
    · rw [RemoteDevice.obey, missing, same, UInt8.or_comm]
      rfl
    · rw [RemoteDevice.obey, missing]
    · exact addressable
  by_cases listed : unitId ∈ slaves
  · cases known : bank unitId with
    | none =>
      apply absent
      · rw [RegisterBank.image, if_pos listed, known]
        rfl
      · rw [dispatchBySlaveId, if_pos listed, RegisterBank.snapshot, known]
    | some regs =>
      have held : bank.image slaves unitId = some regs.image := by
        rw [RegisterBank.image, if_pos listed, known]
        rfl
      have fits := addressable unitId regs known
      have obeys := SlaveRegset.obeys_execute fits formed.1
      have served := RegisterBank.serveSnapshot_decoded bank unitId regs decoded
      simp only [dispatchHandler, dispatchBySlaveId_known listed known]
      obtain ⟨answer, unchanged | published⟩ := served
      · constructor
        · rw [answer, obeys.answer, RemoteDevice.obey, held]
        · have same : (regs.image.obey c).1 = regs.image := by rw [← obeys.memory, unchanged.2]
          rw [unchanged.1, RemoteDevice.obey, held]
          simp only [same]
          rw [← held, Function.update_eq_self]
        · rw [unchanged.1]
          exact addressable
      · constructor
        · rw [answer, obeys.answer, RemoteDevice.obey, held]
        · rw [published, RegisterBank.image_publish listed, obeys.memory, RemoteDevice.obey, held]
        · rw [published]
          exact addressable.publish (obeys.addressable fits)
  · apply absent
    · rw [RegisterBank.image, if_neg listed]
    · rw [dispatchBySlaveId, if_neg listed]

end EnerSentry.Sim
