import Mathlib.Logic.Function.Basic
import EnerSentry.Sim.ModbusDispatch

/-!
The register bank: one published register set per slave, replaced as a whole. A register
set is read here cell by cell, so that a change can be described by the cells it leaves
alone. A request takes a snapshot, works on it and, if it is a write that succeeds,
publishes its copy.
-/

namespace EnerSentry.Sim
open EnerSentry.Lib.Packing

inductive RegisterType where
  | holdingRegister | inputRegister | coil | discreteInput
  deriving DecidableEq, Repr

namespace SlaveRegset

def setInput (r : SlaveRegset) (reg v : UInt16) : SlaveRegset := { r with input := r.input.set reg.toNat v }

def setCoil (r : SlaveRegset) (reg : UInt16) (v : Bool) : SlaveRegset :=
  { r with coils := writeCoil r.coils reg v }

def setDiscrete (r : SlaveRegset) (reg : UInt16) (v : Bool) : SlaveRegset :=
  { r with discretes := writeCoil r.discretes reg v }

def allocate (slaveId : UInt8) (holdingSize inputSize : Nat) : SlaveRegset :=
  { slaveId := slaveId
    holding := List.replicate holdingSize 0
    input := List.replicate inputSize 0
    coils := List.replicate ((holdingSize + 7) / 8) 0
    discretes := List.replicate ((inputSize + 7) / 8) 0 }

end SlaveRegset

section Cells

/-- The bit at an address; `none` outside the string. -/
def coilAt (bytes : List UInt8) (a : Nat) : Option Bool := bytes[a / 8]?.map fun b => b.toNat.testBit (a % 8)

/-- The bit of an address, as a number; `none` outside the string. -/
def bitCell (bytes : List UInt8) (reg : UInt16) : Option UInt16 :=
  bytes[reg.toNat / 8]?.map (fun b => if b.toNat.testBit (reg.toNat % 8) then 1 else 0)

/-- What a register set holds at an address of one of its four areas; `none` outside. -/
def SlaveRegset.cell (r : SlaveRegset) : RegisterType → UInt16 → Option UInt16
  | .holdingRegister, a => r.holding[a.toNat]?
  | .inputRegister, a => r.input[a.toNat]?
  | .coil, a => bitCell r.coils a
  | .discreteInput, a => bitCell r.discretes a

variable {r : SlaveRegset} {t : RegisterType} {a reg v : UInt16}

theorem clearMask_testBit :
    ∀ k j : Fin 8, j ≠ k → (~~~UInt8.ofNat (1 <<< k.val)).toNat.testBit j.val = true := by
  decide

theorem clear_testBit (b : UInt8) {k j : Nat} (small : k < 8) (within : j < 8) (other : j ≠ k) :
    (b &&& ~~~UInt8.ofNat (1 <<< k)).toNat.testBit j = b.toNat.testBit j := by
  have mask := clearMask_testBit ⟨k, small⟩ ⟨j, within⟩ (fun equal => other (Fin.mk.inj equal))
  rw [UInt8.toNat_and, Nat.testBit_and, mask, Bool.and_true]

theorem set_testBit (b : UInt8) {k : Nat} (small : k < 8) :
    (b ||| UInt8.ofNat (1 <<< k)).toNat.testBit k = true := by
  rw [UInt8.toNat_or, Nat.testBit_or, mask_toNat small, Nat.testBit_two_pow_self, Bool.or_true]

theorem cleared_testBit (b : UInt8) {k : Nat} (small : k < 8) :
    (b &&& ~~~UInt8.ofNat (1 <<< k)).toNat.testBit k = false := by
  have mask : ∀ k : Fin 8, (~~~UInt8.ofNat (1 <<< k.val)).toNat.testBit k.val = false := by decide
  rw [UInt8.toNat_and, Nat.testBit_and, mask ⟨k, small⟩, Bool.and_false]

/-- A coil that is written takes the value, and no other bit changes. -/
theorem coilAt_writeCoil (bytes : List UInt8) (reg : UInt16) (v : Bool) (a : Nat) :
    coilAt (writeCoil bytes reg v) a =
      if a = reg.toNat then (coilAt bytes a).map fun _ => v else coilAt bytes a := by
  have small : reg.toNat % 8 < 8 := Nat.mod_lt _ (by decide)
  have within : a % 8 < 8 := Nat.mod_lt _ (by decide)
  rw [coilAt, coilAt, writeCoil, List.getElem?_modify]
  by_cases byte : reg.toNat / 8 = a / 8
  · simp only [byte, ↓reduceIte, Option.map_eq_map, Option.map_map]
    cases bytes[a / 8]? with
    | none => simp
    | some b =>
      by_cases same : a = reg.toNat
      · subst same
        cases v with
        | true => simp only [↓reduceIte, Option.map_some, Function.comp_apply, set_testBit b small]
        | false => simp only [Bool.false_eq_true, ↓reduceIte, Option.map_some, Function.comp_apply,
            cleared_testBit b small]
      · have apart : a % 8 ≠ reg.toNat % 8 := fun bits => same (by omega)
        cases v with
        | true => simp only [same, ↓reduceIte, Option.map_some, Function.comp_apply, UInt8.toNat_or,
            Nat.testBit_or, mask_toNat small, Nat.testBit_two_pow, apart.symm, decide_false, Bool.or_false]
        | false => simp only [same, Bool.false_eq_true, ↓reduceIte, Option.map_some, Function.comp_apply,
            clear_testBit b small within apart]
  · have other : a ≠ reg.toNat := fun same => byte (same ▸ rfl)
    simp only [byte, other, ↓reduceIte, Option.map_eq_map, Option.map_id']

theorem bitCell_eq (bytes : List UInt8) (reg : UInt16) :
    bitCell bytes reg = (coilAt bytes reg.toNat).map fun set => if set then 1 else 0 := by
  rw [bitCell, coilAt, Option.map_map]
  rfl

theorem bitCell_writeCoil {bytes : List UInt8} {set : Bool} (other : a ≠ reg) :
    bitCell (writeCoil bytes reg set) a = bitCell bytes a := by
  have apart : a.toNat ≠ reg.toNat := fun same => other (UInt16.toNat_inj.mp same)
  rw [bitCell_eq, bitCell_eq, coilAt_writeCoil, if_neg apart]

theorem cell_setHolding : (r.setHolding reg v).cell t a =
    if t = .holdingRegister ∧ a = reg then (r.cell t a).map (fun _ => v) else r.cell t a := by
  cases t with
  | holdingRegister =>
    simp only [SlaveRegset.cell, SlaveRegset.setHolding, List.getElem?_set, true_and]
    by_cases same : a = reg
    · subst same
      by_cases inside : a.toNat < r.holding.length <;> simp [inside]
    · have apart : reg.toNat ≠ a.toNat := fun equal => same (UInt16.toNat_inj.mp equal).symm
      rw [if_neg apart, if_neg same]
  | inputRegister => rfl
  | coil => rfl
  | discreteInput => rfl

theorem cell_setInput : (r.setInput reg v).cell t a =
    if t = .inputRegister ∧ a = reg then (r.cell t a).map (fun _ => v) else r.cell t a := by
  cases t with
  | inputRegister =>
    simp only [SlaveRegset.cell, SlaveRegset.setInput, List.getElem?_set, true_and]
    by_cases same : a = reg
    · subst same
      by_cases inside : a.toNat < r.input.length <;> simp [inside]
    · have apart : reg.toNat ≠ a.toNat := fun equal => same (UInt16.toNat_inj.mp equal).symm
      rw [if_neg apart, if_neg same]
  | holdingRegister => rfl
  | coil => rfl
  | discreteInput => rfl

theorem cell_setCoil {set : Bool} (other : t ≠ .coil ∨ a ≠ reg) :
    (r.setCoil reg set).cell t a = r.cell t a := by
  cases t with
  | coil => exact bitCell_writeCoil (by simpa using other)
  | holdingRegister => rfl
  | inputRegister => rfl
  | discreteInput => rfl

theorem cell_setDiscrete {set : Bool} (other : t ≠ .discreteInput ∨ a ≠ reg) :
    (r.setDiscrete reg set).cell t a = r.cell t a := by
  cases t with
  | discreteInput => exact bitCell_writeCoil (by simpa using other)
  | holdingRegister => rfl
  | inputRegister => rfl
  | coil => rfl

/-- Outside the cells that satisfy `touched`, two register sets hold the same. -/
def Frames (touched : RegisterType → UInt16 → Prop) (r r' : SlaveRegset) : Prop :=
  ∀ t a, ¬touched t a → r'.cell t a = r.cell t a

theorem Frames.refl (touched : RegisterType → UInt16 → Prop) (r : SlaveRegset) : Frames touched r r :=
  fun _ _ _ => rfl

theorem Frames.trans {touched : RegisterType → UInt16 → Prop} {r r' r'' : SlaveRegset}
    (first : Frames touched r r') (second : Frames touched r' r'') : Frames touched r r'' :=
  fun t a free => (second t a free).trans (first t a free)

theorem Frames.foldl {α : Type*} {touched : RegisterType → UInt16 → Prop} {change : SlaveRegset → α → SlaveRegset}
    (xs : List α) (each : ∀ x ∈ xs, ∀ r, Frames touched r (change r x)) (r : SlaveRegset) :
    Frames touched r (xs.foldl change r) := by
  induction xs generalizing r with
  | nil => exact Frames.refl touched r
  | cons x xs ih =>
    have head := each x List.mem_cons_self r
    exact head.trans (ih (fun y later => each y (List.mem_cons_of_mem _ later)) _)

end Cells

abbrev RegisterBank := UInt8 → Option SlaveRegset

namespace RegisterBank

def snapshot (bank : RegisterBank) (slave : UInt8) : Option SlaveRegset := bank slave

def publish (bank : RegisterBank) (slave : UInt8) (next : SlaveRegset) : RegisterBank :=
  Function.update bank slave (some next)

@[simp] theorem publish_same (bank : RegisterBank) (slave : UInt8) (next : SlaveRegset) :
    bank.publish slave next slave = some next := Function.update_self ..

theorem publish_other (bank : RegisterBank) {slave other : UInt8} (next : SlaveRegset) (ne : other ≠ slave) :
    bank.publish slave next other = bank other := Function.update_of_ne ne ..

end RegisterBank

/-- The function codes that change registers or coils. -/
def isWriteCode (fc : UInt8) : Bool := fc == 0x05 || fc == 0x06 || fc == 0x0F || fc == 0x10

/-- The second half of a request: the snapshot is dispatched on and, after a successful
write, the changed copy published. -/
def serveSnapshot (bank : RegisterBank) (slaveId : UInt8) (snap : SlaveRegset) (pdu : List UInt8) :
    DispatchResult × RegisterBank :=
  let isWrite := isWriteCode (pdu.headD 0)
  let r := dispatchFull snap pdu isWrite
  if isWrite && r.1.exception.isNone then (r.1, bank.publish slaveId r.2) else (r.1, bank)

/-- `none` for a slave that is not served or has no register set yet. -/
def dispatchBySlaveId (slaveId : UInt8) (bank : RegisterBank) (allSlaves : List UInt8) (pdu : List UInt8) :
    Option DispatchResult × RegisterBank :=
  if slaveId ∈ allSlaves then
    match bank.snapshot slaveId with
    | none => (none, bank)
    | some snap =>
        let served := serveSnapshot bank slaveId snap pdu
        (some served.1, served.2)
  else (none, bank)

end EnerSentry.Sim
