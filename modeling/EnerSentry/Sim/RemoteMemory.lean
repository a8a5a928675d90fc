import EnerSentry.Lib.CellMemory
import EnerSentry.Sim.WriteEffects

/-!
What a slave is for its masters: a memory of four areas that is read and written in ranges. A command
is carried out on the memory as a whole or refused with the code for an address that is not there. The
registers of a slave refine it as long as every one of them has an address.
-/

namespace EnerSentry.Sim
open EnerSentry.Lib.CellMemory EnerSentry.Lib.Packing EnerSentry.Protocol

abbrev RemoteMemory := Memory RegisterType UInt16

inductive Answer where
  | refused (code : UInt8)
  | cells (values : List UInt16)
  | stored
  deriving DecidableEq, Repr

def bitWord (set : Bool) : UInt16 := if set then 1 else 0

def isBitCode (fc : UInt8) : Bool := fc == 0x01 || fc == 0x02

namespace SlaveCommand

/-- The area a function code addresses. -/
def areaOf (fc : UInt8) : RegisterType :=
  if fc == 0x01 then .coil
  else if fc == 0x02 then .discreteInput
  else if fc == 0x03 then .holdingRegister
  else .inputRegister

/-- The function code that asks for a command. -/
def code : SlaveCommand → UInt8
  | .read fc _ _ => fc
  | .writeCoil _ _ => 0x05
  | .writeRegister _ _ => 0x06
  | .writeCoils _ _ _ => 0x0F
  | .writeRegisters _ _ _ => 0x10

/-- A range is not empty and has as many values as it has cells, and a read has one of its four codes. -/
def WellFormed : SlaveCommand → Prop
  | .read fc _ qty => isReadCode fc = true ∧ 0 < qty.toNat
  | .writeCoils _ qty bits => bits.length = qty.toNat ∧ 0 < qty.toNat
  | .writeRegisters _ qty words => words.length = qty.toNat ∧ 0 < qty.toNat
  | _ => True

/-- The request that a write answers with when it is carried out. -/
def echo : SlaveCommand → List UInt8
  | .read _ _ _ => []
  | .writeCoil addr val => 0x05 :: (appendU16BE addr ++ appendU16BE val)
  | .writeRegister addr val => 0x06 :: (appendU16BE addr ++ appendU16BE val)
  | .writeCoils addr qty _ => 0x0F :: (appendU16BE addr ++ appendU16BE qty)
  | .writeRegisters addr qty _ => 0x10 :: (appendU16BE addr ++ appendU16BE qty)

end SlaveCommand

/-- The data bytes of cells: packed bits, or words with the high byte first. -/
def cellData (fc : UInt8) (values : List UInt16) : List UInt8 :=
  if isBitCode fc then packBits (fun i => values.getD i 0 == 1) values.length else bytesOf values

/-- The bytes of an answer, without unit id and framing. -/
def Answer.pdu (c : SlaveCommand) : Answer → List UInt8
  | .refused code => [c.code ||| 0x80, code]
  | .cells values => c.code :: UInt8.ofNat (cellData c.code values).length :: cellData c.code values
  | .stored => c.echo

namespace RemoteMemory

def saved (m : RemoteMemory) (next : Option RemoteMemory) : RemoteMemory × Answer :=
  match next with
  | some next => (next, .stored)
  | none => (m, .refused 0x02)

/-- A command on the memory: all of it, or nothing. -/
def obey (m : RemoteMemory) : SlaveCommand → RemoteMemory × Answer
  | .read fc addr qty =>
      match m.load (SlaveCommand.areaOf fc) addr.toNat qty.toNat with
      | some values => (m, .cells values)
      | none => (m, .refused 0x02)
  | .writeCoil addr val => saved m (m.save .coil addr.toNat [bitWord (val == 0xFF00)])
  | .writeRegister addr val => saved m (m.save .holdingRegister addr.toNat [val])
  | .writeCoils addr _ bits => saved m (m.save .coil addr.toNat (bits.map bitWord))
  | .writeRegisters addr _ words => saved m (m.save .holdingRegister addr.toNat words)

end RemoteMemory

namespace SlaveRegset

/-- The memory that a register set stands for. -/
def image (r : SlaveRegset) : RemoteMemory
  | .holdingRegister, a => r.holding[a]?
  | .inputRegister, a => r.input[a]?
  | .coil, a => (coilAt r.coils a).map bitWord
  | .discreteInput, a => (coilAt r.discretes a).map bitWord

def cellCount (r : SlaveRegset) : RegisterType → Nat
  | .holdingRegister => r.holding.length
  | .inputRegister => r.input.length
  | .coil => r.coils.length * 8
  | .discreteInput => r.discretes.length * 8

/-- Every cell has an address. -/
def Addressable (r : SlaveRegset) : Prop := ∀ t, r.cellCount t ≤ 65536

variable {r : SlaveRegset} {t : RegisterType} {addr n : Nat}

theorem isSome_image (r : SlaveRegset) (t : RegisterType) (a : Nat) :
    (r.image t a).isSome = true ↔ a < r.cellCount t := by
  cases t with
  | holdingRegister => exact isSome_holding r a
  | inputRegister => simp only [image, cellCount, isSome_getElem?]
  | coil => rw [image, Option.isSome_map, isSome_coilAt, cellCount]
  | discreteInput => rw [image, Option.isSome_map, isSome_coilAt, cellCount]

/-- A range of cells is there when its end is. -/
theorem covers_image (asked : 0 < n) : r.image.Covers t addr n ↔ addr + n ≤ r.cellCount t := by
  constructor
  · intro covered
    have last := (isSome_image r t _).mp (covered (n - 1) (by omega))
    omega
  · intro inside i below
    exact (isSome_image r t _).mpr (by omega)

/-- Values that are put from the start of a span on are those the span sends. -/
theorem put_span {V : Type*} (m : RemoteMemory) (t : RegisterType) (span : Span V) (f : V → UInt16) (a : Nat) :
    m.put t span.addr.toNat ((List.range span.qty).map fun i => f (span.value i)) t a =
      ((span.sent a).map f).or (m t a) := by
  simp only [Memory.put, true_and, List.getElem?_map, Span.sent]
  by_cases low : span.addr.toNat ≤ a
  · by_cases high : a < span.addr.toNat + span.qty
    · have inside : a - span.addr.toNat < span.qty := by omega
      simp [low, high, inside]
    · have outside : ¬a - span.addr.toNat < span.qty := by omega
      simp [low, high, outside]
  · simp [low]

/-- Coils that are stored one after the other are put as a whole. -/
theorem image_storeCoils (addressable : r.Addressable) (span : Span Bool) (inside : span.Inside (r.cellCount .coil)) :
    image { r with coils := span.store writeCoil r.coils } =
      r.image.put .coil span.addr.toNat ((List.range span.qty).map fun i => bitWord (span.value i)) := by
  have room : span.Inside 65536 := Nat.le_trans inside (addressable .coil)
  have few : span.qty ≤ 65536 := by
    rw [Span.Inside] at room
    omega
  have stored := (Span.cell_store_iff coilAt_writeCoil few (isSome_coilAt r.coils) inside).mpr
    (span.settled_of_inside room _)
  funext t a
  cases t with
  | coil =>
    rw [put_span, image, image, stored]
    cases span.sent a <;> rfl
  | holdingRegister => exact (Memory.put_apart (Or.inl (by decide))).symm
  | inputRegister => exact (Memory.put_apart (Or.inl (by decide))).symm
  | discreteInput => exact (Memory.put_apart (Or.inl (by decide))).symm

/-- So are holding registers. -/
theorem image_storeHolding (addressable : r.Addressable) (span : Span UInt16)
    (inside : span.Inside (r.cellCount .holdingRegister)) :
    (span.store setHolding r).image =
      r.image.put .holdingRegister span.addr.toNat ((List.range span.qty).map span.value) := by
  have room : span.Inside 65536 := Nat.le_trans inside (addressable .holdingRegister)
  have few : span.qty ≤ 65536 := by
    rw [Span.Inside] at room
    omega
  have stored := (Span.cell_store_iff writes_holding few (isSome_holding r) inside).mpr
    (span.settled_of_inside room _)
  have rest := store_setHolding span r
  funext t a
  cases t with
  | holdingRegister =>
    refine (stored a).trans ?_
    have put := put_span r.image .holdingRegister span id a
    rw [Option.map_id] at put
    exact put.symm
  | inputRegister =>
    rw [rest]
    exact (Memory.put_apart (Or.inl (by decide))).symm
  | coil =>
    rw [rest]
    exact (Memory.put_apart (Or.inl (by decide))).symm
  | discreteInput =>
    rw [rest]
    exact (Memory.put_apart (Or.inl (by decide))).symm

/-- What a command leaves on the registers is what it leaves on their memory. -/
structure Obeys (r : SlaveRegset) (c : SlaveCommand) (done : DispatchResult × SlaveRegset) : Prop where
  answer : done.1.bytes = (r.image.obey c).2.pdu c
  memory : done.2.image = (r.image.obey c).1

theorem isSome_obey (m : RemoteMemory) (c : SlaveCommand) (t : RegisterType) (a : Nat) :
    ((m.obey c).1 t a).isSome = (m t a).isSome := by
  have saves (b : RegisterType) (addr : Nat) (values : List UInt16) :
      ((RemoteMemory.saved m (m.save b addr values)).1 t a).isSome = (m t a).isSome := by
    unfold Memory.save RemoteMemory.saved
    by_cases covered : m.Covers b addr values.length
    · rw [if_pos covered]
      exact Memory.isSome_put covered t a
    · rw [if_neg covered]
  cases c with
  | read fc addr qty =>
    rw [RemoteMemory.obey]
    cases m.load (SlaveCommand.areaOf fc) addr.toNat qty.toNat <;> rfl
  | writeCoil addr val => exact saves _ _ _
  | writeRegister addr val => exact saves _ _ _
  | writeCoils addr qty bits => exact saves _ _ _
  | writeRegisters addr qty words => exact saves _ _ _

/-- Commands neither add cells nor take any away. -/
theorem Obeys.addressable {c : SlaveCommand} {done : DispatchResult × SlaveRegset} (obeys : Obeys r c done)
    (addressable : r.Addressable) : done.2.Addressable := by
  intro t
  have counts : done.2.cellCount t = r.cellCount t := by
    apply eq_of_forall_lt_iff
    intro a
    rw [← isSome_image, ← isSome_image, obeys.memory, isSome_obey]
  rw [counts]
  exact addressable t

/-- A write checks its range first, and then puts its values. -/
theorem obeys_write {c : SlaveCommand} (t : RegisterType) (addr : Nat) (values : List UInt16) (after : SlaveRegset)
    (asked : 0 < values.length) (obeyed : r.image.obey c = RemoteMemory.saved r.image (r.image.save t addr values))
    (refused : r.cellCount t < addr + values.length → execute r c = (exceptionPdu c.code 0x02, r))
    (done : addr + values.length ≤ r.cellCount t → execute r c = ({ bytes := c.echo }, after))
    (image : addr + values.length ≤ r.cellCount t → after.image = r.image.put t addr values) :
    Obeys r c (execute r c) := by
  by_cases inside : addr + values.length ≤ r.cellCount t
  · have covered : r.image.Covers t addr values.length := (covers_image asked).mpr inside
    constructor
    · rw [done inside, obeyed, Memory.save, if_pos covered]
      rfl
    · rw [done inside, obeyed, Memory.save, if_pos covered]
      exact image inside
  · have gap : ¬r.image.Covers t addr values.length := fun covered => inside ((covers_image asked).mp covered)
    constructor
    · rw [refused (Nat.lt_of_not_le inside), obeyed, Memory.save, if_neg gap]
      rfl
    · rw [refused (Nat.lt_of_not_le inside), obeyed, Memory.save, if_neg gap]
      rfl

theorem values_getD {V : Type*} (xs : List V) (default : V) (f : V → UInt16) :
    (List.range xs.length).map (fun i => f (xs.getD i default)) = xs.map f := by
  apply List.ext_getElem
  · simp
  · intro i _ inside
    rw [List.length_map] at inside
    simp [List.getElem?_eq_getElem inside]

theorem obeys_writeCoil (addressable : r.Addressable) (addr val : UInt16) :
    Obeys r (.writeCoil addr val) (execute r (.writeCoil addr val)) := by
  let span : Span Bool := ⟨addr, 1, fun _ => val == 0xFF00⟩
  have one : span.store writeCoil r.coils = writeCoil r.coils addr (val == 0xFF00) := Span.store_one addr _ _
  refine obeys_write .coil addr.toNat [bitWord (val == 0xFF00)]
    { r with coils := writeCoil r.coils addr (val == 0xFF00) } Nat.one_pos rfl ?_ ?_ ?_
  · intro outside
    have past : r.coils.length * 8 ≤ addr.toNat := Nat.le_of_lt_succ outside
    rw [execute, if_pos past]
    rfl
  · intro inside
    have within : ¬r.coils.length * 8 ≤ addr.toNat := Nat.not_le.mpr inside
    rw [execute, if_neg within]
    rfl
  · intro inside
    rw [← one]
    exact image_storeCoils addressable span inside

theorem obeys_writeRegister (addressable : r.Addressable) (addr val : UInt16) :
    Obeys r (.writeRegister addr val) (execute r (.writeRegister addr val)) := by
  let span : Span UInt16 := ⟨addr, 1, fun _ => val⟩
  have one : span.store setHolding r = r.setHolding addr val := Span.store_one addr _ _
  refine obeys_write .holdingRegister addr.toNat [val] (r.setHolding addr val) Nat.one_pos rfl ?_ ?_ ?_
  · intro outside
    have past : r.holding.length ≤ addr.toNat := Nat.le_of_lt_succ outside
    rw [execute, if_pos past]
    rfl
  · intro inside
    have within : ¬r.holding.length ≤ addr.toNat := Nat.not_le.mpr inside
    rw [execute, if_neg within]
    rfl
  · intro inside
    rw [← one]
    exact image_storeHolding addressable span inside

theorem obeys_writeCoils (addressable : r.Addressable) (addr qty : UInt16) {bits : List Bool}
    (counted : bits.length = qty.toNat) (asked : 0 < qty.toNat) :
    Obeys r (.writeCoils addr qty bits) (execute r (.writeCoils addr qty bits)) := by
  let span : Span Bool := ⟨addr, qty.toNat, fun i => bits.getD i false⟩
  have size : (bits.map bitWord).length = qty.toNat := by rw [List.length_map, counted]
  refine obeys_write .coil addr.toNat (bits.map bitWord) { r with coils := span.store writeCoil r.coils }
    (size ▸ asked) rfl ?_ ?_ ?_
  · intro outside
    rw [size] at outside
    have past : r.coils.length * 8 < addr.toNat + qty.toNat := outside
    rw [execute, if_pos past]
    rfl
  · intro inside
    rw [size] at inside
    have within : ¬r.coils.length * 8 < addr.toNat + qty.toNat := Nat.not_lt.mpr inside
    rw [execute, if_neg within]
    rfl
  · intro inside
    rw [size] at inside
    rw [image_storeCoils addressable span inside, ← values_getD bits false bitWord, counted]

theorem obeys_writeRegisters (addressable : r.Addressable) (addr qty : UInt16) {words : List UInt16}
    (counted : words.length = qty.toNat) (asked : 0 < qty.toNat) :
    Obeys r (.writeRegisters addr qty words) (execute r (.writeRegisters addr qty words)) := by
  let span : Span UInt16 := ⟨addr, qty.toNat, fun i => words.getD i 0⟩
  refine obeys_write .holdingRegister addr.toNat words (span.store setHolding r) (counted ▸ asked) rfl ?_ ?_ ?_
  · intro outside
    rw [counted] at outside
    have past : r.holding.length < addr.toNat + qty.toNat := outside
    rw [execute, if_pos past]
    rfl
  · intro inside
    rw [counted] at inside
    have within : ¬r.holding.length < addr.toNat + qty.toNat := Nat.not_lt.mpr inside
    rw [execute, if_neg within]
    rfl
  · intro inside
    rw [counted] at inside
    have values := values_getD words 0 id
    rw [List.map_id] at values
    rw [image_storeHolding addressable span inside, ← values, counted]
    rfl

/-- The cells of an area as numbers, counted without a bound. -/
def cellValue (r : SlaveRegset) : RegisterType → Nat → UInt16
  | .holdingRegister, a => r.holding.getD a 0
  | .inputRegister, a => r.input.getD a 0
  | .coil, a => bitWord (bitAt r.coils a)
  | .discreteInput, a => bitWord (bitAt r.discretes a)

theorem image_inside {a : Nat} (inside : a < r.cellCount t) : r.image t a = some (r.cellValue t a) := by
  obtain ⟨v, held⟩ := Option.isSome_iff_exists.mp ((isSome_image r t a).mpr inside)
  rw [held]
  cases t with
  | holdingRegister =>
    have cell : r.holding[a]? = some v := held
    rw [cellValue, List.getD_eq_getElem?_getD, cell, Option.getD_some]
  | inputRegister =>
    have cell : r.input[a]? = some v := held
    rw [cellValue, List.getD_eq_getElem?_getD, cell, Option.getD_some]
  | coil =>
    obtain ⟨bit, cell, rfl⟩ := Option.map_eq_some_iff.mp held
    rw [cellValue, bitAt_of_coilAt cell]
  | discreteInput =>
    obtain ⟨bit, cell, rfl⟩ := Option.map_eq_some_iff.mp held
    rw [cellValue, bitAt_of_coilAt cell]

theorem area_size {fc : UInt8} (read : isReadCode fc = true) :
    (area r fc).size = r.cellCount (SlaveCommand.areaOf fc) := by
  rcases readCode_cases read with rfl | rfl | rfl | rfl <;> rfl

theorem bitWord_eq_one (set : Bool) : (bitWord set == 1) = set := by
  cases set <;> decide

/-- The data that a read sends are the cells of its range. -/
theorem area_data {fc : UInt8} (read : isReadCode fc = true)
    (inside : addr + n ≤ 65536) : (area r fc).data addr n =
      cellData fc ((List.range n).map fun i => r.cellValue (SlaveCommand.areaOf fc) (addr + i)) := by
  have uncut (i : Nat) (below : i < n) : (addr + i) % 65536 = addr + i := Nat.mod_eq_of_lt (by omega)
  have bits (cells : List UInt8) : packBits (fun i => bitAt cells ((addr + i) % 65536)) n =
      packBits (fun i => ((List.range n).map fun i => bitWord (bitAt cells (addr + i))).getD i 0 == 1)
        ((List.range n).map fun i => bitWord (bitAt cells (addr + i))).length := by
    rw [List.length_map, List.length_range]
    apply packBits_congr
    intro i below
    simp [uncut i below, below, bitWord_eq_one]
  have words (cells : List UInt16) : (List.range n).map (fun i => cells.getD ((addr + i) % 65536) 0) =
      (List.range n).map fun i => cells.getD (addr + i) 0 :=
    List.map_congr_left fun i member => by rw [uncut i (List.mem_range.mp member)]
  rcases readCode_cases read with rfl | rfl | rfl | rfl
  · exact bits r.coils
  · exact bits r.discretes
  · exact congrArg bytesOf (words r.holding)
  · exact congrArg bytesOf (words r.input)

theorem obeys_read (addressable : r.Addressable) {fc : UInt8} (addr qty : UInt16) (read : isReadCode fc = true)
    (asked : 0 < qty.toNat) : Obeys r (.read fc addr qty) (execute r (.read fc addr qty)) := by
  by_cases inside : addr.toNat + qty.toNat ≤ r.cellCount (SlaveCommand.areaOf fc)
  · have loaded : r.image.load (SlaveCommand.areaOf fc) addr.toNat qty.toNat =
        some ((List.range qty.toNat).map fun i => r.cellValue (SlaveCommand.areaOf fc) (addr.toNat + i)) :=
      Memory.load_of_cells fun i below => image_inside (by omega)
    have within : ¬(area r fc).size < addr.toNat + qty.toNat := by
      rw [area_size read]
      exact Nat.not_lt.mpr inside
    have data := area_data (r := r) read (Nat.le_trans inside (addressable _))
    constructor
    · simp only [execute, if_neg within, RemoteMemory.obey, loaded, data]
      rfl
    · simp only [execute, if_neg within, RemoteMemory.obey, loaded]
  · have gap : r.image.load (SlaveCommand.areaOf fc) addr.toNat qty.toNat = none :=
      if_neg fun covered => inside ((covers_image asked).mp covered)
    have outside : (area r fc).size < addr.toNat + qty.toNat := by
      rw [area_size read]
      exact Nat.lt_of_not_le inside
    constructor
    · simp only [execute, if_pos outside, RemoteMemory.obey, gap]
      rfl
    · simp only [execute, if_pos outside, RemoteMemory.obey, gap]

/-- Registers that all have an address are the memory they stand for. -/
theorem obeys_execute (addressable : r.Addressable) {c : SlaveCommand} (formed : c.WellFormed) :
    Obeys r c (execute r c) := by
  cases c with
  | read fc addr qty => exact obeys_read addressable addr qty formed.1 formed.2
  | writeCoil addr val => exact obeys_writeCoil addressable addr val
  | writeRegister addr val => exact obeys_writeRegister addressable addr val
  | writeCoils addr qty bits => exact obeys_writeCoils addressable addr qty formed.1 formed.2
  | writeRegisters addr qty words => exact obeys_writeRegisters addressable addr qty formed.1 formed.2

end SlaveRegset

end EnerSentry.Sim
