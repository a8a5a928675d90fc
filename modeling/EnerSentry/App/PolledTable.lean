import EnerSentry.App.PollDriver
import EnerSentry.App.SegmentPlan
import EnerSentry.Sim.BankInterleaving
import EnerSentry.Sim.ClientStream
import EnerSentry.Sim.LoadedSimTable
import EnerSentry.Sim.Station

/-!
The application and the simulator on one point table. The simulator has room for every point the
application polls, so each segment is answered with the cells it asks for, and a point is decoded from
what its slave holds under the point's own address, whatever the segment reads besides.
-/

namespace EnerSentry.App
open EnerSentry.Lib EnerSentry.Lib.CellMemory EnerSentry.Lib.Packing EnerSentry.Protocol EnerSentry.Sim

theorem offsetIn_reads {K : Type} {seg : Segment K} {pr : PointRuntime K} (reads : seg.Reads pr) :
    offsetIn seg pr = pr.registerAddr.toNat - seg.startAddr.toNat := by
  have first := reads.first
  have bound := pr.registerAddr.toNat_lt
  rw [offsetIn, Int.emod_eq_of_lt (by omega) (by omega)]
  omega

section Cells
variable {K : Type} [Zero K] [One K] [Add K] [Mul K] (cv : Conversions K)

/-- A point by the cells from its address on. -/
def pointReading (cell : Nat → UInt16) (pr : PointRuntime K) : K :=
  let own i := cell (pr.registerAddr.toNat + i)
  if isBitType pr.regType then (if own 0 = 1 then 1 else 0) * pr.scaleFactor + pr.offset
  else if pr.dataType = .float32 then cv.ofInt (own 0).toNat * pr.scaleFactor + pr.offset
  else
    let (blen, bytes) := PointTable.reassembleBytes ((List.range (PointTable.registerCountFor pr.dataType)).map own)
      pr.byteOrder (List.replicate 8 0)
    PointTable.decodeToEngineering cv bytes blen pr.dataType pr.scaleFactor pr.offset

/-- A response with the cells of a segment. -/
structure Carries (seg : Segment K) (cell : Nat → UInt16) (resp : ModbusResponse) : Prop where
  bits : isBitType seg.rt = true →
    resp.coilBytes = packBits (fun i => cell (seg.startAddr.toNat + i) == 1) seg.qty.toNat
  registers : isBitType seg.rt = false →
    resp.registerValues = (List.range seg.qty.toNat).map fun i => cell (seg.startAddr.toNat + i)

variable {seg : Segment K} {pr : PointRuntime K} {cell : Nat → UInt16} {resp : ModbusResponse}

theorem bitValue_carries {first n offset : Nat} (bits : resp.coilBytes = packBits (fun i => cell (first + i) == 1) n)
    (inside : offset < n) : bitValue resp pr offset =
      some ((if cell (first + offset) = 1 then 1 else 0) * pr.scaleFactor + pr.offset) := by
  have there : ¬resp.coilBytes.length ≤ offset / 8 := by
    rw [bits, length_packBits]
    omega
  have bit : bitAt resp.coilBytes offset = (cell (first + offset) == 1) := by
    rw [bits, bitAt_packBits]
    simp [inside]
  rw [bitValue, if_neg there, bit]
  simp only [beq_iff_eq]

/-- The registers of one to four words are put together. -/
theorem reassembleBytes_pos {regs : List UInt16} (order : ByteOrder) (some : regs.length ≠ 0) (few : regs.length ≤ 4) :
    (PointTable.reassembleBytes regs order (List.replicate 8 0)).1 ≠ 0 := by
  unfold PointTable.reassembleBytes
  have room : ¬(List.replicate 8 (0 : UInt8)).length < regs.length * 2 := by
    rw [List.length_replicate]
    omega
  simp only
  rw [if_neg (by omega), if_neg room]
  cases order <;> exact Nat.mul_ne_zero some (by decide)

theorem registerCountFor_bounds (dt : DataType) :
    PointTable.registerCountFor dt ≠ 0 ∧ PointTable.registerCountFor dt ≤ 4 := by
  cases dt <;> decide

theorem registerValue_carries {first n offset : Nat}
    (registers : resp.registerValues = (List.range n).map fun i => cell (first + i))
    (inside : offset + PointTable.registerCountFor pr.dataType ≤ n) (word : isBitType pr.regType = false)
    (place : pr.registerAddr.toNat = first + offset) :
    registerValue cv resp pr offset = some (pointReading cv cell pr) := by
  obtain ⟨some, few⟩ := registerCountFor_bounds pr.dataType
  have size : resp.registerValues.length = n := by rw [registers, List.length_map, List.length_range]
  have at_offset : resp.registerValues.getD offset 0 = cell pr.registerAddr.toNat := by
    have here : offset < n := by omega
    rw [registers, place]
    simp [here]
  have taken : (resp.registerValues.drop offset).take (PointTable.registerCountFor pr.dataType) =
      (List.range (PointTable.registerCountFor pr.dataType)).map fun i => cell (pr.registerAddr.toNat + i) := by
    apply List.ext_getElem
    · simp [size]
      omega
    · intro i _ _
      simp [registers, place, Nat.add_assoc]
  by_cases float : pr.dataType = .float32
  · have enough : ¬resp.registerValues.length < offset + 1 := by omega
    simp only [registerValue, pointReading, if_pos float, word, Bool.false_eq_true, if_false, if_neg enough,
      at_offset, Nat.add_zero]
  · have enough : ¬resp.registerValues.length < offset + PointTable.registerCountFor pr.dataType := by omega
    let regs := (List.range (PointTable.registerCountFor pr.dataType)).map fun i => cell (pr.registerAddr.toNat + i)
    have count : regs.length = PointTable.registerCountFor pr.dataType := by rw [List.length_map, List.length_range]
    have joined : (PointTable.reassembleBytes regs pr.byteOrder (List.replicate 8 0)).1 ≠ 0 :=
      reassembleBytes_pos pr.byteOrder (count ▸ some) (count ▸ few)
    simp only [registerValue, pointReading, if_neg float, word, Bool.false_eq_true, if_false, if_neg enough, taken]
    rw [if_neg joined]

/-- Every point of a segment is decoded from the cells under its own address. -/
theorem Carries.decoded (carries : Carries seg cell resp) (reads : seg.Reads pr) :
    decodePoint cv seg resp pr = some (pointReading cv cell pr) := by
  have first := reads.first
  have last := reads.last
  have place : pr.registerAddr.toNat = seg.startAddr.toNat + (pr.registerAddr.toNat - seg.startAddr.toNat) := by omega
  rw [decodePoint, offsetIn_reads reads]
  cases bits : isBitType seg.rt with
  | true =>
    have own : isBitType pr.regType = true := reads.regType ▸ bits
    rw [pointWidth, own, if_pos rfl] at last
    rw [if_pos rfl, if_neg (by omega), bitValue_carries (carries.bits bits) (by omega), ← place]
    simp only [pointReading, own, if_true, Nat.add_zero]
  | false =>
    have own : isBitType pr.regType = false := reads.regType ▸ bits
    have width : pointWidth pr = PointTable.registerCountFor pr.dataType := by
      rw [pointWidth, own]
      rfl
    rw [width] at last
    exact registerValue_carries cv (carries.registers bits) (by omega) own place

end Cells

/-- The answer to the poll of a segment, as the application parses it, from a server whose fault injector
works on the link. -/
def polled {K : Type} [Zero K] (slaves : List UInt8) (injector : Option (FaultInjector K)) (bank : RegisterBank)
    (seg : Segment K) (tid : UInt16) : Option ModbusResponse :=
  let frame := buildRequest { readRequest seg with transactionId := tid }
  (clientTurn (dispatchHandler slaves) (fun _ => RtuSlavePort.effectOn injector) bank [frame]).2.bind
    fun turn => parseTcpResponse turn.1

section Polls
variable {K : Type} {seg : Segment K} {slaves : List UInt8} {bank : RegisterBank} {regs : SlaveRegset}

theorem areaOf_fcForRead (rt : Protocol.RegisterType) : SlaveCommand.areaOf (fcForRead rt) = simType rt := by
  cases rt <;> rfl

theorem isReadCode_fcForRead (rt : Protocol.RegisterType) : isReadCode (fcForRead rt) = true := by
  cases rt <;> rfl

theorem isBitCode_fcForRead (rt : Protocol.RegisterType) : isBitCode (fcForRead rt) = isBitType rt := by
  cases rt <;> rfl

theorem quantityLimit_fcForRead (rt : Protocol.RegisterType) : quantityLimit (fcForRead rt) = maxQty rt := by
  cases rt <;> rfl

theorem built_readRequest (tid : UInt16) (addressed : 1 ≤ seg.slave ∧ seg.slave ≤ 247) (asked : 1 ≤ seg.qty.toNat) :
    buildRequest { readRequest seg with transactionId := tid } ≠ [] := by
  have accepted : ¬(decide (seg.slave < 1) || decide (247 < seg.slave)) = true := by
    rw [Bool.or_eq_true, decide_eq_true_iff, decide_eq_true_iff, not_or]
    exact ⟨UInt8.not_lt.mpr addressed.1, UInt8.not_lt.mpr addressed.2⟩
  have quantity : seg.qty ≠ 0 := by
    intro none
    rw [none] at asked
    exact absurd asked (by decide)
  rw [buildRequest, readRequest, if_neg accepted]
  simp [requestPdu, isReadCode_fcForRead, quantity, appendMbap]

/-- The answer with the cells of a segment carries them. -/
theorem carries_cells (tid : UInt16) {values : List UInt16} {cell : Nat → UInt16}
    (same : values = (List.range seg.qty.toNat).map fun i => cell (seg.startAddr.toNat + i)) :
    Carries seg cell ((Answer.cells values).response { readRequest seg with transactionId := tid }) := by
  subst same
  constructor
  · intro bits
    have code : isBitCode (fcForRead seg.rt) = true := (isBitCode_fcForRead seg.rt).trans bits
    simp only [Answer.response, readRequest, code, if_true, cellData, List.length_map, List.length_range]
    apply packBits_congr
    intro i below
    simp [below]
  · intro registers
    have code : isBitCode (fcForRead seg.rt) = false := (isBitCode_fcForRead seg.rt).trans registers
    simp only [Answer.response, readRequest, code, Bool.false_eq_true, if_false]

/-- Over a link that passes, the poll is answered as the transport serves it. -/
theorem polled_passes [Zero K] {injector : Option (FaultInjector K)} (tid : UInt16)
    (passes : (RtuSlavePort.effectOn injector seg.slave).Passes)
    (built : buildRequest { readRequest seg with transactionId := tid } ≠ []) (size : seg.qty.toNat ≤ maxQty seg.rt) :
    polled slaves injector bank seg tid =
      (serveFrame (dispatchHandler slaves) .tcp bank
        (buildRequest { readRequest seg with transactionId := tid })).1.bind parseTcpResponse := by
  have within : (readRequest seg).quantity.toNat ≤ quantityLimit (readRequest seg).functionCode := by
    rw [show (readRequest seg).functionCode = fcForRead seg.rt from rfl, quantityLimit_fcForRead]
    exact size
  obtain ⟨pdu, encoded, framed⟩ := built_frame built
  have arrives := decode_requestPdu encoded within
  have front : mbapRequest (buildRequest { readRequest seg with transactionId := tid }) =
      some (⟨tid, 0, UInt16.ofNat (1 + pdu.length), seg.slave⟩, pdu) := by
    rw [framed]
    exact mbapRequest_framed tid seg.slave arrives.filled arrives.short
  rw [← clientTurn_passes (dispatchHandler slaves) (fun _ => RtuSlavePort.effectOn injector) bank front passes,
    Option.bind_map]
  rfl

/-- A segment whose cells are all there is answered with them over a link that passes. -/
theorem polled_covered [Zero K] {injector : Option (FaultInjector K)} (tid : UInt16)
    (passes : (RtuSlavePort.effectOn injector seg.slave).Passes) (addressable : bank.Addressable)
    (listed : seg.slave ∈ slaves) (held : bank seg.slave = some regs) (addressed : 1 ≤ seg.slave ∧ seg.slave ≤ 247)
    (size : 1 ≤ seg.qty.toNat ∧ seg.qty.toNat ≤ maxQty seg.rt)
    (inside : seg.startAddr.toNat + seg.qty.toNat ≤ regs.cellCount (simType seg.rt)) :
    ∃ resp, polled slaves injector bank seg tid = some resp ∧ resp.isException = false ∧
      Carries seg (regs.cellValue (simType seg.rt)) resp := by
  let req : ModbusRequest := { readRequest seg with transactionId := tid }
  have within : req.quantity.toNat ≤ quantityLimit req.functionCode := by
    rw [show req.functionCode = fcForRead seg.rt from rfl, quantityLimit_fcForRead]
    exact size.2
  obtain ⟨-, -, answer⟩ := @request_refined req slaves bank addressable (built_readRequest tid addressed size.1) within
  have command : commandOf req = .read (fcForRead seg.rt) seg.startAddr seg.qty := if_pos (isReadCode_fcForRead seg.rt)
  have loaded : regs.image.load (simType seg.rt) seg.startAddr.toNat seg.qty.toNat =
      some ((List.range seg.qty.toNat).map fun i => regs.cellValue (simType seg.rt) (seg.startAddr.toNat + i)) := by
    apply Memory.load_of_cells
    intro i below
    exact SlaveRegset.image_inside (by omega)
  have device : bank.image slaves seg.slave = some regs.image := by
    rw [RegisterBank.image, if_pos listed, held]
    rfl
  have obeyed : ((bank.image slaves).obey seg.slave (commandOf req)).2 =
      .cells ((List.range seg.qty.toNat).map fun i => regs.cellValue (simType seg.rt) (seg.startAddr.toNat + i)) := by
    rw [RemoteDevice.obey, device, command]
    simp only [RemoteMemory.obey, areaOf_fcForRead, loaded]
  have parsed : polled slaves injector bank seg tid =
      some (((bank.image slaves).obey seg.slave (commandOf req)).2.response req) := by
    rw [polled_passes tid passes (built_readRequest tid addressed size.1) size.2]
    exact (List.cons.inj answer).1
  rw [obeyed] at parsed
  exact ⟨_, parsed, rfl, carries_cells tid rfl⟩

end Polls

section Tables
variable {K : Type} {table : PointTable K} {sim : LoadedSimTable K} {seg : Segment K}

/-- A segment ends in the slack behind the last point of its slave. -/
theorem planned_inside {points : List (LoadedPoint K)} (here : table.Indexed points.reverse)
    (same : ∀ slave, sim.onSlave slave = (points.filter fun p => p.slaveAddress == slave).map sharedPoint)
    (planned : seg ∈ buildSegments (table.allPoints.map (·.toPointRuntime))) :
    seg.slave ∈ sim.table.allSlaveIds ∧
      seg.startAddr.toNat + seg.qty.toNat ≤ maxAddr (sim.table.onSlave seg.slave) + 16 := by
  have plan := planned_buildSegments (table.allPoints.map (·.toPointRuntime))
  have size := plan.size seg planned
  obtain ⟨pr, holds, -, high⟩ := plan.tight seg planned (seg.startAddr.toNat + seg.qty.toNat - 1) (by omega) (by omega)
  obtain ⟨member, reads⟩ := reads_buildSegments planned holds
  obtain ⟨p, inside, rfl⟩ := List.mem_map.mp member
  have listed : sharedPoint p ∈ sim.onSlave seg.slave := by
    rw [same seg.slave]
    apply List.mem_map_of_mem
    rw [here.allPoints, List.mem_reverse] at inside
    exact List.mem_filter.mpr ⟨inside, beq_iff_eq.mpr reads.slave⟩
  constructor
  · rw [LoadedSimTable.allSlaveIds_table, LoadedSimTable.mem_allSlaveIds]
    exact List.ne_nil_of_mem listed
  · have point : (sharedPoint p).toSimPoint ∈ sim.table.onSlave seg.slave := by
      rw [LoadedSimTable.onSlave_table]
      exact List.mem_map_of_mem listed
    have top : p.registerAddr.toNat ≤ maxAddr (sim.table.onSlave seg.slave) := registerAddr_le_maxAddr point
    have width := pointWidth_le p.toPointRuntime
    omega

end Tables

section Station
variable {K : Type} [Arithmetic K] {num : NumberReading K} {long : LongWidth} {root : Json K} {table : PointTable K}

/-- The poll of a segment is answered, and each of its points is decoded from the registers of its slave. -/
def Answered (cv : Conversions K) (slaves : List UInt8) (injector : Option (FaultInjector K)) (bank : RegisterBank)
    (seg : Segment K) (tid : UInt16) : Prop :=
  ∃ resp regs, polled slaves injector bank seg tid = some resp ∧ resp.isException = false ∧ bank seg.slave = some regs ∧
    ∀ pr ∈ seg.points, decodePoint cv seg resp pr = some (pointReading cv (regs.cellValue (simType seg.rt)) pr)

/-- Where both programs run on one file, the poll of any segment is answered and all of its points are
decoded, whatever masters have asked for and whatever faults have struck or are on, as long as none of
them drops or changes the replies of the segment's slave. -/
theorem segments_answered (cv : Conversions K) (rd : Rounding K)
    (loaded : loadFromJsonFile num long (.document root) = .ok table)
    (plain : ∀ j ∈ (PointFile.document root).elements, PlainAddress j) :
    ∃ sim, LoadedSimTable.loadFromJsonFile num long (.document root) = .ok sim ∧
      (Station.Below sim.table → ∀ tickMs phy events,
        ∀ s ∈ Runs.reached (Station.step rd sim.table.allSlaveIds) (Station.start tickMs sim.table phy) events,
        ∀ seg ∈ buildSegments (table.allPoints.map (·.toPointRuntime)), 1 ≤ seg.slave ∧ seg.slave ≤ 247 →
        ∀ injector : Option (FaultInjector K), (RtuSlavePort.effectOn injector seg.slave).Passes →
          ∀ tid, Answered cv sim.table.allSlaveIds injector s.bank seg tid) := by
  obtain ⟨sim, points, simulated, here, same⟩ := loadFromJsonFile_shared loaded plain
  refine ⟨sim, simulated, ?_⟩
  intro below tickMs phy events s reached seg planned addressed injector passes tid
  have spacious := Station.spacious_run below tickMs phy rd sim.table.allSlaveIds events s reached
  obtain ⟨listed, inside⟩ := planned_inside here same planned
  obtain ⟨regs, held, roomy⟩ := spacious.bank seg.slave listed
  have plan := planned_buildSegments (table.allPoints.map (·.toPointRuntime))
  obtain ⟨resp, parsed, accepted, carries⟩ := polled_covered tid passes spacious.addressable listed held addressed
    (plan.size seg planned) (inside.trans (roomy.least _))
  refine ⟨resp, regs, parsed, accepted, held, ?_⟩
  intro pr holds
  exact carries.decoded cv (plan.reads seg planned pr holds)

end Station

section Example
open EnerSentry.Sim.SimWorld

def rationalNumbers : NumberReading ℚ := ⟨Rat.ofInt, Rat.floor, id⟩

def rationalConversions : Conversions ℚ :=
  ⟨Rat.ofInt, fun w => Rat.ofInt (Int.ofNat w.toNat), fun w => Rat.ofInt (Int.ofNat w.toNat)⟩

def pointOf (pointId slave : Int) (regType dataType address : String) : Json ℚ :=
  .object [("pointId", .integer pointId), ("slaveAddress", .integer slave), ("regType", .string regType),
    ("dataType", .string dataType), ("byteOrder", .string "ABCD"), ("registerAddr", .string address)]

/-- Two slaves with a long word, a word behind it and a coil. -/
def threePoints : Json ℚ :=
  .object [("meta", .object [("schemaVersion", .string "1.1")]),
    ("points", .array [pointOf 1 1 "HoldingRegister" "Int32" "0x1000", pointOf 2 1 "HoldingRegister" "Uint16" "0x1002",
      pointOf 3 2 "Coil" "Bool" "17"])]

theorem segments_answered_three : ∃ table sim,
    loadFromJsonFile rationalNumbers .bits64 (.document threePoints) = .ok table ∧
      LoadedSimTable.loadFromJsonFile rationalNumbers .bits64 (.document threePoints) = .ok sim ∧
      ∀ tickMs phy events,
        ∀ s ∈ Runs.reached (Station.step floored sim.table.allSlaveIds) (Station.start tickMs sim.table phy) events,
        ∀ seg ∈ buildSegments (table.allPoints.map (·.toPointRuntime)),
        ∀ injector : Option (FaultInjector ℚ), (RtuSlavePort.effectOn injector seg.slave).Passes →
          ∀ tid, Answered rationalConversions sim.table.allSlaveIds injector s.bank seg tid := by
  have plain : ∀ j ∈ (PointFile.document threePoints).elements, PlainAddress j := by
    intro j member
    rcases List.mem_cons.mp member with rfl | member
    · intro s found announced
      cases found
      decide
    rcases List.mem_cons.mp member with rfl | member
    · intro s found announced
      cases found
      decide
    rw [List.mem_singleton.mp member]
    intro s found announced
    cases found
    cases announced
  obtain ⟨sim, simulated, answered⟩ :=
    @segments_answered ℚ _ rationalNumbers .bits64 _ _ rationalConversions floored rfl plain
  have fits : (LoadedSimTable.loadFromJsonFile rationalNumbers .bits64 (.document threePoints)).toOption.all
      (fun sim => decide (Station.Below sim.table)) = true := by decide +kernel
  rw [simulated] at fits
  have below : Station.Below sim.table := of_decide_eq_true fits
  refine ⟨_, sim, rfl, simulated, ?_⟩
  intro tickMs phy events s reached seg planned
  refine answered below _ _ events s reached seg planned ?_
  revert seg
  decide +kernel

end Example
end EnerSentry.App
