import EnerSentry.Protocol.ModbusFrame
import EnerSentry.Sim.RegisterBank
import EnerSentry.Sim.ScenarioScript

/-!
The slaves that the simulator makes up from its point table when its configuration lists none, and the
register sets it starts with. The number of registers is a word of 16 bits; it goes round where a point
lies in the last 16 addresses.
-/

namespace EnerSentry.Sim
open EnerSentry.Protocol

/-- One slave of a configuration. -/
structure SlaveSpec where
  slaveId : UInt8 := 0
  kind : DeviceKind := .bms
  transport : Transport := .tcp
  regCount : UInt16 := 0
  deriving DecidableEq, Repr

section Specs
variable {K : Type}

def pcsLike (p : SimPoint K) : Bool := p.named "PCS_" || p.named "Pcs"

def meterLike (p : SimPoint K) : Bool := p.named "Meter" || p.named "ActiveP" || p.named "TotalE"

def auxLike (p : SimPoint K) : Bool := p.named "Liquid" || p.named "Fire"

/-- The kind that the names of a slave's points suggest. A point counts for the first group it fits. -/
def kindOf (points : List (SimPoint K)) : DeviceKind :=
  if points.any pcsLike then .pcs
  else if points.any fun p => !pcsLike p && meterLike p then .meter
  else if points.any fun p => !pcsLike p && !meterLike p && auxLike p then
    if (points.head?.map fun p => p.named "Liquid").getD false then .liquid else .fire
  else .bms

def maxAddr (points : List (SimPoint K)) : Nat := points.foldl (fun top p => max top p.registerAddr.toNat) 0

def fromPointTable (pt : SimPointTable K) : List SlaveSpec :=
  pt.allSlaveIds.map fun id =>
    { slaveId := id
      kind := kindOf (pt.onSlave id)
      transport := if id == 22 || id == 23 then .rtu else .tcp
      -- 16 registers of slack
      regCount := UInt16.ofNat (maxAddr (pt.onSlave id) + 16) }

end Specs

/-- The register set that the engine installs for a slave before the first tick. -/
def SlaveSpec.baseline (spec : SlaveSpec) : SlaveRegset :=
  let regCount := if 0 < spec.regCount then spec.regCount.toNat else 256
  SlaveRegset.allocate spec.slaveId regCount regCount

/-- The bank at the start of the engine. -/
def installBaseline (slaves : List SlaveSpec) : RegisterBank :=
  slaves.foldl (fun bank spec => bank.publish spec.slaveId spec.baseline) fun _ => none

section Baseline
variable {K : Type} {pt : SimPointTable K} {slave : UInt8} {p : SimPoint K} {points : List (SimPoint K)}

theorem le_foldl_max (top : Nat) : top ≤ points.foldl (fun top p => max top p.registerAddr.toNat) top ∧
    ∀ p ∈ points, p.registerAddr.toNat ≤ points.foldl (fun top p => max top p.registerAddr.toNat) top := by
  induction points generalizing top with
  | nil => exact ⟨Nat.le_refl top, fun p none => absurd none List.not_mem_nil⟩
  | cons q points ih =>
    obtain ⟨start, each⟩ := ih (max top q.registerAddr.toNat)
    refine ⟨(Nat.le_max_left _ _).trans start, fun p member => ?_⟩
    rcases List.mem_cons.mp member with rfl | later
    · exact (Nat.le_max_right _ _).trans start
    · exact each p later

theorem registerAddr_le_maxAddr (member : p ∈ points) : p.registerAddr.toNat ≤ maxAddr points :=
  (le_foldl_max 0).2 p member

theorem ids_fromPointTable (pt : SimPointTable K) : (fromPointTable pt).map (·.slaveId) = pt.allSlaveIds := by
  rw [fromPointTable, List.map_map]
  exact List.map_id _

/-- A slave that is listed starts with one of its own register sets. -/
theorem installBaseline_listed {slaves : List SlaveSpec} (listed : slave ∈ slaves.map (·.slaveId)) :
    ∃ spec ∈ slaves, spec.slaveId = slave ∧ installBaseline slaves slave = some spec.baseline := by
  induction slaves using List.reverseRecOn with
  | nil => cases listed
  | append_singleton slaves last ih =>
    have installed : installBaseline (slaves ++ [last]) =
        (installBaseline slaves).publish last.slaveId last.baseline := List.foldl_concat ..
    rw [installed]
    by_cases own : last.slaveId = slave
    · subst own
      exact ⟨last, List.mem_append_right _ (List.mem_singleton.mpr rfl), rfl, RegisterBank.publish_same ..⟩
    · rw [List.map_append, List.mem_append] at listed
      have earlier : slave ∈ slaves.map (·.slaveId) := by
        rcases listed with earlier | new
        · exact earlier
        · exact absurd (List.mem_singleton.mp new).symm own
      obtain ⟨spec, member, named, held⟩ := ih earlier
      refine ⟨spec, List.mem_append_left _ member, named, ?_⟩
      rw [RegisterBank.publish_other _ _ (Ne.symm own)]
      exact held

/-- Away from the last addresses a slave starts with 16 registers behind its last point. -/
theorem baseline_fromPointTable (listed : slave ∈ pt.allSlaveIds) (room : maxAddr (pt.onSlave slave) + 16 < 65536) :
    installBaseline (fromPointTable pt) slave = some (SlaveRegset.allocate slave (maxAddr (pt.onSlave slave) + 16)
      (maxAddr (pt.onSlave slave) + 16)) := by
  rw [← ids_fromPointTable] at listed
  obtain ⟨spec, member, named, held⟩ := installBaseline_listed listed
  obtain ⟨id, -, rfl⟩ := List.mem_map.mp member
  obtain rfl : id = slave := named
  have count : (UInt16.ofNat (maxAddr (pt.onSlave id) + 16)).toNat = maxAddr (pt.onSlave id) + 16 := by
    rw [UInt16.toNat_ofNat']
    exact Nat.mod_eq_of_lt room
  have positive : 0 < UInt16.ofNat (maxAddr (pt.onSlave id) + 16) := by
    rw [UInt16.lt_iff_toNat_lt, count]
    exact Nat.succ_pos _
  rw [held, SlaveSpec.baseline, if_pos positive, count]

end Baseline
end EnerSentry.Sim
