import Mathlib.Tactic.LinearCombination
import EnerSentry.Lib.Drift
import EnerSentry.Lib.Interpolation
import EnerSentry.Sim.FaultInterference
import EnerSentry.Sim.Station

/-!
The physics of the simulated devices over whole runs. A slave's state is moved by its own turns only, so the
number of them says where it is: neither faults nor the writes of masters reach it. For a battery both values
that move have a closed form, the charge between its bounds and the temperature on its way to a balance.
-/

namespace EnerSentry.Sim
open EnerSentry.Lib

namespace PointGenerator
section Turns
variable {K : Type*} [Arithmetic K] (rd : Rounding K) (g : PointGenerator K) (slave : UInt8) (dtS : K)

/-- What a turn makes of the values that the device of the slave keeps. -/
def turned (st : SlaveRuntimeState K) : SlaveRuntimeState K :=
  match inferKindFromName (g.onSlave slave) with
  | .bms => g.evolvedBms dtS st
  | .pcs => { st with
      pcsActiveKw := g.phy.pcsActiveKwSetpoint
      pcsReactiveKvar := g.phy.pcsReactiveKvarSetpoint
      pcsLineV := g.phy.pcsLineV0
      pcsFreqHz := g.phy.pcsFreqHz0 }
  | .meter => st
  | .liquid => st
  | .fire => st

theorem evolve_state : (g.evolve rd slave dtS).state =
    Function.update g.state slave (g.turned slave dtS (g.state slave)) ∧ (g.evolve rd slave dtS).phy = g.phy := by
  unfold evolve turned
  cases inferKindFromName (g.onSlave slave) with
  | bms => exact ⟨rfl, rfl⟩
  | pcs => exact ⟨rfl, rfl⟩
  | meter => exact ⟨(Function.update_eq_self ..).symm, rfl⟩
  | liquid => exact ⟨(Function.update_eq_self ..).symm, rfl⟩
  | fire => exact ⟨(Function.update_eq_self ..).symm, rfl⟩

theorem generateSlave_state (fi : Option (FaultInjector K)) : (g.generateSlave rd fi slave).state =
    Function.update g.state slave (g.turned slave (ratio g.tickMs.toNat 1000) (g.state slave)) ∧
      (g.generateSlave rd fi slave).phy = g.phy :=
  evolve_state rd g slave _

end Turns
end PointGenerator

namespace Station
section Counting
variable {K : Type} [Arithmetic K] {pt : SimPointTable K} {tickMs : UInt32} {phy : PhysicsConstants K}
  {s : Station K} {slave : UInt8}

/-- The generator still works on its configuration, in working copies with room for every point. -/
structure Configured (pt : SimPointTable K) (tickMs : UInt32) (phy : PhysicsConstants K) (s : Station K) : Prop where
  slaves : s.generator.slaves = pt.allSlaveIds
  table : s.generator.onSlave = pt.onSlave
  tick : s.generator.tickMs = tickMs
  physics : s.generator.phy = phy
  room : ∀ slave ∈ pt.allSlaveIds, ∀ t, maxAddr (pt.onSlave slave) < (s.generator.work slave).cellCount t

theorem configured_start (tickMs : UInt32) (phy : PhysicsConstants K) :
    Configured pt tickMs phy (start tickMs pt phy) where
  slaves := rfl
  table := rfl
  tick := rfl
  physics := rfl
  room := by
    intro slave listed t
    have copied : (start tickMs pt phy).generator.work slave =
        SlaveRegset.allocate slave (PointGenerator.workSize (pt.onSlave slave))
          (PointGenerator.workSize (pt.onSlave slave)) := if_pos listed
    have size : PointGenerator.workSize (pt.onSlave slave) = max (maxAddr (pt.onSlave slave) + 16) 128 := rfl
    rw [copied, size]
    cases t <;> simp [SlaveRegset.cellCount, SlaveRegset.allocate] <;> omega

theorem Configured.step (configured : Configured pt tickMs phy s) (rd : Rounding K) (slaves : List UInt8)
    (event : StationEvent K) : Configured pt tickMs phy (s.step rd slaves event).1 := by
  cases event with
  | frame transport bytes =>
    exact ⟨configured.slaves, configured.table, configured.tick, configured.physics, configured.room⟩
  | turn slave injector =>
    simp only [Station.step]
    split
    · obtain ⟨table, slaves', tick, rest⟩ := PointGenerator.generateSlave_frame rd injector s.generator slave
      have physics := (PointGenerator.generateSlave_state rd s.generator slave injector).2
      refine ⟨slaves'.trans configured.slaves, table.trans configured.table, tick.trans configured.tick,
        physics.trans configured.physics, fun other known t => ?_⟩
      by_cases own : other = slave
      · subst own
        rw [(sameCells_generateSlave rd s.generator other injector).counts t]
        exact configured.room other known t
      · rw [rest other own]
        exact configured.room other known t
    · exact configured

theorem configured_run (rd : Rounding K) (slaves : List UInt8) (events : List (StationEvent K)) :
    Configured pt tickMs phy (Runs.run (step rd slaves) (start tickMs pt phy) events) :=
  Runs.reached_always (step rd slaves) events (configured_start tickMs phy)
    (fun _ event kept => kept.step rd slaves event) _ Runs.run_mem_reached

def isTurnOf (slave : UInt8) : StationEvent K → Bool
  | .frame _ _ => false
  | .turn other _ => other == slave

/-- What a turn of the slave makes of its state, under the configuration. -/
def turnOf (tickMs : UInt32) (pt : SimPointTable K) (phy : PhysicsConstants K) (slave : UInt8) :
    SlaveRuntimeState K → SlaveRuntimeState K :=
  (start tickMs pt phy).generator.turned slave (ratio tickMs.toNat 1000)

theorem Configured.turned (configured : Configured pt tickMs phy s) :
    s.generator.turned slave (ratio s.generator.tickMs.toNat 1000) = turnOf tickMs pt phy slave := by
  funext st
  simp only [turnOf, PointGenerator.turned, PointGenerator.evolvedBms, configured.table, configured.tick,
    configured.physics]
  rfl

theorem Configured.step_state (configured : Configured pt tickMs phy s) (listed : slave ∈ pt.allSlaveIds)
    (rd : Rounding K) (slaves : List UInt8) (event : StationEvent K) :
    (s.step rd slaves event).1.generator.state slave =
      if isTurnOf slave event then turnOf tickMs pt phy slave (s.generator.state slave)
      else s.generator.state slave := by
  cases event with
  | frame transport bytes => rfl
  | turn other injector =>
    have state := (PointGenerator.generateSlave_state rd s.generator other injector).1
    simp only [Station.step, isTurnOf, beq_iff_eq]
    by_cases own : other = slave
    · subst own
      rw [if_pos rfl, if_pos (configured.slaves ▸ listed), state, Function.update_self, configured.turned]
    · rw [if_neg own]
      split
      · rw [state, Function.update_of_ne (Ne.symm own)]
      · rfl

theorem turnOf_battery (kind : inferKindFromName (pt.onSlave slave) = .bms) (st : SlaveRuntimeState K) :
    turnOf tickMs pt phy slave st = (start tickMs pt phy).generator.evolvedBms (ratio tickMs.toNat 1000) st := by
  have own : inferKindFromName ((start tickMs pt phy).generator.onSlave slave) = .bms := kind
  rw [turnOf, PointGenerator.turned, own]

/-- A slave's state after any run: as many turns as the slave had, and nothing else, have moved it. -/
theorem state_run (listed : slave ∈ pt.allSlaveIds) (rd : Rounding K) (slaves : List UInt8)
    (events : List (StationEvent K)) :
    (Runs.run (step rd slaves) (start tickMs pt phy) events).generator.state slave =
      (turnOf tickMs pt phy slave)^[events.countP (isTurnOf slave)] {} := by
  induction events using List.reverseRecOn with
  | nil => rfl
  | append_singleton events event ih =>
    have configured : Configured pt tickMs phy _ := configured_run rd slaves events
    rw [Runs.run_concat, configured.step_state listed, ih, List.countP_append, List.countP_singleton]
    cases isTurnOf slave event with
    | false => rfl
    | true =>
      rw [if_pos rfl, if_pos rfl, Function.iterate_succ_apply']

end Counting

section Published
variable {K : Type} [Arithmetic K] {pt : SimPointTable K} {tickMs : UInt32} {phy : PhysicsConstants K}
  {s : Station K} {slave : UInt8} {p : SimPoint K} {reading : SlaveRuntimeState K → K}

/-- A holding register that shows one value of a battery: the name of its point leads to this value, no other
point of the slave uses the register, and the alarm word has no place there. -/
structure Shows (pt : SimPointTable K) (slave : UInt8) (p : SimPoint K) (reading : SlaveRuntimeState K → K) : Prop where
  battery : inferKindFromName (pt.onSlave slave) = .bms
  member : p ∈ pt.onSlave slave
  enabled : p.enabled = true
  holding : p.regType = .holdingRegister
  named : ∀ st, ∃ key, (PointGenerator.bmsRoutes st).find? (fun route => p.named route.1) = some (key, reading st)
  sole : ∀ q ∈ pt.onSlave slave, q.regType = .holdingRegister → q.registerAddr = p.registerAddr → q = p
  plain : p.isAlarmWord = false

/-- The charge is shown wherever a name mentions it. -/
theorem routes_charge (charge : p.named "SOC" = true) (st : SlaveRuntimeState K) :
    ∃ key, (PointGenerator.bmsRoutes st).find? (fun route => p.named route.1) = some (key, st.socPct) :=
  ⟨"SOC", List.find?_cons_of_pos charge⟩

/-- What a master finds in the register of a point. -/
def shown (s : Station K) (slave : UInt8) (p : SimPoint K) : Option UInt16 :=
  (s.bank slave).bind fun regs => regs.cell p.regType p.registerAddr

/-- No fault is laid over the point. -/
def Unfaulted (injector : Option (FaultInjector K)) (slave : UInt8) (p : SimPoint K) : Prop :=
  ∀ fi, injector = some fi → PointGenerator.faultOn fi slave p = none

theorem Shows.free (shows : Shows pt slave p reading) (configured : Configured pt tickMs phy s) :
    s.generator.isSlot slave .holdingRegister p.registerAddr = false := by
  rw [PointGenerator.isSlot, configured.table, BEq.rfl, Bool.true_and]
  cases slot : PointGenerator.alarmSlot (pt.onSlave slave) with
  | none => rfl
  | some q =>
    have marked := List.find?_some slot
    simp only [Bool.and_eq_true, beq_iff_eq] at marked
    rw [Option.any_some, beq_eq_false_iff_ne]
    intro here
    have own : q = p := shows.sole q (List.mem_of_find?_eq_some slot) marked.1.2 here
    rw [own, shows.plain] at marked
    exact absurd marked.2 Bool.false_ne_true

theorem Shows.evolvedPut (shows : Shows pt slave p reading) (configured : Configured pt tickMs phy s)
    (rd : Rounding K) : s.generator.evolvedPut rd slave .holdingRegister p.registerAddr =
      some (PointGenerator.encodeFloat32AsHolding rd
        (reading (turnOf tickMs pt phy slave (s.generator.state slave))) p.scaleFactor) := by
  have kind : inferKindFromName (s.generator.onSlave slave) = .bms := by rw [configured.table, shows.battery]
  have value : s.generator.evolvedValue rd slave (ratio s.generator.tickMs.toNat 1000) p =
      some (PointGenerator.encodeFloat32AsHolding rd
        (reading (turnOf tickMs pt phy slave (s.generator.state slave))) p.scaleFactor) := by
    have turned : s.generator.evolvedBms (ratio s.generator.tickMs.toNat 1000) (s.generator.state slave) =
        turnOf tickMs pt phy slave (s.generator.state slave) := by
      rw [← configured.turned, PointGenerator.turned, kind]
    have on : (p.enabled && p.regType == .holdingRegister) = true := by
      rw [shows.enabled, shows.holding]
      rfl
    obtain ⟨key, route⟩ := shows.named (turnOf tickMs pt phy slave (s.generator.state slave))
    rw [PointGenerator.evolvedValue, kind]
    simp only [turned, PointGenerator.routedValue, if_pos on, route, Option.map_some]
  apply Overwriting.lastPut_sole (x := p)
  · rw [configured.table]
    exact shows.member
  · rw [SimPoint.aimed, if_pos ⟨shows.holding, rfl⟩, value]
  · intro q member puts
    rw [SimPoint.isSome_aimed, Bool.and_eq_true, Bool.and_eq_true, beq_iff_eq, beq_iff_eq] at puts
    exact shows.sole q (configured.table ▸ member) puts.1.1 puts.1.2

/-- A register that no fault touches, after a turn: what the physics put there, if the slave has it. -/
theorem cell_unfaulted (injector : Option (FaultInjector K)) (rd : Rounding K) (g : PointGenerator K)
    {t : RegisterType} {a : UInt16} (word : isWordType t = true) (free : g.isSlot slave t a = false)
    (unfaulted : ∀ fi, injector = some fi → g.laidPut rd fi slave t a = none) :
    ((g.generateSlave rd injector slave).work slave).cell t a =
      Overwriting.overwrite (g.evolvedPut rd slave t a) ((g.work slave).cell t a) := by
  cases injector with
  | some fi => rw [PointGenerator.cell_generateSlave word free, unfaulted fi rfl, Option.none_or]
  | none =>
    obtain ⟨table, -⟩ := PointGenerator.evolve_frame rd g slave (ratio g.tickMs.toNat 1000)
    have slot : (g.evolve rd slave (ratio g.tickMs.toNat 1000)).isSlot slave t a = false := by
      rwa [PointGenerator.isSlot, table]
    rw [PointGenerator.generateSlave, PointGenerator.setWork_work, PointGenerator.cell_placeAlarmWord _ slot,
      PointGenerator.overlayFaults, PointGenerator.cell_evolve word]
    rfl

theorem Shows.laidPut (shows : Shows pt slave p reading) (configured : Configured pt tickMs phy s) (rd : Rounding K)
    {fi : FaultInjector K} (free : PointGenerator.faultOn fi slave p = none) :
    s.generator.laidPut rd fi slave .holdingRegister p.registerAddr = none := by
  rw [← Option.isNone_iff_eq_none, ← Option.isSome_eq_false_iff, PointGenerator.isSome_laidPut, PointGenerator.laid,
    configured.table, List.any_eq_false]
  intro q member
  simp only [Bool.and_eq_true, beq_iff_eq, not_and]
  intro here
  rw [shows.sole q member here.1 here.2, free]
  exact Bool.false_ne_true

/-- After an unfaulted turn masters find the encoding of the value that the turn has made. -/
theorem Shows.after_turn (shows : Shows pt slave p reading) (configured : Configured pt tickMs phy s)
    (listed : slave ∈ pt.allSlaveIds) (rd : Rounding K) (slaves : List UInt8)
    {injector : Option (FaultInjector K)} (unfaulted : Unfaulted injector slave p) :
    shown (s.step rd slaves (.turn slave injector)).1 slave p =
      some (PointGenerator.encodeFloat32AsHolding rd
        (reading (turnOf tickMs pt phy slave (s.generator.state slave))) p.scaleFactor) := by
  have present : ((s.generator.work slave).cell .holdingRegister p.registerAddr).isSome = true := by
    have room := configured.room slave listed .holdingRegister
    have inside := registerAddr_le_maxAddr shows.member
    rw [SlaveRegset.cellCount] at room
    rw [SlaveRegset.cell, isSome_getElem?]
    omega
  obtain ⟨held, found⟩ := Option.isSome_iff_exists.mp present
  have turned := cell_unfaulted injector rd s.generator rfl (shows.free configured)
    fun fi given => shows.laidPut configured rd (unfaulted fi given)
  have published : (s.step rd slaves (.turn slave injector)).1.bank slave =
      some ((s.generator.generateSlave rd injector slave).work slave) := by
    simp only [Station.step]
    rw [if_pos (configured.slaves ▸ listed)]
    exact RegisterBank.publish_same ..
  rw [shown, published, Option.bind_some, shows.holding, turned, shows.evolvedPut configured, found]
  rfl

end Published
end Station

section Battery
variable {K : Type} [Field K] [LinearOrder K]

@[reducible] def orderedArithmetic (K : Type) [Field K] [LinearOrder K] : Arithmetic K where

attribute [local instance] orderedArithmetic

namespace PointGenerator

theorem ocvFromSoc_eq (socPct : K) : ocvFromSoc socPct =
    Interpolation.interpolate (fun i => ((kOcvTableSocPct.getD i 0 : Int) : K))
      (fun i => ratio (kOcvTableVolts.getD i 0) 100) 11 socPct := by
  simp only [ocvFromSoc, Interpolation.interpolate]
  generalize (List.range 11).find? _ = found
  cases found <;> rfl

section Curve
variable [IsStrictOrderedRing K]

theorem soc_ascends : ∀ i < 11, ((kOcvTableSocPct.getD i 0 : Int) : K) < (kOcvTableSocPct.getD (i + 1) 0 : Int) := by
  have table : ∀ i < 11, kOcvTableSocPct.getD i 0 < kOcvTableSocPct.getD (i + 1) 0 := by decide
  intro i inside
  exact Int.cast_lt.mpr (table i inside)

theorem volts_rise : ∀ i < 11,
    (ratio (kOcvTableVolts.getD i 0) 100 : K) ≤ ratio (kOcvTableVolts.getD (i + 1) 0) 100 := by
  have table : ∀ i < 11, kOcvTableVolts.getD i 0 ≤ kOcvTableVolts.getD (i + 1) 0 := by decide
  intro i inside
  have hundred : (0 : K) ≤ ((100 : Int) : K) := Int.cast_nonneg (by decide)
  exact div_le_div_of_nonneg_right (Int.cast_le.mpr (table i inside)) hundred

/-- More charge never means less voltage. -/
theorem ocvFromSoc_mono : Monotone fun soc : K => ocvFromSoc soc := by
  intro soc soc' less
  simp only [ocvFromSoc_eq]
  exact Interpolation.interpolate_mono soc_ascends volts_rise less

/-- At a charge of the table the voltage is the table's, and nowhere is it outside the table's. -/
theorem ocvFromSoc_knot {i : Nat} (inside : i ≤ 11) :
    ocvFromSoc ((kOcvTableSocPct.getD i 0 : Int) : K) = ratio (kOcvTableVolts.getD i 0) 100 := by
  rw [ocvFromSoc_eq]
  exact Interpolation.interpolate_knot soc_ascends inside

theorem ocvFromSoc_bounds (soc : K) : ratio 250 100 ≤ ocvFromSoc soc ∧ ocvFromSoc soc ≤ ratio 365 100 := by
  rw [ocvFromSoc_eq]
  exact Interpolation.interpolate_bounds soc_ascends volts_rise soc

theorem encode_mono {rd : Rounding K} {scale : K} (finite : ∀ x, rd.finite x = true)
    (rounds : ∀ x y, x ≤ y → rd.round x ≤ rd.round y) (positive : 0 < scale) {eng eng' : K} (less : eng ≤ eng') :
    encodeFloat32AsHolding rd eng scale ≤ encodeFloat32AsHolding rd eng' scale := by
  have given (x : K) : ¬(scale = 0 ∨ rd.finite x = false) := by
    rintro (none | infinite)
    · exact absurd none positive.ne'
    · exact absurd (finite x) (by rw [infinite]; exact Bool.false_ne_true)
  have raw : rd.round (eng / scale) ≤ rd.round (eng' / scale) :=
    rounds _ _ (div_le_div_of_nonneg_right less positive.le)
  simp only [encodeFloat32AsHolding, if_neg (given _)]
  generalize rd.round (eng / scale) = low at raw
  generalize rd.round (eng' / scale) = high at raw
  rw [UInt16.le_iff_toNat_le, UInt16.toNat_ofNat', UInt16.toNat_ofNat']
  omega

end Curve
end PointGenerator

namespace Station
variable {pt : SimPointTable K} {slave : UInt8}

/-- The charge that a turn takes from a battery, in percent. -/
def drain (tickMs : UInt32) (phy : PhysicsConstants K) : K :=
  phy.bmsCurrentASetpoint / (phy.capacityAh * (3600 : Int)) * (100 : Int) * ratio tickMs.toNat 1000

/-- The temperature at which a battery gives off the heat that its current makes. -/
def balance (phy : PhysicsConstants K) : K :=
  phy.tAmb + phy.kHeat * phy.bmsCurrentASetpoint * phy.bmsCurrentASetpoint * phy.rInt / phy.kCool

section Turns
variable {tickMs : UInt32} {phy : PhysicsConstants K}

theorem soc_semiconj (kind : inferKindFromName (pt.onSlave slave) = .bms) :
    Function.Semiconj SlaveRuntimeState.socPct (turnOf tickMs pt phy slave)
      fun soc => Drift.clip 0 ((100 : Int) : K) (soc + -drain tickMs phy) := by
  intro st
  have change : -phy.bmsCurrentASetpoint / (phy.capacityAh * (3600 : Int)) * (100 : Int) * ratio tickMs.toNat 1000 =
      -drain tickMs phy := by rw [neg_div, neg_mul, neg_mul, drain]
  rw [turnOf_battery kind, ← change]
  rfl

theorem temperature_semiconj (kind : inferKindFromName (pt.onSlave slave) = .bms) (cools : phy.kCool ≠ 0) :
    Function.Semiconj SlaveRuntimeState.avgTempC (turnOf tickMs pt phy slave)
      (Drift.relax (balance phy) (1 - phy.kCool * ratio tickMs.toNat 1000)) := by
  intro st
  have heat : phy.kCool * (phy.kHeat * phy.bmsCurrentASetpoint * phy.bmsCurrentASetpoint * phy.rInt / phy.kCool) =
      phy.kHeat * phy.bmsCurrentASetpoint * phy.bmsCurrentASetpoint * phy.rInt := mul_div_cancel₀ _ cools
  have step : st.avgTempC + (phy.kHeat * phy.bmsCurrentASetpoint * phy.bmsCurrentASetpoint * phy.rInt -
      phy.kCool * (st.avgTempC - phy.tAmb)) * ratio tickMs.toNat 1000 =
      Drift.relax (balance phy) (1 - phy.kCool * ratio tickMs.toNat 1000) st.avgTempC := by
    rw [Drift.relax, balance]
    linear_combination (-ratio tickMs.toNat 1000) * heat
  rw [turnOf_battery kind, ← step]
  rfl

/-- The values that follow from the charge and the temperature. -/
structure Follows (phy : PhysicsConstants K) (st : SlaveRuntimeState K) : Prop where
  current : st.currentA = phy.bmsCurrentASetpoint
  hottest : st.maxTempC = st.avgTempC + 1
  voltage : st.totalV = PointGenerator.totalVoltageFromOcv (PointGenerator.ocvFromSoc st.socPct)

theorem follows_turn (kind : inferKindFromName (pt.onSlave slave) = .bms) (st : SlaveRuntimeState K) :
    Follows phy (turnOf tickMs pt phy slave st) := by
  rw [turnOf_battery kind]
  exact ⟨rfl, rfl, rfl⟩

theorem soc_turns [IsStrictOrderedRing K] (kind : inferKindFromName (pt.onSlave slave) = .bms) (n : Nat) :
    ((turnOf tickMs pt phy slave)^[n] {}).socPct =
      PointGenerator.clamp ((80 : Int) - n * drain tickMs phy) 0 ((100 : Int) : K) := by
  have low : (0 : K) ≤ ((80 : Int) : K) := Int.cast_nonneg (by decide)
  have high : ((80 : Int) : K) ≤ ((100 : Int) : K) := Int.cast_le.mpr (by decide)
  calc ((turnOf tickMs pt phy slave)^[n] {}).socPct
      = (fun soc => Drift.clip 0 ((100 : Int) : K) (soc + -drain tickMs phy))^[n] ((80 : Int) : K) :=
        (soc_semiconj kind).iterate_right n {}
    _ = Drift.clip 0 ((100 : Int) : K) ((80 : Int) + n * -drain tickMs phy) := Drift.iterate_clip low high n
    _ = PointGenerator.clamp ((80 : Int) - n * drain tickMs phy) 0 ((100 : Int) : K) := by
        rw [mul_neg, ← sub_eq_add_neg]
        rfl

theorem temperature_turns (kind : inferKindFromName (pt.onSlave slave) = .bms) (cools : phy.kCool ≠ 0) (n : Nat) :
    ((turnOf tickMs pt phy slave)^[n] {}).avgTempC = balance phy +
      (1 - phy.kCool * ratio tickMs.toNat 1000) ^ n * ((33 : Int) - balance phy) := by
  calc ((turnOf tickMs pt phy slave)^[n] {}).avgTempC
      = (Drift.relax (balance phy) (1 - phy.kCool * ratio tickMs.toNat 1000))^[n] ((33 : Int) : K) :=
        (temperature_semiconj kind cools).iterate_right n {}
    _ = _ := Drift.iterate_relax n

end Turns

/-- A battery in a run of the simulator, after the `n` turns it had so far. Whatever masters send and
whichever faults are active, the charge has gone down by `n` drains as far as its bounds allow, and the
temperature keeps of its distance to the balance the `n`th power of the part that a turn leaves. -/
theorem battery_after_turns [IsStrictOrderedRing K] (tickMs : UInt32) (phy : PhysicsConstants K)
    (listed : slave ∈ pt.allSlaveIds) (kind : inferKindFromName (pt.onSlave slave) = .bms) (cools : phy.kCool ≠ 0)
    (rd : Rounding K) (slaves : List UInt8) (events : List (StationEvent K)) :
    let st := (Runs.run (step rd slaves) (start tickMs pt phy) events).generator.state slave
    let n := events.countP (isTurnOf slave)
    st.socPct = PointGenerator.clamp ((80 : Int) - n * drain tickMs phy) 0 ((100 : Int) : K) ∧
      st.avgTempC = balance phy +
        (1 - phy.kCool * ratio tickMs.toNat 1000) ^ n * ((33 : Int) - balance phy) ∧
      (0 < n → Follows phy st) := by
  intro st n
  have state : st = (turnOf tickMs pt phy slave)^[n] {} := state_run listed rd slaves events
  rw [state]
  refine ⟨soc_turns kind n, temperature_turns kind cools n, ?_⟩
  intro turned
  obtain ⟨before, another⟩ := Nat.exists_eq_succ_of_ne_zero turned.ne'
  rw [another, Function.iterate_succ_apply']
  exact follows_turn kind _

/-- The values of a battery that follow its charge. -/
inductive OfCharge : (SlaveRuntimeState K → K) → Prop where
  | charge : OfCharge SlaveRuntimeState.socPct
  | voltage : OfCharge SlaveRuntimeState.totalV

section Order
variable [IsStrictOrderedRing K] (tickMs : UInt32) {phy : PhysicsConstants K} {reading : SlaveRuntimeState K → K}

theorem OfCharge.le (ofCharge : OfCharge reading) {st st' : SlaveRuntimeState K} (follows : Follows phy st)
    (follows' : Follows phy st') (less : st.socPct ≤ st'.socPct) : reading st ≤ reading st' := by
  cases ofCharge with
  | charge => exact less
  | voltage =>
    rw [follows.voltage, follows'.voltage]
    exact PointGenerator.ocvFromSoc_mono less

/-- The more turns, the less of the drain is left in the battery. -/
theorem soc_order (kind : inferKindFromName (pt.onSlave slave) = .bms) {n m : Nat} (later : n ≤ m) :
    (0 ≤ drain tickMs phy →
      ((turnOf tickMs pt phy slave)^[m] {}).socPct ≤ ((turnOf tickMs pt phy slave)^[n] {}).socPct) ∧
    (drain tickMs phy ≤ 0 →
      ((turnOf tickMs pt phy slave)^[n] {}).socPct ≤ ((turnOf tickMs pt phy slave)^[m] {}).socPct) := by
  have bounds : (0 : K) ≤ ((100 : Int) : K) := Int.cast_nonneg (by decide)
  have turns : (n : K) ≤ m := Nat.cast_le.mpr later
  rw [soc_turns kind, soc_turns kind]
  constructor
  · intro drains
    exact Drift.clip_mono bounds (sub_le_sub_left (mul_le_mul_of_nonneg_right turns drains) _)
  · intro charges
    exact Drift.clip_mono bounds (sub_le_sub_left (mul_le_mul_of_nonpos_right turns charges) _)

theorem drain_sign (capacity : 0 < phy.capacityAh) : (0 ≤ phy.bmsCurrentASetpoint → 0 ≤ drain tickMs phy) ∧
    (phy.bmsCurrentASetpoint ≤ 0 → drain tickMs phy ≤ 0) := by
  have seconds : (0 : K) < ((3600 : Int) : K) := Int.cast_pos.mpr (by decide)
  have hundred : (0 : K) ≤ ((100 : Int) : K) := Int.cast_nonneg (by decide)
  have time : (0 : K) ≤ ratio tickMs.toNat 1000 :=
    div_nonneg (Int.cast_nonneg (Int.natCast_nonneg _)) (Int.cast_nonneg (by decide))
  have whole := (mul_pos capacity seconds).le
  constructor
  · intro out
    exact mul_nonneg (mul_nonneg (div_nonneg out whole) hundred) time
  · intro fill
    exact mul_nonpos_of_nonpos_of_nonneg
      (mul_nonpos_of_nonpos_of_nonneg (div_nonpos_of_nonpos_of_nonneg fill whole) hundred) time

end Order

/-- Two turns of a battery in one run, with any frames, faults and other turns before and between them. What
masters find in a register of its charge or its voltage after the later one is no more than after the earlier
one while the battery is discharged, and no less while it is charged. -/
theorem published_in_order [IsStrictOrderedRing K] {p : SimPoint K} {reading : SlaveRuntimeState K → K}
    (tickMs : UInt32) {phy : PhysicsConstants K} (listed : slave ∈ pt.allSlaveIds)
    (shows : Shows pt slave p reading) (ofCharge : OfCharge reading) {rd : Rounding K}
    (finite : ∀ x, rd.finite x = true) (rounds : ∀ x y, x ≤ y → rd.round x ≤ rd.round y) (positive : 0 < p.scaleFactor)
    (capacity : 0 < phy.capacityAh) (slaves : List UInt8) (before between : List (StationEvent K))
    {first second : Option (FaultInjector K)} (unfaulted : Unfaulted first slave p)
    (unfaulted' : Unfaulted second slave p) :
    let run := fun events => Runs.run (step rd slaves) (start tickMs pt phy) events
    ∃ earlier later, shown (run (before ++ [.turn slave first])) slave p = some earlier ∧
      shown (run (before ++ .turn slave first :: between ++ [.turn slave second])) slave p = some later ∧
      (0 ≤ phy.bmsCurrentASetpoint → later ≤ earlier) ∧ (phy.bmsCurrentASetpoint ≤ 0 → earlier ≤ later) := by
  intro run
  have after (events : List (StationEvent K)) {injector : Option (FaultInjector K)}
      (unfaulted : Unfaulted injector slave p) : shown (run (events ++ [.turn slave injector])) slave p =
        some (PointGenerator.encodeFloat32AsHolding rd
          (reading ((turnOf tickMs pt phy slave)^[events.countP (isTurnOf slave) + 1] {})) p.scaleFactor) := by
    have configured : Configured pt tickMs phy (run events) := configured_run rd slaves events
    have turned := shows.after_turn configured listed rd slaves unfaulted
    rw [state_run listed, ← Function.iterate_succ_apply' (turnOf tickMs pt phy slave)] at turned
    rw [← turned]
    exact congrArg (shown · slave p) (Runs.run_concat ..)
  have order : before.countP (isTurnOf slave) + 1 ≤
      (before ++ .turn slave first :: between).countP (isTurnOf slave) + 1 := by
    rw [List.countP_append]
    omega
  have follows (n : Nat) : Follows phy ((turnOf tickMs pt phy slave)^[n + 1] {}) := by
    rw [Function.iterate_succ_apply']
    exact follows_turn shows.battery _
  refine ⟨_, _, after before unfaulted, after _ unfaulted', ?_, ?_⟩
  · intro out
    have less := (soc_order tickMs shows.battery order).1 ((drain_sign tickMs capacity).1 out)
    exact PointGenerator.encode_mono finite rounds positive (ofCharge.le (follows _) (follows _) less)
  · intro fill
    have less := (soc_order tickMs shows.battery order).2 ((drain_sign tickMs capacity).2 fill)
    exact PointGenerator.encode_mono finite rounds positive (ofCharge.le (follows _) (follows _) less)

section Example
open SimWorld (floored)

def chargePoint : SimPoint ℚ := { pointName := "BMS1_SOC", scaleFactor := 1 / 10, offset := 0 }

/-- A slave with the charge of a battery and the slot of its alarm word. -/
def batteryTable : SimPointTable ℚ where
  bySlave := [(1, [chargePoint, { pointName := "BMS1_AlarmWord", registerAddr := 8, scaleFactor := 1, offset := 0 }])]

/-- At this current a battery loses one percent in every turn. -/
def discharging : PhysicsConstants ℚ := { bmsCurrentASetpoint := 100800 }

/-- A master writes 7 to the register of the charge. -/
def writeCharge : StationEvent ℚ := .frame .tcp [0, 1, 0, 0, 0, 6, 1, 6, 0, 0, 0, 7]

theorem shows_chargePoint : Shows batteryTable 1 chargePoint SlaveRuntimeState.socPct where
  battery := by decide
  member := List.mem_cons_self
  enabled := rfl
  holding := rfl
  named := routes_charge (by decide)
  sole := by
    intro q member _ same
    rcases List.mem_cons.mp member with own | other
    · exact own
    · rw [List.mem_singleton.mp other] at same
      cases same
  plain := by decide

theorem round_floored (x y : ℚ) (less : x ≤ y) : floored.round x ≤ floored.round y :=
  Rat.floor_monotone (add_le_add_left less _)

theorem battery_after_turns_two :
    let st := (Runs.run (step floored [1]) (start 100 batteryTable discharging)
      [.turn 1 none, writeCharge, .turn 1 none]).generator.state 1
    st.socPct = PointGenerator.clamp ((80 : Int) - (2 : Nat) * drain 100 discharging) 0 ((100 : Int) : ℚ) ∧
      st.avgTempC = balance discharging +
        (1 - discharging.kCool * ratio (100 : UInt32).toNat 1000) ^ 2 * ((33 : Int) - balance discharging) ∧
      (0 < 2 → Follows discharging st) :=
  battery_after_turns 100 discharging (by decide) (by decide) (by decide +kernel) floored [1]
    [.turn 1 none, writeCharge, .turn 1 none]

theorem published_in_order_two :
    let run := fun events => Runs.run (step floored [1]) (start 100 batteryTable discharging) events
    ∃ earlier later, shown (run ([] ++ [.turn 1 none])) 1 chargePoint = some earlier ∧
      shown (run ([] ++ .turn 1 none :: [writeCharge] ++ [.turn 1 none])) 1 chargePoint = some later ∧
      (0 ≤ discharging.bmsCurrentASetpoint → later ≤ earlier) ∧
      (discharging.bmsCurrentASetpoint ≤ 0 → earlier ≤ later) :=
  published_in_order 100 (by decide) shows_chargePoint OfCharge.charge (fun _ => rfl) round_floored
    (by decide +kernel) (by decide +kernel) [1] [] [writeCharge] (fun fi given => by cases given)
    (fun fi given => by cases given)

end Example

end Station
end Battery
end EnerSentry.Sim
