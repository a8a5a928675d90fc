import EnerSentry.Sim.GeneratedCells
import EnerSentry.Sim.RemoteSession
import EnerSentry.Sim.SimConfig

/-!
The simulator as it runs on a point table: the generator publishes the slaves in turn, and masters send
frames of any content over both transports. Nobody adds a register or takes one away, so every point of
the table stays inside its slave's register set throughout.
-/

namespace EnerSentry.Sim
open EnerSentry.Lib EnerSentry.Protocol

namespace SlaveRegset

/-- The same number of cells in every area. -/
structure SameCells (r next : SlaveRegset) : Prop where
  counts : ∀ t, next.cellCount t = r.cellCount t

section Writes
variable {r next last : SlaveRegset} {pdu : List UInt8}

theorem SameCells.refl (r : SlaveRegset) : r.SameCells r := ⟨fun _ => rfl⟩

theorem SameCells.trans (first : r.SameCells next) (second : next.SameCells last) : r.SameCells last :=
  ⟨fun t => (second.counts t).trans (first.counts t)⟩

theorem sameCells_foldl {A : Type*} {write : SlaveRegset → A → SlaveRegset} (items : List A)
    (each : ∀ r item, SameCells r (write r item)) (r : SlaveRegset) : r.SameCells (items.foldl write r) := by
  induction items generalizing r with
  | nil => exact SameCells.refl r
  | cons item items ih => exact (each r item).trans (ih (write r item))

theorem length_writeCoil (bytes : List UInt8) (reg : UInt16) (v : Bool) :
    (writeCoil bytes reg v).length = bytes.length :=
  List.length_modify ..

theorem sameCells_setHolding (r : SlaveRegset) (reg v : UInt16) : r.SameCells (r.setHolding reg v) := by
  constructor
  intro t
  cases t <;> simp [cellCount, setHolding]

theorem sameCells_setInput (r : SlaveRegset) (reg v : UInt16) : r.SameCells (r.setInput reg v) := by
  constructor
  intro t
  cases t <;> simp [cellCount, setInput]

theorem sameCells_coils {coils : List UInt8} (size : coils.length = r.coils.length) :
    r.SameCells { r with coils := coils } := by
  constructor
  intro t
  cases t <;> simp [cellCount, size]

theorem sameCells_setDiscrete (r : SlaveRegset) (reg : UInt16) (v : Bool) : r.SameCells (r.setDiscrete reg v) := by
  constructor
  intro t
  cases t <;> simp [cellCount, setDiscrete, length_writeCoil]

theorem sameCells_writeMultiple {fc : UInt8} {limit size : Nat} {byteCountOf : Nat → Nat}
    {change : UInt16 → Nat → SlaveRegset} (each : ∀ addr qty, r.SameCells (change addr qty)) :
    r.SameCells (writeMultiple fc r pdu limit size byteCountOf change).2 := by
  simp only [writeMultiple]
  split
  · exact SameCells.refl r
  · split
    · exact SameCells.refl r
    · exact each _ _

/-- Whatever a request asks for, the register set keeps its size. -/
theorem sameCells_dispatchFull (r : SlaveRegset) (pdu : List UInt8) (writable : Bool) :
    r.SameCells (dispatchFull r pdu writable).2 := by
  cases pdu with
  | nil => exact SameCells.refl r
  | cons fc rest =>
    simp only [dispatchFull]
    repeat' split
    · exact SameCells.refl r
    · exact SameCells.refl r
    · exact SameCells.refl r
    · exact SameCells.refl r
    · simp only [writeSingleCoil]
      repeat' split
      · exact SameCells.refl r
      · exact SameCells.refl r
      · exact sameCells_coils (length_writeCoil ..)
    · simp only [writeSingleRegister]
      repeat' split
      · exact SameCells.refl r
      · exact SameCells.refl r
      · exact sameCells_setHolding ..
    · apply sameCells_writeMultiple
      intro addr qty
      apply sameCells_coils
      induction List.range qty using List.reverseRecOn with
      | nil => rfl
      | append_singleton items i ih => rw [List.foldl_concat, length_writeCoil, ih]
    · apply sameCells_writeMultiple
      intro addr qty
      exact sameCells_foldl _ (fun r i => sameCells_setHolding ..) r
    · exact SameCells.refl r

end Writes
end SlaveRegset

section Generator
open SlaveRegset
variable {K : Type*} [Arithmetic K] (rd : Rounding K)

theorem sameCells_writeRouted (routes : List (String × K)) (work : SlaveRegset) (p : SimPoint K) :
    work.SameCells (PointGenerator.writeRouted rd routes work p) := by
  unfold PointGenerator.writeRouted
  split
  · exact SameCells.refl work
  · split
    · exact SameCells.refl work
    · exact sameCells_setHolding ..

theorem sameCells_writeMeter (refKw : K) (work : SlaveRegset) (p : SimPoint K) :
    work.SameCells (PointGenerator.writeMeter rd refKw work p) := by
  unfold PointGenerator.writeMeter
  split
  · exact SameCells.refl work
  · simp only
    split
    · exact sameCells_setHolding ..
    · exact sameCells_setInput ..
    · exact SameCells.refl work

theorem sameCells_writeAux (work : SlaveRegset) (p : SimPoint K) :
    work.SameCells (PointGenerator.writeAux rd work p) := by
  unfold PointGenerator.writeAux
  split
  · exact SameCells.refl work
  · simp only
    split
    · exact sameCells_coils (length_writeCoil ..)
    · exact sameCells_setDiscrete ..
    · exact sameCells_setHolding ..
    · exact sameCells_setInput ..

theorem sameCells_overlay (slave : UInt8) (fi : FaultInjector K) (work : SlaveRegset) (p : SimPoint K) :
    work.SameCells (PointGenerator.overlay rd slave fi work p) := by
  unfold PointGenerator.overlay
  split
  · exact SameCells.refl work
  · simp only
    have marked (word : UInt16) : work.SameCells { work with alarmWord := word } := ⟨fun t => by cases t <;> rfl⟩
    split
    · exact (marked _).trans (sameCells_setInput ..)
    · exact (marked _).trans (sameCells_setHolding ..)

variable (g : PointGenerator K) (slave : UInt8)

theorem sameCells_evolve (dtS : K) : (g.work slave).SameCells ((g.evolve rd slave dtS).work slave) := by
  unfold PointGenerator.evolve
  split
  · rw [PointGenerator.evolveBms, PointGenerator.setWork_work]
    exact sameCells_foldl _ (sameCells_writeRouted rd _) _
  · rw [PointGenerator.evolvePcs, PointGenerator.setWork_work]
    exact sameCells_foldl _ (sameCells_writeRouted rd _) _
  · rw [PointGenerator.evolveMeter, PointGenerator.setWork_work]
    exact sameCells_foldl _ (sameCells_writeMeter rd _) _
  all_goals
    rw [PointGenerator.evolveAux, PointGenerator.setWork_work]
    exact sameCells_foldl _ (sameCells_writeAux rd) _

/-- A turn of the generator keeps the size of every working copy. -/
theorem sameCells_generateSlave (fi : Option (FaultInjector K)) :
    (g.work slave).SameCells ((g.generateSlave rd fi slave).work slave) := by
  rw [PointGenerator.generateSlave, PointGenerator.setWork_work]
  apply (sameCells_evolve rd g slave _).trans
  generalize g.evolve rd slave (ratio g.tickMs.toNat 1000) = evolved
  have overlaid : (evolved.work slave).SameCells (evolved.overlayFaults rd fi slave (evolved.work slave)) := by
    unfold PointGenerator.overlayFaults
    cases fi with
    | none => exact SameCells.refl _
    | some fi =>
      have cleared : (evolved.work slave).SameCells { evolved.work slave with alarmWord := 0 } :=
        ⟨fun t => by cases t <;> rfl⟩
      exact cleared.trans (sameCells_foldl _ (sameCells_overlay rd slave fi) _)
  apply overlaid.trans
  unfold PointGenerator.placeAlarmWord
  split
  · exact SameCells.refl _
  · exact sameCells_setHolding ..

end Generator

/-- The running simulator: what the generator keeps, and the bank that it shares with the masters. -/
structure Station (K : Type) [Arithmetic K] where
  generator : PointGenerator K
  bank : RegisterBank

/-- A frame of a master arrives, or a slave has its turn in a tick under the faults of that moment. -/
inductive StationEvent (K : Type) [Arithmetic K] where
  | frame (transport : Transport) (bytes : List UInt8)
  | turn (slave : UInt8) (injector : Option (FaultInjector K))

namespace Station
variable {K : Type} [Arithmetic K]

/-- The simulator on a point table whose slaves no configuration lists. -/
def start (tickMs : UInt32) (pt : SimPointTable K) (phy : PhysicsConstants K) : Station K :=
  { generator := PointGenerator.create tickMs pt.allSlaveIds pt.onSlave phy
    bank := installBaseline (fromPointTable pt) }

variable (rd : Rounding K) (slaves : List UInt8)

def step : Runs.Step (Station K) (StationEvent K) (Option (List UInt8)) := fun s event =>
  match event with
  | .frame transport bytes =>
      let served := serveFrame (dispatchHandler slaves) transport s.bank bytes
      ({ s with bank := served.2 }, [served.1])
  | .turn slave injector =>
      if slave ∈ s.generator.slaves then
        let next := s.generator.generateSlave rd injector slave
        (⟨next, s.bank.publish slave (next.work slave)⟩, [])
      else (s, [])

end Station

/-- The same slaves, each with a register set of its size. -/
structure RegisterBank.SameSizes (bank next : RegisterBank) : Prop where
  each : ∀ slave, Option.Rel SlaveRegset.SameCells (bank slave) (next slave)

section Bank
variable {bank : RegisterBank} {slaves : List UInt8}

theorem sameSizes_refl (bank : RegisterBank) : bank.SameSizes bank := by
  constructor
  intro slave
  cases bank slave with
  | none => exact Option.Rel.none
  | some regs => exact Option.Rel.some (SlaveRegset.SameCells.refl regs)

theorem sameSizes_publish {slave : UInt8} {regs next : SlaveRegset} (held : bank slave = some regs)
    (same : regs.SameCells next) : bank.SameSizes (bank.publish slave next) := by
  constructor
  intro other
  by_cases own : other = slave
  · subst own
    rw [held, RegisterBank.publish_same]
    exact Option.Rel.some same
  · rw [RegisterBank.publish_other _ _ own]
    exact (sameSizes_refl bank).each other

theorem RegisterBank.SameSizes.held {next : RegisterBank} {slave : UInt8} {regs : SlaveRegset}
    (same : bank.SameSizes next) (held : bank slave = some regs) :
    ∃ regs', next slave = some regs' ∧ regs.SameCells regs' := by
  have each := same.each slave
  rw [held] at each
  cases after : next slave with
  | none =>
    rw [after] at each
    cases each
  | some regs' =>
    rw [after] at each
    cases each with
    | some cells => exact ⟨regs', rfl, cells⟩

theorem RegisterBank.SameSizes.missing {next : RegisterBank} {slave : UInt8} (same : bank.SameSizes next)
    (missing : bank slave = none) : next slave = none := by
  have each := same.each slave
  rw [missing] at each
  cases after : next slave with
  | none => rfl
  | some regs' =>
    rw [after] at each
    cases each

/-- A request of any content leaves every register set its size. -/
theorem sameSizes_dispatchHandler (slaves : List UInt8) (bank : RegisterBank) (unitId : UInt8) (pdu : List UInt8) :
    bank.SameSizes (dispatchHandler slaves bank unitId pdu).2 := by
  have kept : (dispatchHandler slaves bank unitId pdu).2 = (dispatchBySlaveId unitId bank slaves pdu).2 := by
    unfold dispatchHandler
    split <;> simp_all
  rw [kept]
  unfold dispatchBySlaveId
  split
  · rw [RegisterBank.snapshot]
    cases held : bank unitId with
    | none => exact sameSizes_refl bank
    | some regs =>
      simp only [serveSnapshot]
      split
      · exact sameSizes_publish held (SlaveRegset.sameCells_dispatchFull ..)
      · exact sameSizes_refl bank
  · exact sameSizes_refl bank

theorem sameSizes_serveFrame (slaves : List UInt8) (transport : Transport) (bank : RegisterBank) (frame : List UInt8) :
    bank.SameSizes (serveFrame (dispatchHandler slaves) transport bank frame).2 := by
  simp only [serveFrame]
  split
  · exact sameSizes_dispatchHandler ..
  · exact sameSizes_refl bank

end Bank

/-- Every area of a register set has so many cells at least, and an address for each of them. -/
structure SlaveRegset.Roomy (n : Nat) (r : SlaveRegset) : Prop where
  least : ∀ t, n ≤ r.cellCount t
  most : r.Addressable

section Rooms
variable {n m : Nat} {r next : SlaveRegset}

theorem SlaveRegset.Roomy.same (roomy : r.Roomy n) (same : r.SameCells next) : next.Roomy n :=
  ⟨fun t => (roomy.least t).trans (same.counts t).ge, fun t => (same.counts t).le.trans (roomy.most t)⟩

theorem roomy_allocate (slave : UInt8) (enough : n ≤ m) (few : m < 65536) :
    (SlaveRegset.allocate slave m m).Roomy n := by
  constructor <;> intro t
  · cases t <;> simp [SlaveRegset.cellCount, SlaveRegset.allocate] <;> omega
  · cases t <;> simp [SlaveRegset.cellCount, SlaveRegset.allocate] <;> omega

end Rooms

namespace Station
variable {K : Type} [Arithmetic K] {pt : SimPointTable K} {s : Station K}

/-- No point lies in the last 16 addresses of a slave. -/
def Below (pt : SimPointTable K) : Prop := ∀ slave ∈ pt.allSlaveIds, maxAddr (pt.onSlave slave) + 16 < 65536

instance : Decidable (Below pt) :=
  List.decidableBAll (fun slave => maxAddr (pt.onSlave slave) + 16 < 65536) pt.allSlaveIds

/-- Every slave has room for its points and 16 registers more, in the bank and in its working copy. -/
structure Spacious (pt : SimPointTable K) (s : Station K) : Prop where
  slaves : s.generator.slaves = pt.allSlaveIds
  work : ∀ slave ∈ pt.allSlaveIds, (s.generator.work slave).Roomy (maxAddr (pt.onSlave slave) + 16)
  bank : ∀ slave ∈ pt.allSlaveIds, ∃ regs, s.bank slave = some regs ∧ regs.Roomy (maxAddr (pt.onSlave slave) + 16)
  others : ∀ slave ∉ pt.allSlaveIds, s.bank slave = none

theorem Spacious.addressable (spacious : Spacious pt s) : s.bank.Addressable := by
  intro slave regs held
  by_cases listed : slave ∈ pt.allSlaveIds
  · obtain ⟨regs', held', roomy⟩ := spacious.bank slave listed
    obtain rfl := Option.some.inj (held.symm.trans held')
    exact roomy.most
  · rw [spacious.others slave listed] at held
    cases held

theorem installBaseline_unlisted {slaves : List SlaveSpec} {slave : UInt8} (unlisted : slave ∉ slaves.map (·.slaveId)) :
    installBaseline slaves slave = none := by
  induction slaves using List.reverseRecOn with
  | nil => rfl
  | append_singleton slaves last ih =>
    rw [List.map_append, List.mem_append, not_or] at unlisted
    have other : slave ≠ last.slaveId := fun same => unlisted.2 (List.mem_singleton.mpr same)
    rw [installBaseline, List.foldl_concat, RegisterBank.publish_other _ _ other]
    exact ih unlisted.1

theorem spacious_start (below : Below pt) (tickMs : UInt32) (phy : PhysicsConstants K) :
    Spacious pt (start tickMs pt phy) where
  slaves := rfl
  work := by
    intro slave listed
    have room := below slave listed
    have copied : (start tickMs pt phy).generator.work slave =
        SlaveRegset.allocate slave (PointGenerator.workSize (pt.onSlave slave))
          (PointGenerator.workSize (pt.onSlave slave)) := if_pos listed
    have size : PointGenerator.workSize (pt.onSlave slave) = max (maxAddr (pt.onSlave slave) + 16) 128 := rfl
    rw [copied, size]
    exact roomy_allocate slave (Nat.le_max_left _ _) (by omega)
  bank := by
    intro slave listed
    exact ⟨_, baseline_fromPointTable listed (below slave listed),
      roomy_allocate slave (Nat.le_refl _) (below slave listed)⟩
  others := by
    intro slave unlisted
    apply installBaseline_unlisted
    rwa [ids_fromPointTable]

theorem Spacious.step (spacious : Spacious pt s) (rd : Rounding K) (slaves : List UInt8) (event : StationEvent K) :
    Spacious pt (s.step rd slaves event).1 := by
  cases event with
  | frame transport bytes =>
    have sizes := sameSizes_serveFrame slaves transport s.bank bytes
    exact
      { slaves := spacious.slaves
        work := spacious.work
        bank := by
          intro slave listed
          obtain ⟨regs, held, roomy⟩ := spacious.bank slave listed
          obtain ⟨next, held', same⟩ := sizes.held held
          exact ⟨next, held', roomy.same same⟩
        others := fun slave unlisted => sizes.missing (spacious.others slave unlisted) }
  | turn slave injector =>
    simp only [Station.step]
    split
    · rename_i member
      have listed : slave ∈ pt.allSlaveIds := spacious.slaves ▸ member
      obtain ⟨-, slaves', -, rest⟩ := PointGenerator.generateSlave_frame rd injector s.generator slave
      have roomy := (spacious.work slave listed).same (sameCells_generateSlave rd s.generator slave injector)
      exact
        { slaves := slaves'.trans spacious.slaves
          work := by
            intro other known
            by_cases own : other = slave
            · subst own
              exact roomy
            · rw [rest other own]
              exact spacious.work other known
          bank := by
            intro other known
            by_cases own : other = slave
            · subst own
              exact ⟨_, RegisterBank.publish_same .., roomy⟩
            · obtain ⟨regs, held, room⟩ := spacious.bank other known
              exact ⟨regs, (RegisterBank.publish_other _ _ own).trans held, room⟩
          others := by
            intro other unknown
            have own : other ≠ slave := fun same => unknown (same ▸ listed)
            exact (RegisterBank.publish_other _ _ own).trans (spacious.others other unknown) }
    · exact spacious

/-- Throughout a run every point of the table lies inside its slave's register set. -/
theorem spacious_run (below : Below pt) (tickMs : UInt32) (phy : PhysicsConstants K) (rd : Rounding K)
    (slaves : List UInt8) (events : List (StationEvent K)) :
    ∀ s ∈ Runs.reached (step rd slaves) (start tickMs pt phy) events, Spacious pt s :=
  Runs.reached_always (step rd slaves) events (spacious_start below tickMs phy)
    fun _ event spacious => spacious.step rd slaves event

end Station
end EnerSentry.Sim
