import EnerSentry.Sim.PointGenerator

/-!
Which cells of a slave's register set a tick writes: those of its generated points, of the
points under an active fault, and the slot of the alarm word. A slave's turn leaves the
other cells of its working copy alone, and the other slaves altogether.
-/

namespace EnerSentry.Sim
namespace PointGenerator

variable {K : Type*} [Arithmetic K]

section Driven
variable (fi : Option (FaultInjector K)) (g : PointGenerator K) (slave : UInt8)

/-- The physics of the slave's device has a value for this point. -/
def generates (p : SimPoint K) : Bool :=
  p.enabled &&
    match inferKindFromName (g.onSlave slave) with
    | .bms => p.regType == .holdingRegister && (bmsRoutes (g.state slave)).any (fun route => p.named route.1)
    | .pcs => p.regType == .holdingRegister && (pcsRoutes (g.state slave)).any (fun route => p.named route.1)
    | .meter => p.isWord
    | .liquid => true
    | .fire => true

def faulted (p : SimPoint K) : Bool := fi.any (fun fi => (faultOn fi slave p).isSome)

/-- A cell that the slave's turn writes. -/
def drives (t : RegisterType) (a : UInt16) : Bool :=
  (g.onSlave slave).any (fun p =>
      p.regType == t && p.registerAddr == a && (g.generates slave p || faulted fi slave p)) ||
    (t == .holdingRegister && (alarmSlot (g.onSlave slave)).any (fun p => p.registerAddr == a))

variable {fi g slave} {p : SimPoint K}

theorem drives_point (member : p ∈ g.onSlave slave) (cause : g.generates slave p = true ∨ faulted fi slave p = true) :
    g.drives fi slave p.regType p.registerAddr = true := by
  rw [drives, Bool.or_eq_true]
  apply Or.inl
  apply List.any_eq_true.mpr
  exact ⟨p, member, by simpa using cause⟩

theorem drives_slot (slot : alarmSlot (g.onSlave slave) = some p) :
    g.drives fi slave .holdingRegister p.registerAddr = true := by
  rw [drives, slot, Bool.or_eq_true]
  exact Or.inr (by simp)

end Driven

section Writers
variable {touched : RegisterType → UInt16 → Prop} {work : SlaveRegset} {p : SimPoint K} {raw : UInt16}

theorem frames_setHolding {a : UInt16} (touches : touched .holdingRegister a) :
    Frames touched work (work.setHolding a raw) := by
  intro t b free
  rw [cell_setHolding, if_neg]
  rintro ⟨rfl, rfl⟩
  exact free touches

theorem frames_setInput {a : UInt16} (touches : touched .inputRegister a) :
    Frames touched work (work.setInput a raw) := by
  intro t b free
  rw [cell_setInput, if_neg]
  rintro ⟨rfl, rfl⟩
  exact free touches

theorem frames_setCoil {a : UInt16} {set : Bool} (touches : touched .coil a) :
    Frames touched work (work.setCoil a set) := by
  intro t b free
  apply cell_setCoil
  by_contra same
  push Not at same
  exact free (same.1 ▸ same.2 ▸ touches)

theorem frames_setDiscrete {a : UInt16} {set : Bool} (touches : touched .discreteInput a) :
    Frames touched work (work.setDiscrete a set) := by
  intro t b free
  apply cell_setDiscrete
  by_contra same
  push Not at same
  exact free (same.1 ▸ same.2 ▸ touches)

variable (rd : Rounding K)

theorem frames_writeRouted {routes : List (String × K)}
    (touches : p.enabled = true → p.regType = .holdingRegister →
      routes.any (fun route => p.named route.1) = true → touched p.regType p.registerAddr) :
    Frames touched work (writeRouted rd routes work p) := by
  unfold writeRouted
  split
  · exact Frames.refl touched work
  · rename_i written
    simp only [Bool.or_eq_true, Bool.not_eq_true', bne_iff_ne, ne_eq, not_or, Bool.not_eq_false, not_not] at written
    split
    · exact Frames.refl touched work
    · rename_i route found
      have named : routes.any (fun route => p.named route.1) = true :=
        List.any_eq_true.mpr ⟨route, List.mem_of_find?_eq_some found, by simpa using List.find?_some found⟩
      apply frames_setHolding
      rw [← written.2]
      exact touches written.1 written.2 named

theorem frames_writeMeter {refKw : K}
    (touches : p.enabled = true → p.isWord = true → touched p.regType p.registerAddr) :
    Frames touched work (writeMeter rd refKw work p) := by
  unfold writeMeter
  split
  · exact Frames.refl touched work
  · rename_i enabled
    have on : p.enabled = true := by simpa using enabled
    simp only
    split
    · rename_i holding
      apply frames_setHolding
      rw [← holding]
      exact touches on (by simp [SimPoint.isWord, holding])
    · rename_i input
      apply frames_setInput
      rw [← input]
      exact touches on (by simp [SimPoint.isWord, input])
    · exact Frames.refl touched work

theorem frames_writeAux (touches : p.enabled = true → touched p.regType p.registerAddr) :
    Frames touched work (writeAux rd work p) := by
  unfold writeAux
  split
  · exact Frames.refl touched work
  · rename_i enabled
    have touched_at := touches (by simpa using enabled)
    simp only
    split
    · rename_i kind
      exact frames_setCoil (kind ▸ touched_at)
    · rename_i kind
      exact frames_setDiscrete (kind ▸ touched_at)
    · rename_i kind
      exact frames_setHolding (kind ▸ touched_at)
    · rename_i kind
      exact frames_setInput (kind ▸ touched_at)

theorem frames_overlay {slave : UInt8} {fi : FaultInjector K}
    (touches : (faultOn fi slave p).isSome = true → touched p.regType p.registerAddr) :
    Frames touched work (overlay rd slave fi work p) := by
  unfold overlay
  split
  · exact Frames.refl touched work
  · rename_i eff found
    have touched_at := touches (by rw [found]; rfl)
    have word : p.isWord = true := by
      by_contra bits
      simp [faultOn, bits] at found
    have same : Frames touched work { work with alarmWord := work.alarmWord ||| alarmBit eff } :=
      fun t a _ => by cases t <;> rfl
    apply same.trans
    simp only
    split
    · rename_i input
      have kind : p.regType = .inputRegister := by simpa using input
      exact frames_setInput (kind ▸ touched_at)
    · rename_i other
      have kind : p.regType = .holdingRegister := by
        simpa [SimPoint.isWord, show ¬p.regType = .inputRegister by simpa using other] using word
      exact frames_setHolding (kind ▸ touched_at)

end Writers

section Turn
variable (rd : Rounding K) (fi : Option (FaultInjector K)) (g : PointGenerator K) (slave : UInt8) (dtS : K)

@[simp] theorem setWork_work (regs : SlaveRegset) : (g.setWork slave regs).work slave = regs := Function.update_self ..

theorem setWork_other {other : UInt8} (regs : SlaveRegset) (ne : other ≠ slave) :
    (g.setWork slave regs).work other = g.work other := Function.update_of_ne ne ..

/-- What the physics leaves of the generator: everything but the slave's state and copy. -/
theorem evolve_frame :
    (g.evolve rd slave dtS).onSlave = g.onSlave ∧ (g.evolve rd slave dtS).slaves = g.slaves ∧
      (g.evolve rd slave dtS).tickMs = g.tickMs ∧
      ∀ other, other ≠ slave → (g.evolve rd slave dtS).work other = g.work other := by
  unfold evolve
  split
  all_goals exact ⟨rfl, rfl, rfl, fun other ne => setWork_other _ _ _ ne⟩

theorem frames_evolve : Frames (fun t a => g.drives fi slave t a = true) (g.work slave)
    ((g.evolve rd slave dtS).work slave) := by
  unfold evolve
  split
  · rename_i kind
    rw [evolveBms, setWork_work]
    apply Frames.foldl
    intro p member work
    apply frames_writeRouted
    intro on holding named
    apply drives_point member (Or.inl _)
    simp only [generates, kind, on, holding]
    simpa [bmsRoutes] using named
  · rename_i kind
    rw [evolvePcs, setWork_work]
    apply Frames.foldl
    intro p member work
    apply frames_writeRouted
    intro on holding named
    apply drives_point member (Or.inl _)
    simp only [generates, kind, on, holding]
    simpa [pcsRoutes] using named
  · rename_i kind
    rw [evolveMeter, setWork_work]
    apply Frames.foldl
    intro p member work
    apply frames_writeMeter
    intro on word
    exact drives_point member (Or.inl (by simp [generates, kind, on, word]))
  all_goals
    rename_i kind
    rw [evolveAux, setWork_work]
    apply Frames.foldl
    intro p member work
    apply frames_writeAux
    intro on
    exact drives_point member (Or.inl (by simp [generates, kind, on]))

theorem frames_overlayFaults (work : SlaveRegset) :
    Frames (fun t a => g.drives fi slave t a = true) work (g.overlayFaults rd fi slave work) := by
  unfold overlayFaults
  cases fi with
  | none => exact Frames.refl _ work
  | some fi =>
    have same : Frames (fun t a => g.drives (some fi) slave t a = true) work { work with alarmWord := 0 } :=
      fun t a _ => by cases t <;> rfl
    apply same.trans
    apply Frames.foldl
    intro p member work
    apply frames_overlay
    intro found
    exact drives_point member (Or.inr found)

theorem frames_placeAlarmWord (work : SlaveRegset) :
    Frames (fun t a => g.drives fi slave t a = true) work (g.placeAlarmWord slave work) := by
  unfold placeAlarmWord
  split
  · exact Frames.refl _ work
  · rename_i p slot
    exact frames_setHolding (drives_slot slot)

/-- A slave's turn keeps every cell it does not drive. -/
theorem frames_generateSlave : Frames (fun t a => g.drives fi slave t a = true) (g.work slave)
    ((g.generateSlave rd fi slave).work slave) := by
  obtain ⟨table, -⟩ := evolve_frame rd g slave (ratio g.tickMs.toNat 1000)
  have overlaid := frames_overlayFaults rd fi g slave ((g.evolve rd slave (ratio g.tickMs.toNat 1000)).work slave)
  have placed := frames_placeAlarmWord fi g slave
    (g.overlayFaults rd fi slave ((g.evolve rd slave (ratio g.tickMs.toNat 1000)).work slave))
  rw [generateSlave, setWork_work]
  apply (frames_evolve rd fi g slave _).trans
  simp only [overlayFaults, placeAlarmWord, table] at overlaid placed ⊢
  exact overlaid.trans placed

theorem generateSlave_frame :
    (g.generateSlave rd fi slave).onSlave = g.onSlave ∧ (g.generateSlave rd fi slave).slaves = g.slaves ∧
      (g.generateSlave rd fi slave).tickMs = g.tickMs ∧
      ∀ other, other ≠ slave → (g.generateSlave rd fi slave).work other = g.work other := by
  obtain ⟨table, slaves, tick, rest⟩ := evolve_frame rd g slave (ratio g.tickMs.toNat 1000)
  exact ⟨table, slaves, tick, fun other ne => (setWork_other _ _ _ ne).trans (rest other ne)⟩

end Turn
end PointGenerator
end EnerSentry.Sim
