import EnerSentry.Lib.Overwriting
import EnerSentry.Sim.BankInterleaving
import EnerSentry.Sim.FaultCoverage

/-!
What faults do to the registers, told by comparing a run with the same ticks without any fault. The
physics and the faults write into one working copy, and the physics rewrites only the registers of
the points it has a value for. A register that a fault has written and the physics does not rewrite
stays marked; where no mark is left, the two runs publish the same.
-/

namespace EnerSentry.Sim
open EnerSentry.Lib EnerSentry.Lib.Overwriting

def isWordType (t : RegisterType) : Bool := t == .holdingRegister || t == .inputRegister

section Aimed
variable {K : Type*}

/-- A value for the cell of a point. -/
def SimPoint.aimed (p : SimPoint K) (t : RegisterType) (a : UInt16) (raw : Option UInt16) : Option UInt16 :=
  if p.regType = t ∧ p.registerAddr = a then raw else none

namespace SimPoint
variable {p : SimPoint K} {t : RegisterType} {a raw : UInt16} {work : SlaveRegset}

theorem aimed_none : p.aimed t a none = none := ite_self none

theorem isSome_aimed (raw : Option UInt16) :
    (p.aimed t a raw).isSome = (p.regType == t && p.registerAddr == a && raw.isSome) := by
  rw [aimed]
  by_cases here : p.regType = t ∧ p.registerAddr = a
  · simp [here]
  · rw [if_neg here]
    rw [not_and_or] at here
    obtain other | other := here <;> simp [other]

theorem overwrite_aimed (held : Option UInt16) : overwrite (p.aimed t a (some raw)) held =
    if t = p.regType ∧ a = p.registerAddr then held.map (fun _ => raw) else held := by
  rw [aimed]
  by_cases here : t = p.regType ∧ a = p.registerAddr
  · rw [if_pos here, if_pos ⟨here.1.symm, here.2.symm⟩]
    rfl
  · rw [if_neg here, if_neg fun both => here ⟨both.1.symm, both.2.symm⟩]
    rfl

theorem cell_setHolding_aimed (holding : p.regType = .holdingRegister) :
    (work.setHolding p.registerAddr raw).cell t a = overwrite (p.aimed t a (some raw)) (work.cell t a) := by
  rw [cell_setHolding, overwrite_aimed, holding]

theorem cell_setInput_aimed (input : p.regType = .inputRegister) :
    (work.setInput p.registerAddr raw).cell t a = overwrite (p.aimed t a (some raw)) (work.cell t a) := by
  rw [cell_setInput, overwrite_aimed, input]

end SimPoint
end Aimed

variable {K : Type*} [Arithmetic K]

namespace PointGenerator
open SimPoint

section Values
variable (rd : Rounding K) (fi : FaultInjector K) (g : PointGenerator K) (slave : UInt8) (dtS : K)

def routedValue (routes : List (String × K)) (p : SimPoint K) : Option UInt16 :=
  if p.enabled && p.regType == .holdingRegister then
    (routes.find? fun route => p.named route.1).map fun route => encodeFloat32AsHolding rd route.2 p.scaleFactor
  else none

def meterValue (refKw : K) (p : SimPoint K) : Option UInt16 :=
  if p.enabled && p.isWord then
    some (encodeFloat32AsHolding rd (if p.named "ActiveP" || p.named "TotalE" then refKw else 1) p.scaleFactor)
  else none

def auxValue (p : SimPoint K) : Option UInt16 :=
  if p.enabled && p.isWord then
    some (encodeFloat32AsHolding rd (if p.named "Alarm" then 0 else (25 : Int)) p.scaleFactor)
  else none

/-- The register value that the physics has for a point. -/
def evolvedValue (p : SimPoint K) : Option UInt16 :=
  match inferKindFromName (g.onSlave slave) with
  | .bms => routedValue rd (bmsRoutes (g.evolvedBms dtS (g.state slave))) p
  | .pcs => routedValue rd (pcsRoutes { g.state slave with
      pcsActiveKw := g.phy.pcsActiveKwSetpoint
      pcsReactiveKvar := g.phy.pcsReactiveKvarSetpoint
      pcsLineV := g.phy.pcsLineV0
      pcsFreqHz := g.phy.pcsFreqHz0 }) p
  | .meter => meterValue rd (if g.pcsRefSlave != 0 then (g.state g.pcsRefSlave).pcsActiveKw else 0) p
  | .liquid => auxValue rd p
  | .fire => auxValue rd p

def laidValue (p : SimPoint K) : Option UInt16 := (faultOn fi slave p).map fun eff => encodeFault rd p eff.value

/-- What the physics of a turn leaves in a cell. -/
def evolvedPut (t : RegisterType) (a : UInt16) : Option UInt16 :=
  lastPut (fun p => p.aimed t a (g.evolvedValue rd slave (ratio g.tickMs.toNat 1000) p)) (g.onSlave slave)

/-- What the faults of a turn leave in a cell. -/
def laidPut (t : RegisterType) (a : UInt16) : Option UInt16 :=
  lastPut (fun p => p.aimed t a (laidValue rd fi slave p)) (g.onSlave slave)

/-- The physics has a value for a point of this cell. -/
def rewrites (t : RegisterType) (a : UInt16) : Bool :=
  (g.onSlave slave).any fun p => p.regType == t && p.registerAddr == a && g.generates slave p

/-- A fault is laid over a point of this cell. -/
def laid (t : RegisterType) (a : UInt16) : Bool :=
  (g.onSlave slave).any fun p => p.regType == t && p.registerAddr == a && (faultOn fi slave p).isSome

def isSlot (t : RegisterType) (a : UInt16) : Bool :=
  t == .holdingRegister && (alarmSlot (g.onSlave slave)).any fun p => p.registerAddr == a

end Values

section Cells
variable {rd : Rounding K} {fi : FaultInjector K} {g : PointGenerator K} {slave : UInt8} {t : RegisterType}
  {a : UInt16} {work : SlaveRegset} {p : SimPoint K}

theorem cell_writeRouted (routes : List (String × K)) : (writeRouted rd routes work p).cell t a =
    overwrite (p.aimed t a (routedValue rd routes p)) (work.cell t a) := by
  rw [writeRouted, routedValue]
  by_cases on : (p.enabled && p.regType == .holdingRegister) = true
  · rw [if_pos on]
    have off : ¬(!p.enabled || p.regType != .holdingRegister) = true := by simpa using on
    rw [if_neg off]
    simp only [Bool.and_eq_true, beq_iff_eq] at on
    cases routes.find? fun route => p.named route.1 with
    | none => rw [Option.map_none, aimed_none, overwrite_none]
    | some route => exact cell_setHolding_aimed on.2
  · rw [if_neg on, aimed_none, overwrite_none]
    have off : (!p.enabled || p.regType != .holdingRegister) = true := by
      simpa [Bool.or_eq_true, Classical.or_iff_not_imp_left] using on
    rw [if_pos off]

theorem cell_writeMeter (refKw : K) : (writeMeter rd refKw work p).cell t a =
    overwrite (p.aimed t a (meterValue rd refKw p)) (work.cell t a) := by
  rw [writeMeter, meterValue]
  cases on : p.enabled with
  | false => rw [Bool.not_false, if_pos rfl, Bool.false_and, if_neg Bool.false_ne_true, aimed_none, overwrite_none]
  | true =>
    rw [Bool.not_true, if_neg Bool.false_ne_true, Bool.true_and, SimPoint.isWord]
    cases kind : p.regType with
    | holdingRegister => exact cell_setHolding_aimed kind
    | inputRegister => exact cell_setInput_aimed kind
    | coil => exact (congrArg (overwrite · _) aimed_none).symm
    | discreteInput => exact (congrArg (overwrite · _) aimed_none).symm

theorem cell_writeAux (word : isWordType t = true) : (writeAux rd work p).cell t a =
    overwrite (p.aimed t a (auxValue rd p)) (work.cell t a) := by
  rw [writeAux, auxValue]
  cases on : p.enabled with
  | false => rw [Bool.not_false, if_pos rfl, Bool.false_and, if_neg Bool.false_ne_true, aimed_none, overwrite_none]
  | true =>
    rw [Bool.not_true, if_neg Bool.false_ne_true, Bool.true_and, SimPoint.isWord]
    cases kind : p.regType with
    | holdingRegister => exact cell_setHolding_aimed kind
    | inputRegister => exact cell_setInput_aimed kind
    | coil =>
      refine (cell_setCoil (Or.inl ?_)).trans (congrArg (overwrite · _) aimed_none).symm
      rintro rfl
      cases word
    | discreteInput =>
      refine (cell_setDiscrete (Or.inl ?_)).trans (congrArg (overwrite · _) aimed_none).symm
      rintro rfl
      cases word

theorem cell_overlay : (overlay rd slave fi work p).cell t a =
    overwrite (p.aimed t a (laidValue rd fi slave p)) (work.cell t a) := by
  rw [overlay, laidValue]
  cases found : faultOn fi slave p with
  | none => rw [Option.map_none, aimed_none, overwrite_none]
  | some eff =>
    have same : ∀ word, ({ work with alarmWord := word } : SlaveRegset).cell t a = work.cell t a :=
      fun word => by cases t <;> rfl
    rw [Option.map_some, ← same (work.alarmWord ||| alarmBit eff)]
    by_cases input : p.regType = .inputRegister
    · simp only [input, BEq.rfl, if_true]
      exact cell_setInput_aimed input
    · have holding : p.regType = .holdingRegister := by
        by_contra bits
        simp [faultOn, SimPoint.isWord, input, bits] at found
      simp only [holding]
      exact cell_setHolding_aimed holding

/-- The physics puts the same values into the words, whatever they hold. -/
theorem cell_evolve (word : isWordType t = true) (dtS : K) : ((g.evolve rd slave dtS).work slave).cell t a =
    overwrite (lastPut (fun p => p.aimed t a (g.evolvedValue rd slave dtS p)) (g.onSlave slave))
      ((g.work slave).cell t a) := by
  rw [evolve]
  cases kind : inferKindFromName (g.onSlave slave) with
  | bms =>
    simp only [evolveBms, setWork_work, evolvedValue, kind]
    refine cell_foldl (fun r : SlaveRegset => r.cell t a) ?_ _ _
    exact fun work p => cell_writeRouted _
  | pcs =>
    simp only [evolvePcs, setWork_work, evolvedValue, kind]
    refine cell_foldl (fun r : SlaveRegset => r.cell t a) ?_ _ _
    exact fun work p => cell_writeRouted _
  | meter =>
    simp only [evolveMeter, setWork_work, evolvedValue, kind]
    refine cell_foldl (fun r : SlaveRegset => r.cell t a) ?_ _ _
    exact fun work p => cell_writeMeter _
  | liquid =>
    simp only [evolveAux, setWork_work, evolvedValue, kind]
    refine cell_foldl (fun r : SlaveRegset => r.cell t a) ?_ _ _
    exact fun work p => cell_writeAux word
  | fire =>
    simp only [evolveAux, setWork_work, evolvedValue, kind]
    refine cell_foldl (fun r : SlaveRegset => r.cell t a) ?_ _ _
    exact fun work p => cell_writeAux word

theorem isSome_routedValue (routes : List (String × K)) : (routedValue rd routes p).isSome =
    (p.enabled && (p.regType == .holdingRegister && routes.any fun route => p.named route.1)) := by
  rw [routedValue, ← Bool.and_assoc]
  split
  · rename_i on
    rw [on, Bool.true_and, Option.isSome_map, Bool.eq_iff_iff, List.find?_isSome, List.any_eq_true]
  · rename_i off
    rw [Bool.eq_false_iff.mpr off, Bool.false_and]
    rfl

/-- The points that the physics has a value for are the generated ones. -/
theorem isSome_evolvedValue (dtS : K) (word : p.isWord = true) :
    (g.evolvedValue rd slave dtS p).isSome = g.generates slave p := by
  rw [evolvedValue, generates]
  cases inferKindFromName (g.onSlave slave) with
  | bms => exact isSome_routedValue _
  | pcs => exact isSome_routedValue _
  | meter =>
    simp only [meterValue, word, Bool.and_true]
    split <;> simp_all
  | liquid =>
    simp only [auxValue, word, Bool.and_true]
    split <;> simp_all
  | fire =>
    simp only [auxValue, word, Bool.and_true]
    split <;> simp_all

theorem isSome_evolvedPut (rd : Rounding K) (word : isWordType t = true) :
    (g.evolvedPut rd slave t a).isSome = g.rewrites slave t a := by
  rw [evolvedPut, lastPut_isSome, rewrites]
  refine List.any_congr rfl fun p => ?_
  rw [isSome_aimed]
  by_cases here : p.regType = t
  · have words : p.isWord = true := by rwa [SimPoint.isWord, here]
    rw [isSome_evolvedValue _ words]
  · rw [beq_eq_false_iff_ne.mpr here]
    rfl

theorem isSome_laidPut (rd : Rounding K) : (g.laidPut rd fi slave t a).isSome = g.laid fi slave t a := by
  rw [laidPut, lastPut_isSome, laid]
  refine List.any_congr rfl fun p => ?_
  rw [isSome_aimed, laidValue, Option.isSome_map]

theorem cell_overlayFaults (work : SlaveRegset) : (g.overlayFaults rd (some fi) slave work).cell t a =
    overwrite (g.laidPut rd fi slave t a) (work.cell t a) := by
  have same : ({ work with alarmWord := 0 } : SlaveRegset).cell t a = work.cell t a := by cases t <;> rfl
  rw [overlayFaults, laidPut, ← same]
  refine cell_foldl (fun r : SlaveRegset => r.cell t a) ?_ _ _
  exact fun work p => cell_overlay

theorem cell_placeAlarmWord (work : SlaveRegset) (free : g.isSlot slave t a = false) :
    (g.placeAlarmWord slave work).cell t a = work.cell t a := by
  rw [placeAlarmWord]
  cases slot : alarmSlot (g.onSlave slave) with
  | none => rfl
  | some p =>
    refine cell_setHolding.trans (if_neg ?_)
    rintro ⟨rfl, rfl⟩
    simp [isSlot, slot] at free

/-- A word after a turn: what the faults put there, or else the physics, or else what it held. -/
theorem cell_generateSlave (word : isWordType t = true) (free : g.isSlot slave t a = false) :
    ((g.generateSlave rd (some fi) slave).work slave).cell t a =
      overwrite ((g.laidPut rd fi slave t a).or (g.evolvedPut rd slave t a)) ((g.work slave).cell t a) := by
  obtain ⟨table, -⟩ := evolve_frame rd g slave (ratio g.tickMs.toNat 1000)
  have placed : ∀ work, (g.evolve rd slave (ratio g.tickMs.toNat 1000)).placeAlarmWord slave work =
      g.placeAlarmWord slave work := fun work => by simp only [placeAlarmWord, table]
  have overlaid : ∀ work, (g.evolve rd slave (ratio g.tickMs.toNat 1000)).overlayFaults rd (some fi) slave work =
      g.overlayFaults rd (some fi) slave work := fun work => by simp only [overlayFaults, table]
  rw [generateSlave, setWork_work, placed, overlaid, cell_placeAlarmWord _ free, cell_overlayFaults,
    cell_evolve word, overwrite_overwrite]
  rfl

end Cells

/-- The registers of each slave that a fault has written and the physics has not rewritten since. -/
abbrev Marks := UInt8 → RegisterType → UInt16 → Bool

/-- The marks after the turn of a slave. -/
def markTurn (fi : FaultInjector K) (g : PointGenerator K) (marks : Marks) (slave : UInt8) : Marks :=
  Function.update marks slave fun t a => g.laid fi slave t a || (marks slave t a && !g.rewrites slave t a)

/-- Two generators that differ in their working copies at most, and there in the marked registers and
the slots of the alarm word only. -/
structure Twins (marks : Marks) (g g' : PointGenerator K) : Prop where
  same : g' = { g with work := g'.work }
  extent : ∀ slave t a, isWordType t = true → g.isSlot slave t a = false →
    ((g.work slave).cell t a).isSome = ((g'.work slave).cell t a).isSome
  agree : ∀ slave t a, isWordType t = true → g.isSlot slave t a = false → marks slave t a = false →
    (g.work slave).cell t a = (g'.work slave).cell t a

section Twins
variable {rd : Rounding K} {fi idle : FaultInjector K} {marks : Marks} {g g' : PointGenerator K}
  {slave : UInt8} {t : RegisterType} {a : UInt16}

theorem Twins.refl (marks : Marks) (g : PointGenerator K) : Twins marks g g :=
  ⟨rfl, fun _ _ _ _ _ => rfl, fun _ _ _ _ _ _ => rfl⟩

theorem evolve_same (same : g' = { g with work := g'.work }) (dtS : K) : g'.evolve rd slave dtS =
    { g.evolve rd slave dtS with work := (g'.evolve rd slave dtS).work } := by
  rw [same]
  simp only [evolve]
  split <;> rfl

theorem generateSlave_same {fi fi' : Option (FaultInjector K)} (same : g' = { g with work := g'.work }) :
    g'.generateSlave rd fi' slave =
      { g.generateSlave rd fi slave with work := (g'.generateSlave rd fi' slave).work } := by
  have ticks : g'.tickMs = g.tickMs := by rw [same]
  simp only [generateSlave, setWork, ticks]
  rw [evolve_same same]

theorem evolvedPut_same (same : g' = { g with work := g'.work }) :
    g'.evolvedPut rd slave t a = g.evolvedPut rd slave t a := by
  rw [same]
  rfl

theorem isSlot_same (same : g'.onSlave = g.onSlave) : g'.isSlot slave t a = g.isSlot slave t a := by
  rw [isSlot, isSlot, same]

theorem onSlave_same (same : g' = { g with work := g'.work }) : g'.onSlave = g.onSlave := by rw [same]

/-- Without faults a turn writes what the physics has a value for. -/
theorem cell_generateSlave_silent {t : RegisterType} {a : UInt16} (word : isWordType t = true)
    (free : g.isSlot slave t a = false) (silent : ∀ p, faultOn idle slave p = none) :
    ((g.generateSlave rd (some idle) slave).work slave).cell t a =
      overwrite (g.evolvedPut rd slave t a) ((g.work slave).cell t a) := by
  have quiet : g.laid idle slave t a = false := by simp [laid, silent]
  rw [← isSome_laidPut rd, Option.isSome_eq_false_iff, Option.isNone_iff_eq_none] at quiet
  rw [cell_generateSlave word free, quiet, Option.none_or]

/-- One turn with faults beside one without. -/
theorem Twins.turn (twins : Twins marks g g') (silent : ∀ p, faultOn idle slave p = none) :
    Twins (markTurn fi g marks slave) (g.generateSlave rd (some fi) slave)
      (g'.generateSlave rd (some idle) slave) := by
  obtain ⟨table, -, -, others⟩ := generateSlave_frame rd (some fi) g slave
  obtain ⟨-, -, -, others'⟩ := generateSlave_frame rd (some idle) g' slave
  have turned : ∀ t a, isWordType t = true → g.isSlot slave t a = false →
      ((g'.generateSlave rd (some idle) slave).work slave).cell t a =
        overwrite (g.evolvedPut rd slave t a) ((g'.work slave).cell t a) := by
    intro t a word free
    rw [cell_generateSlave_silent word ((isSlot_same (onSlave_same twins.same)).trans free) silent,
      evolvedPut_same twins.same]
  refine ⟨generateSlave_same twins.same, ?_, ?_⟩
  · intro other t a word free
    rw [isSlot_same table] at free
    by_cases same : other = slave
    · subst same
      rw [cell_generateSlave word free, turned t a word free, isSome_overwrite, isSome_overwrite]
      exact twins.extent other t a word free
    · rw [others other same, others' other same]
      exact twins.extent other t a word free
  · intro other t a word free clean
    rw [isSlot_same table] at free
    by_cases same : other = slave
    · subst same
      rw [markTurn, Function.update_self, Bool.or_eq_false_iff] at clean
      have unlaid := clean.1
      rw [← isSome_laidPut rd, Option.isSome_eq_false_iff, Option.isNone_iff_eq_none] at unlaid
      rw [cell_generateSlave word free, turned t a word free, unlaid, Option.none_or]
      refine overwrite_same (twins.extent other t a word free) fun still => twins.agree other t a word free ?_
      have kept : g.rewrites other t a = false := by rw [← isSome_evolvedPut rd word, still]; rfl
      simpa [kept] using clean.2
    · rw [others other same, others' other same]
      rw [markTurn, Function.update_of_ne same] at clean
      exact twins.agree other t a word free clean

/-- What the physics has a value for is a matter of the point table. -/
theorem rewrites_same (table : g'.onSlave = g.onSlave) : g'.rewrites slave t a = g.rewrites slave t a := by
  rw [rewrites, rewrites, table]
  refine List.any_congr rfl fun p => ?_
  rw [generates, generates, table]
  simp only [bmsRoutes, pcsRoutes, List.any_cons, List.any_nil]

theorem markTurn_same (table : g'.onSlave = g.onSlave) : markTurn fi g' = markTurn fi g := by
  funext marks slave
  simp only [markTurn, laid, table, rewrites_same table]

end Twins

/-- The turns of some slaves, each followed by its publication. -/
def turns (rd : Rounding K) (fi : FaultInjector K) (slaves : List UInt8) (gb : PointGenerator K × RegisterBank) :
    PointGenerator K × RegisterBank :=
  slaves.foldl (fun gb slave =>
    let next := gb.1.generateSlave rd (some fi) slave
    (next, gb.2.publish slave (next.work slave))) gb

section Turns
variable {rd : Rounding K} {fi idle : FaultInjector K} {marks : Marks} {g g' : PointGenerator K}

theorem turns_concat (slaves : List UInt8) (slave : UInt8) (gb : PointGenerator K × RegisterBank) :
    turns rd fi (slaves ++ [slave]) gb =
      ((turns rd fi slaves gb).1.generateSlave rd (some fi) slave,
        (turns rd fi slaves gb).2.publish slave
          (((turns rd fi slaves gb).1.generateSlave rd (some fi) slave).work slave)) := by
  rw [turns, List.foldl_concat]
  rfl

theorem onSlave_turns (rd : Rounding K) (fi : FaultInjector K) (slaves : List UInt8)
    (gb : PointGenerator K × RegisterBank) :
    (turns rd fi slaves gb).1.onSlave = gb.1.onSlave ∧ (turns rd fi slaves gb).1.slaves = gb.1.slaves ∧
      (turns rd fi slaves gb).1.tickMs = gb.1.tickMs := by
  induction slaves using List.reverseRecOn with
  | nil => exact ⟨rfl, rfl, rfl⟩
  | append_singleton slaves slave ih =>
    rw [turns_concat]
    obtain ⟨table, list, tick, -⟩ := generateSlave_frame rd (some fi) (turns rd fi slaves gb).1 slave
    exact ⟨table.trans ih.1, list.trans ih.2.1, tick.trans ih.2.2⟩

/-- A slave that has had its turn is published as its working copy is. -/
theorem published_turns (rd : Rounding K) (fi : FaultInjector K) {slaves : List UInt8} {slave : UInt8}
    (turned : slave ∈ slaves) (gb : PointGenerator K × RegisterBank) :
    (turns rd fi slaves gb).2 slave = some ((turns rd fi slaves gb).1.work slave) := by
  induction slaves using List.reverseRecOn with
  | nil => cases turned
  | append_singleton slaves last ih =>
    rw [turns_concat]
    by_cases same : slave = last
    · subst same
      exact RegisterBank.publish_same ..
    · obtain earlier | now := List.mem_append.mp turned
      · obtain ⟨-, -, -, others⟩ := generateSlave_frame rd (some fi) (turns rd fi slaves gb).1 last
        rw [others slave same]
        exact (RegisterBank.publish_other _ _ same).trans (ih earlier)
      · exact absurd (List.mem_singleton.mp now) same

/-- A mark is fresh or was there before. -/
theorem laid_of_marked {slave : UInt8} {t : RegisterType} {a : UInt16} (slaves : List UInt8)
    (mark : slaves.foldl (markTurn fi g) marks slave t a = true) :
    g.laid fi slave t a = true ∨ marks slave t a = true := by
  induction slaves using List.reverseRecOn with
  | nil => exact Or.inr mark
  | append_singleton slaves turn ih =>
    rw [List.foldl_concat, markTurn] at mark
    by_cases same : slave = turn
    · subst same
      rw [Function.update_self, Bool.or_eq_true, Bool.and_eq_true] at mark
      obtain now | ⟨before, -⟩ := mark
      · exact Or.inl now
      · exact ih before
    · rw [Function.update_of_ne same] at mark
      exact ih mark

theorem Twins.turns (twins : Twins marks g g') (silent : ∀ slave p, faultOn idle slave p = none)
    (slaves : List UInt8) (bank bank' : RegisterBank) :
    Twins (slaves.foldl (markTurn fi g) marks) (turns rd fi slaves (g, bank)).1
      (PointGenerator.turns rd idle slaves (g', bank')).1 := by
  induction slaves using List.reverseRecOn with
  | nil => exact twins
  | append_singleton slaves slave ih =>
    have marked : markTurn fi (PointGenerator.turns rd fi slaves (g, bank)).1 = markTurn fi g :=
      markTurn_same (onSlave_turns rd fi slaves (g, bank)).1
    rw [turns_concat, turns_concat, List.foldl_concat, ← congrFun (congrFun marked _) slave]
    exact ih.turn (silent slave)

end Turns
end PointGenerator

/-- The fault injector, the generator and the bank it publishes to. -/
structure Drill (K : Type*) [Arithmetic K] where
  injector : FaultInjector K := {}
  generator : PointGenerator K
  bank : RegisterBank

inductive DrillEvent (K : Type*) [Arithmetic K] where
  | fault (input : FaultInput K)
  | tick (nowMonoMs : Int) (clock : Nat → Int)

namespace Drill
open SimWorld (floored)
open scoped SimWorld

def isTick : DrillEvent K → Bool
  | .fault _ => false
  | .tick _ _ => true

section Step
variable (rd : Rounding K)

def step : Runs.Step (Drill K) (DrillEvent K) Empty := fun w event =>
  match event with
  | .fault input => ({ w with injector := (w.injector.step input).1 }, [])
  | .tick nowMonoMs clock =>
      let done := w.generator.generateTick rd w.injector nowMonoMs clock w.bank
      (⟨done.1, done.2.1, done.2.2⟩, [])

/-- The sessions of a tick, once their clock has advanced. -/
def ticked (w : Drill K) (nowMonoMs : Int) (clock : Nat → Int) : FaultInjector K :=
  w.injector.tickSessions w.generator.tickMs nowMonoMs clock

def marked (w : Drill K) (marks : PointGenerator.Marks) : DrillEvent K → PointGenerator.Marks
  | .fault _ => marks
  | .tick nowMonoMs clock =>
      w.generator.slaves.foldl (PointGenerator.markTurn (w.ticked nowMonoMs clock) w.generator) marks

def watched : Runs.Step (Drill K × PointGenerator.Marks) (DrillEvent K) Empty :=
  Runs.watch (step rd) fun w marks event _ => w.marked marks event

end Step

/-- A live over-temperature or cell voltage session covers the register. -/
def distorted (fi : FaultInjector K) (slave : UInt8) (a : UInt16) : Bool :=
  fi.sessions.any fun s => s.covers slave a && (s.spec.type == .overTemp || s.spec.type == .cellVoltage)

/-- After a tick every marked register is covered or is the slot of the alarm word. -/
def Contained (s : Drill K × PointGenerator.Marks) : DrillEvent K → Prop
  | .fault _ => True
  | .tick nowMonoMs clock => ∀ slave ∈ s.1.generator.slaves, ∀ t a, isWordType t = true →
      s.1.marked s.2 (.tick nowMonoMs clock) slave t a = true →
        distorted (s.1.ticked nowMonoMs clock) slave a = true ∨ s.1.generator.isSlot slave t a = true

/-- The words of the published registers that no live session may distort are those of the other run. -/
def Undisturbed (w plain : Drill K) : Prop :=
  ∀ slave ∈ w.generator.slaves, ∀ t a, isWordType t = true → distorted w.injector slave a = false →
    w.generator.isSlot slave t a = false →
      (w.bank slave).bind (fun regs => regs.cell t a) = (plain.bank slave).bind fun regs => regs.cell t a

section Runs
variable {rd : Rounding K} {w plain : Drill K} {marks : PointGenerator.Marks}

/-- A run with faults beside the run of its ticks. -/
structure Beside (s : Drill K × PointGenerator.Marks) (plain : Drill K) : Prop where
  idle : plain.injector = {}
  twins : PointGenerator.Twins s.2 s.1.generator plain.generator

theorem faultOn_idle (slave : UInt8) (p : SimPoint K) :
    PointGenerator.faultOn ({} : FaultInjector K) slave p = none := by
  have silent : (({} : FaultInjector K).resolveOverride slave p.registerAddr).active = false := by
    simp [FaultInjector.resolveOverride, OverrideTable.resolve]
  simp [PointGenerator.faultOn, silent]

theorem tickSessions_idle (dtMs : UInt32) (nowMonoMs : Int) (clock : Nat → Int) :
    ({} : FaultInjector K).tickSessions dtMs nowMonoMs clock = {} := by
  simp [FaultInjector.tickSessions]

theorem step_tick (w : Drill K) (nowMonoMs : Int) (clock : Nat → Int) :
    (step rd w (.tick nowMonoMs clock)).1 = ⟨w.ticked nowMonoMs clock,
      (PointGenerator.turns rd (w.ticked nowMonoMs clock) w.generator.slaves (w.generator, w.bank)).1,
      (PointGenerator.turns rd (w.ticked nowMonoMs clock) w.generator.slaves (w.generator, w.bank)).2⟩ := rfl

theorem Beside.fault {s : Drill K × PointGenerator.Marks} (beside : Beside s plain) (input : FaultInput K) :
    Beside (watched rd s (.fault input)).1 plain := ⟨beside.idle, beside.twins⟩

theorem Beside.tick {s : Drill K × PointGenerator.Marks} (beside : Beside s plain) (rd : Rounding K)
    (nowMonoMs : Int) (clock : Nat → Int) :
    Beside (watched rd s (.tick nowMonoMs clock)).1 (step rd plain (.tick nowMonoMs clock)).1 := by
  have idle : plain.ticked nowMonoMs clock = {} := by rw [ticked, beside.idle, tickSessions_idle]
  have slaves : plain.generator.slaves = s.1.generator.slaves := by rw [beside.twins.same]
  refine ⟨idle, ?_⟩
  rw [step_tick, idle, slaves]
  exact beside.twins.turns faultOn_idle _ _ _

theorem beside_run (rd : Rounding K) {s : Drill K × PointGenerator.Marks} (beside : Beside s plain)
    (events : List (DrillEvent K)) :
    Beside (Runs.run (watched rd) s events) (Runs.run (step rd) plain (events.filter isTick)) := by
  induction events generalizing s plain with
  | nil => exact beside
  | cons event events ih =>
    cases event with
    | fault input => exact ih (beside.fault input)
    | tick nowMonoMs clock => exact ih (beside.tick rd nowMonoMs clock)

/-- A tick that contains its marks publishes what the other run publishes. -/
theorem Beside.undisturbed {s : Drill K × PointGenerator.Marks} (beside : Beside s plain) (rd : Rounding K)
    {nowMonoMs : Int} {clock : Nat → Int} (contained : Contained s (.tick nowMonoMs clock)) :
    Undisturbed (step rd s.1 (.tick nowMonoMs clock)).1 (step rd plain (.tick nowMonoMs clock)).1 := by
  have after := (beside.tick rd nowMonoMs clock).twins
  have slaves : plain.generator.slaves = s.1.generator.slaves := by rw [beside.twins.same]
  obtain ⟨table, list, -⟩ := PointGenerator.onSlave_turns rd (s.1.ticked nowMonoMs clock)
    s.1.generator.slaves (s.1.generator, s.1.bank)
  intro slave listed t a word calm free
  have here : slave ∈ s.1.generator.slaves := by rwa [step_tick, list] at listed
  have outside : s.1.generator.isSlot slave t a = false := by rwa [step_tick, PointGenerator.isSlot_same table] at free
  have clean : s.1.marked s.2 (.tick nowMonoMs clock) slave t a = false := by
    by_contra mark
    obtain covered | slot := contained slave here t a word (Bool.not_eq_false _ ▸ mark)
    · cases covered.symm.trans calm
    · cases slot.symm.trans outside
  have published := PointGenerator.published_turns rd (s.1.ticked nowMonoMs clock) here
    (s.1.generator, s.1.bank)
  have published' := PointGenerator.published_turns rd (plain.ticked nowMonoMs clock)
    (slaves ▸ here : slave ∈ plain.generator.slaves) (plain.generator, plain.bank)
  rw [step_tick, step_tick]
  simp only [published, published', Option.bind_some]
  exact after.agree slave t a word free clean

/-- Faults of any history leave the registers outside the live sessions as they would be without any
fault, as long as every tick contains its marks. -/
theorem non_interference (g : PointGenerator K) (bank : RegisterBank) (events : List (DrillEvent K))
    (contained : ∀ v ∈ Runs.visits (watched rd) (⟨{}, g, bank⟩, fun _ _ _ => false) events, Contained v.1 v.2)
    {before : List (DrillEvent K)} {nowMonoMs : Int} {clock : Nat → Int}
    (during : before ++ [DrillEvent.tick nowMonoMs clock] <+: events) :
    Undisturbed (Runs.run (step rd) ⟨{}, g, bank⟩ (before ++ [.tick nowMonoMs clock]))
      (Runs.run (step rd) ⟨{}, g, bank⟩ ((before ++ [DrillEvent.tick nowMonoMs clock]).filter isTick)) := by
  have start : Beside (⟨{}, g, bank⟩, fun _ _ _ => false) ⟨{}, g, bank⟩ :=
    ⟨rfl, PointGenerator.Twins.refl _ g⟩
  have beside := beside_run rd start before
  have tick := beside.undisturbed rd (contained _ (Runs.visit_of_prefix during))
  rw [watched, Runs.run_watch] at tick
  have last : [(.tick nowMonoMs clock : DrillEvent K)].filter isTick = [.tick nowMonoMs clock] := rfl
  rw [List.filter_append, last, Runs.run_concat, Runs.run_concat]
  exact tick

end Runs

/-- A battery with a temperature that the physics drives and a cell voltage that it does not. -/
def battery : PointGenerator ℚ :=
  PointGenerator.create 100 [1] (fun id => if id = 1 then
    [{ pointName := "BMS1_MaxTemp", registerAddr := 0, scaleFactor := 1, offset := 0 },
      { pointName := "BMS1_CellV1", regType := .inputRegister, registerAddr := 1, scaleFactor := 1, offset := 0 }]
    else []) {}

def tickAt (nowMonoMs : Int) : DrillEvent ℚ := .tick nowMonoMs fun _ => nowMonoMs

/-- An over-temperature of the register that the physics drives. -/
def overheat : DrillEvent ℚ := .fault (.trigger { slave := 1, reg := 0, targetValue := 80 } 0 0)

theorem contained_overheat :
    ∀ v ∈ Runs.visits (watched floored) (⟨{}, battery, fun _ => none⟩, fun _ _ _ => false)
      [overheat, tickAt 100], Contained v.1 v.2 := by
  simp only [Runs.visits, List.forall_mem_cons, List.not_mem_nil, false_implies, implies_true, and_true]
  refine ⟨trivial, fun slave listed t a _ mark => Or.inl ?_⟩
  obtain rfl : slave = 1 := List.mem_singleton.mp listed
  obtain laid | old := PointGenerator.laid_of_marked _ mark
  · obtain ⟨p, member, hit⟩ := List.any_eq_true.mp laid
    simp only [Bool.and_eq_true, beq_iff_eq] at hit
    obtain ⟨⟨-, rfl⟩, faulted⟩ := hit
    have points : p ∈ battery.onSlave 1 := member
    obtain rfl | cell := List.mem_cons.mp points
    · decide +kernel
    · obtain rfl := List.mem_singleton.mp cell
      exact absurd faulted (by decide +kernel)
  · cases old

theorem non_interference_overheat : Undisturbed
    (Runs.run (step floored) ⟨{}, battery, fun _ => none⟩ ([overheat] ++ [tickAt 100]))
    (Runs.run (step floored) ⟨{}, battery, fun _ => none⟩ (([overheat] ++ [tickAt 100]).filter isTick)) :=
  non_interference battery (fun _ => none) [overheat, tickAt 100] contained_overheat (List.prefix_refl _)

/-- A cell voltage fault that is aborted after one tick. -/
def cellFault : List (DrillEvent ℚ) :=
  [.fault (.trigger { type := .cellVoltage, slave := 1, reg := 1, targetValue := 4 } 0 0), tickAt 100,
    .fault (.abort 1)]

/-- The voltage of the fault stays. -/
theorem non_interference_fails : ¬Undisturbed
    (Runs.run (step floored) ⟨{}, battery, fun _ => none⟩ (cellFault ++ [tickAt 200]))
    (Runs.run (step floored) ⟨{}, battery, fun _ => none⟩ ((cellFault ++ [tickAt 200]).filter isTick)) := by
  intro undisturbed
  have same := undisturbed 1 (by decide +kernel) .inputRegister 1 rfl (by decide +kernel) (by decide +kernel)
  exact absurd same (by decide +kernel)

end Drill
end EnerSentry.Sim
