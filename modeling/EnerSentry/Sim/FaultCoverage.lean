import EnerSentry.Sim.FaultInjector

/-!
Which fault a point suffers. The override table remembers, under each key, the last live
session stored there, and a slave-wide fault is stored under the wildcard key of all
slaves. What the injector reports is the scope relation of its sessions exactly where that
last session agrees with the ones that cover the point.
-/

namespace EnerSentry.Sim
open EnerSentry.Lib

variable {K : Type*} [Zero K]

namespace OverrideTable

/-- An entry but for its value. -/
def Entry.fault (e : Entry K) : Entry K := { e with value := 0 }

theorem Entry.toEffect_of_fault {e e' : Entry K} (same : e.fault = e'.fault) :
    e.toEffect = { e'.toEffect with value := e.value } := by
  simp only [fault, Entry.mk.injEq, true_and] at same
  obtain ⟨type, link, crc, byte, delay⟩ := same
  simp only [toEffect, type, link, crc, byte, delay]

end OverrideTable

namespace FaultSession

/-- A session has the fault of another: the same type and delay. -/
def SameFault (s x : FaultSession K) : Prop :=
  s.spec.type = x.spec.type ∧ (x.spec.type = .timeout → s.spec.corruptMs = x.spec.corruptMs)

/-- What a point suffers from a session that covers it. -/
def effect (s : FaultSession K) : FaultEffect K := s.entry.toEffect

/-- The scope of the fault takes in the slave. -/
def concerns (s : FaultSession K) (slave : UInt8) : Bool :=
  s.spec.scope == .all || s.spec.slave == slave

variable {s x : FaultSession K} {slave : UInt8} {reg : UInt16}

theorem covers_live (covers : s.covers slave reg = true) : s.live = true := by
  simp only [FaultSession.covers, Bool.and_eq_true] at covers
  exact covers.1

theorem covers_concerns (covers : s.covers slave reg = true) : s.concerns slave = true := by
  unfold FaultSession.covers at covers
  unfold concerns
  cases scope : s.spec.scope <;> simp_all

/-- A session that covers a point is stored where the point is looked up. -/
theorem covers_key (covers : s.covers slave reg = true) :
    s.spec.key = OverrideTable.keyOf slave reg ∨ s.spec.key = OverrideTable.allKey := by
  unfold FaultSession.covers at covers
  unfold FaultOverride.key
  cases scope : s.spec.scope with
  | point =>
    simp only [scope, Bool.and_eq_true, beq_iff_eq] at covers
    exact Or.inl (by rw [covers.2.1, covers.2.2])
  | slave => exact Or.inr rfl
  | all => exact Or.inr rfl

theorem sameFault_iff : s.SameFault x ↔ s.entry.fault = x.entry.fault := by
  simp only [SameFault, entry, OverrideTable.Entry.fault, OverrideTable.Entry.mk.injEq, true_and]
  constructor
  · rintro ⟨type, delay⟩
    refine ⟨type, by rw [type], by rw [type], by rw [type], ?_⟩
    rw [type]
    by_cases timeout : x.spec.type = .timeout
    · simp [timeout, delay timeout]
    · simp [timeout]
  · rintro ⟨type, -, -, -, delay⟩
    refine ⟨type, fun timeout => ?_⟩
    simpa [type, timeout] using delay

theorem sameFault_iff_effect (value : K) :
    s.SameFault x ↔ ({ s.effect with value := value } : FaultEffect K) = { x.effect with value := value } := by
  rw [sameFault_iff]
  simp only [OverrideTable.Entry.fault, effect, OverrideTable.Entry.toEffect,
    OverrideTable.Entry.mk.injEq, FaultEffect.mk.injEq, true_and]
  tauto

end FaultSession

namespace FaultInjector

/-- The last live session stored under a key. -/
def stored (sessions : List (FaultSession K)) (key : UInt32) : Option (FaultSession K) :=
  (sessions.filter (fun s => s.live && s.spec.key == key)).getLast?

/-- The session whose entry is looked up: the point's own, or else the wildcard's. -/
def winner (sessions : List (FaultSession K)) (slave : UInt8) (reg : UInt16) : Option (FaultSession K) :=
  (stored sessions (OverrideTable.keyOf slave reg)).or (stored sessions OverrideTable.allKey)

/-- The injector without the faults scoped to other slaves. -/
def isolated (f : FaultInjector K) (slave : UInt8) : FaultInjector K :=
  { f with sessions := f.sessions.filter (·.concerns slave) }.rebuildTable

/-- A point suffers a fault exactly when a live session covers it, what it suffers is
all from one such session, and faults of other slaves make no difference. -/
structure Coverage (f : FaultInjector K) (slave : UInt8) (reg : UInt16) : Prop where
  active : (f.resolveOverride slave reg).active = true ↔ ∃ s ∈ f.sessions, s.covers slave reg = true
  source : (f.resolveOverride slave reg).active = true →
    ∃ s ∈ f.sessions, s.covers slave reg = true ∧ f.resolveOverride slave reg = s.effect
  isolated : f.resolveOverride slave reg = (f.isolated slave).resolveOverride slave reg

/-- The stored session has the fault that would be stored without the other slaves'
faults, and one that covers the point has this fault and the first one's value. -/
def Settled (sessions : List (FaultSession K)) (slave : UInt8) (reg : UInt16) : Prop :=
  ∀ w ∈ winner sessions slave reg,
    (∃ own ∈ winner (sessions.filter (·.concerns slave)) slave reg, w.SameFault own) ∧
    ∃ first ∈ sessions.find? (·.covers slave reg), ∃ s ∈ sessions, s.covers slave reg = true ∧
      w.SameFault s ∧ s.currentValue = first.currentValue

variable {sessions : List (FaultSession K)} {w : FaultSession K} {slave : UInt8} {reg : UInt16} {key : UInt32}

theorem stored_eq_none : stored sessions key = none ↔ ∀ s ∈ sessions, s.live = true → s.spec.key ≠ key := by
  simp only [stored, List.getLast?_eq_none_iff, List.filter_eq_nil_iff, Bool.and_eq_true, beq_iff_eq,
    not_and, ne_eq]

theorem winner_eq_none : winner sessions slave reg = none ↔ ∀ s ∈ sessions, s.live = true →
    s.spec.key ≠ OverrideTable.keyOf slave reg ∧ s.spec.key ≠ OverrideTable.allKey := by
  simp only [winner, Option.or_eq_none_iff, stored_eq_none]
  exact ⟨fun none s member live => ⟨none.1 s member live, none.2 s member live⟩,
    fun none => ⟨fun s member live => (none s member live).1, fun s member live => (none s member live).2⟩⟩

theorem winner_of_covers {s : FaultSession K} (member : s ∈ sessions) (covers : s.covers slave reg = true) :
    ∃ w, winner sessions slave reg = some w := by
  rw [← Option.ne_none_iff_exists']
  intro none
  have apart := winner_eq_none.mp none s member (FaultSession.covers_live covers)
  exact (FaultSession.covers_key covers).elim apart.1 apart.2

theorem find_concerned : (sessions.filter (·.concerns slave)).find? (·.covers slave reg) =
    sessions.find? (·.covers slave reg) := by
  rw [List.find?_filter]
  congr 1
  funext s
  cases covers : s.covers slave reg with
  | false => simp
  | true => simp [FaultSession.covers_concerns covers]

/-- A rebuilt table holds the entry of the last live session under each key. -/
theorem rebuild_getElem? : (rebuild sessions)[key]? = (stored sessions key).map FaultSession.entry := by
  induction sessions using List.reverseRecOn with
  | nil => simp [rebuild, stored]
  | append_singleton sessions s ih =>
    simp only [rebuild, stored, List.foldl_concat, List.filter_append, List.getLast?_append] at ih ⊢
    by_cases live : s.live = true
    · rw [if_pos live, Std.TreeMap.getElem?_insert]
      by_cases same : s.spec.key = key
      · simp [live, same]
      · simp [live, same, ih]
    · simp [live, ih]

/-- The table is up to date but for the values, which only a rebuild copies. -/
def Current (f : FaultInjector K) : Prop :=
  ∀ key, f.table[key]?.map (·.fault) = (stored f.sessions key).map (·.entry.fault)

variable {f : FaultInjector K}

theorem current_rebuildTable : f.rebuildTable.Current := by
  intro key
  simp only [rebuildTable, rebuild_getElem?, Option.map_map]
  rfl

/-- A lookup under one key finds what is stored there. -/
theorem Current.lookup (current : f.Current) (key : UInt32) :
    (f.table[key]? = none ∧ stored f.sessions key = none) ∨
      ∃ e w, f.table[key]? = some e ∧ stored f.sessions key = some w ∧ e.fault = w.entry.fault := by
  have agree := current key
  cases found : f.table[key]? with
  | none =>
    rw [found, Option.map_none] at agree
    exact Or.inl ⟨rfl, Option.map_eq_none_iff.mp agree.symm⟩
  | some e =>
    rw [found, Option.map_some] at agree
    obtain ⟨w, holds, same⟩ := Option.map_eq_some_iff.mp agree.symm
    exact Or.inr ⟨e, w, rfl, holds, same.symm⟩

theorem Current.resolve_none (current : f.Current) (none : winner f.sessions slave reg = none) :
    f.table.resolve slave reg = {} := by
  obtain ⟨noOwn, noWild⟩ := Option.or_eq_none_iff.mp none
  rcases current.lookup (OverrideTable.keyOf slave reg) with ⟨absent, -⟩ | ⟨e, w, -, holds, -⟩
  · rcases current.lookup OverrideTable.allKey with ⟨missing, -⟩ | ⟨e, w, -, holds, -⟩
    · simp only [OverrideTable.resolve, absent, missing]
    · rw [noWild] at holds
      cases holds
  · rw [noOwn] at holds
    cases holds

theorem Current.resolve_some (current : f.Current) (won : winner f.sessions slave reg = some w) :
    ∃ value, f.table.resolve slave reg = { w.effect with value := value } := by
  rcases current.lookup (OverrideTable.keyOf slave reg) with ⟨absent, noOwn⟩ | ⟨e, own, found, holds, same⟩
  · rw [winner, noOwn, Option.none_or] at won
    rcases current.lookup OverrideTable.allKey with ⟨-, noWild⟩ | ⟨e, wild, found, holds, same⟩
    · rw [noWild] at won
      cases won
    · rw [won] at holds
      cases holds
      refine ⟨e.value, ?_⟩
      simp only [OverrideTable.resolve, absent, found]
      exact OverrideTable.Entry.toEffect_of_fault same
  · rw [winner, holds, Option.some_or] at won
    cases won
    refine ⟨e.value, ?_⟩
    simp only [OverrideTable.resolve, found]
    exact OverrideTable.Entry.toEffect_of_fault same

theorem Current.resolveOverride_none (current : f.Current) (none : winner f.sessions slave reg = none) :
    f.resolveOverride slave reg = {} := by
  simp only [resolveOverride, current.resolve_none none, Bool.false_eq_true, if_false]

theorem Current.resolveOverride_active (current : f.Current) (won : winner f.sessions slave reg = some w) :
    (f.resolveOverride slave reg).active = true := by
  obtain ⟨value, found⟩ := current.resolve_some won
  simp only [resolveOverride, found, FaultSession.effect, OverrideTable.Entry.toEffect, if_true]
  split <;> rfl

/-- The looked-up fault with the value of the first session that covers the point. -/
theorem Current.resolveOverride_some (current : f.Current) (won : winner f.sessions slave reg = some w)
    {first : FaultSession K} (leads : f.sessions.find? (·.covers slave reg) = some first) :
    f.resolveOverride slave reg = { w.effect with value := first.currentValue } := by
  obtain ⟨value, found⟩ := current.resolve_some won
  simp only [resolveOverride, found, leads, FaultSession.effect, OverrideTable.Entry.toEffect, if_true]

/-- What the injector reports without the other slaves' faults. -/
theorem isolated_resolveOverride {own first : FaultSession K}
    (won : winner (f.sessions.filter (·.concerns slave)) slave reg = some own)
    (leads : f.sessions.find? (·.covers slave reg) = some first) :
    (f.isolated slave).resolveOverride slave reg = { own.effect with value := first.currentValue } := by
  apply (current_rebuildTable : (f.isolated slave).Current).resolveOverride_some won
  rw [← leads]
  exact find_concerned

theorem find_covers {s : FaultSession K} (member : s ∈ sessions) (covers : s.covers slave reg = true) :
    ∃ first, sessions.find? (·.covers slave reg) = some first := by
  rw [← Option.isSome_iff_exists, List.find?_isSome]
  exact ⟨s, member, covers⟩

theorem Current.coverage (current : f.Current) (settled : Settled f.sessions slave reg) :
    f.Coverage slave reg := by
  cases won : winner f.sessions slave reg with
  | none =>
    have silent := current.resolveOverride_none won
    have apart := winner_eq_none.mp won
    refine ⟨⟨fun active => ?_, ?_⟩, fun active => ?_, ?_⟩
    · simp [silent] at active
    · rintro ⟨s, member, covers⟩
      obtain ⟨w, some⟩ := winner_of_covers member covers
      rw [won] at some
      cases some
    · simp [silent] at active
    · rw [silent]
      have none : winner (f.isolated slave).sessions slave reg = none :=
        winner_eq_none.mpr fun s member live => apart s (List.mem_filter.mp member).1 live
      exact (current_rebuildTable.resolveOverride_none none).symm
  | some w =>
    obtain ⟨⟨own, ownWon, ownFault⟩, first, leads, s, member, covers, fault, value⟩ := settled w won
    have reported := current.resolveOverride_some won leads
    refine ⟨⟨fun _ => ⟨s, member, covers⟩, fun _ => current.resolveOverride_active won⟩, fun _ => ?_, ?_⟩
    · refine ⟨s, member, covers, ?_⟩
      rw [reported, (FaultSession.sameFault_iff_effect first.currentValue).mp fault, ← value]
      rfl
    · rw [reported, isolated_resolveOverride ownWon leads]
      exact (FaultSession.sameFault_iff_effect first.currentValue).mp ownFault

theorem Current.settled (current : f.Current) (coverage : f.Coverage slave reg) :
    Settled f.sessions slave reg := by
  intro w won
  have active := current.resolveOverride_active won
  obtain ⟨s, member, covers, reported⟩ := coverage.source active
  obtain ⟨first, leads⟩ := find_covers member covers
  have looked := current.resolveOverride_some won leads
  constructor
  · have concerned : s ∈ f.sessions.filter (·.concerns slave) :=
      List.mem_filter.mpr ⟨member, FaultSession.covers_concerns covers⟩
    obtain ⟨own, ownWon⟩ := winner_of_covers concerned covers
    have alone := coverage.isolated
    rw [looked, isolated_resolveOverride ownWon leads] at alone
    exact ⟨own, ownWon, (FaultSession.sameFault_iff_effect first.currentValue).mpr alone⟩
  · rw [looked] at reported
    have value : first.currentValue = s.currentValue := congrArg FaultEffect.value reported
    refine ⟨first, leads, s, member, covers, ?_, value.symm⟩
    rw [FaultSession.sameFault_iff_effect first.currentValue, reported, value]
    rfl

/-- What the table depends on, but for the values. -/
def profile (s : FaultSession K) : FaultState × FaultOverride K := (s.state, s.spec)

theorem stored_profile (sessions : List (FaultSession K)) (key : UInt32) :
    (stored sessions key).map profile = ((sessions.map profile).filter
      (fun t => (t.1 == .active || t.1 == .recovering) && t.2.key == key)).getLast? := by
  rw [List.filter_map, List.getLast?_map]
  rfl

/-- Sessions that keep their states and specs keep the table up to date. -/
theorem Current.of_profile {g : FaultInjector K} (current : f.Current) (table : g.table = f.table)
    (same : g.sessions.map profile = f.sessions.map profile) : g.Current := by
  intro key
  have stays : (stored g.sessions key).map profile = (stored f.sessions key).map profile := by
    rw [stored_profile, stored_profile, same]
  have faults (sessions : List (FaultSession K)) : (stored sessions key).map (·.entry.fault) =
      ((stored sessions key).map profile).map (fun t => ({ spec := t.2 } : FaultSession K).entry.fault) := by
    rw [Option.map_map]
    rfl
  rw [table, current key, faults, faults, stays]

theorem current_changeFirst (current : f.Current) (picked : FaultSession K → Bool)
    (change : FaultSession K → FaultSession K) : (f.changeFirst picked change).1.Current := by
  unfold changeFirst
  split
  · exact current_rebuildTable
  · exact current

section Ramp
variable [Add K] [Sub K] [Neg K] [Mul K] [Div K] [IntCast K] [LT K] [DecidableLT K]

theorem tick_spec (s : FaultSession K) (nowMonoMs clock : Int) : (s.tick nowMonoMs clock).spec = s.spec := by
  cases state : s.state with
  | recovering =>
    simp only [FaultSession.tick, state]
    split
    · rfl
    · split <;> rfl
  | active =>
    simp only [FaultSession.tick, state]
    split <;> rfl
  | idle => simp only [FaultSession.tick, state]
  | aborted => simp only [FaultSession.tick, state]

theorem current_tickSessions (current : f.Current) (dtMs : UInt32) (nowMonoMs : Int) (clock : Nat → Int) :
    (f.tickSessions dtMs nowMonoMs clock).Current := by
  simp only [tickSessions]
  split
  · exact current_rebuildTable
  · rename_i still
    have states : (f.sessions.mapIdx (fun i s => s.tick nowMonoMs (clock i))).map (·.state) =
        f.sessions.map (·.state) := by simpa using still
    refine current.of_profile rfl ?_
    apply List.ext_getElem (by simp)
    intro i inTicked inSessions
    have state := List.getElem_of_eq states (by simpa using inTicked)
    simp only [List.getElem_map, List.getElem_mapIdx, profile, tick_spec] at state ⊢
    rw [state]

theorem current_step (current : f.Current) (input : FaultInput K) : (f.step input).1.Current := by
  cases input with
  | trigger req startMonoMs nowMonoMs =>
    simp only [step, trigger]
    split
    · exact current
    · exact current_rebuildTable
  | recover h recoverValue clock => exact current_changeFirst current _ _
  | abort h => exact current_changeFirst current _ _
  | tickSessions dtMs nowMonoMs clock => exact current_tickSessions current dtMs nowMonoMs clock

theorem current_run (inputs : List (FaultInput K)) :
    (Runs.run step ({} : FaultInjector K) inputs).Current :=
  Runs.reached_always step inputs (current_rebuildTable (f := {})) (fun _ input current => current_step current input) _
    Runs.run_mem_reached

/-- After any history a point suffers the faults that cover it, and no others, exactly
when the session stored for it has their fault. -/
theorem coverage_iff (inputs : List (FaultInput K)) (slave : UInt8) (reg : UInt16) :
    (Runs.run step ({} : FaultInjector K) inputs).Coverage slave reg ↔
      Settled (Runs.run step ({} : FaultInjector K) inputs).sessions slave reg :=
  ⟨(current_run inputs).settled, (current_run inputs).coverage⟩

end Ramp

/-- An over-temperature of one slave only. -/
def slaveFault : List (FaultInput Int) := [.trigger { scope := .slave, slave := 3, targetValue := 80 } 0 0]

/-- The fault of slave 3 is looked up for every slave. -/
theorem coverage_fails : ¬(Runs.run step ({} : FaultInjector Int) slaveFault).Coverage 1 0 := by
  intro coverage
  obtain ⟨s, member, covers⟩ := coverage.active.mp (by decide +kernel)
  have none : (Runs.run step ({} : FaultInjector Int) slaveFault).sessions.any (·.covers 1 0) = false := by
    decide +kernel
  simp only [List.any_eq_false] at none
  exact none s member covers

end FaultInjector
end EnerSentry.Sim
