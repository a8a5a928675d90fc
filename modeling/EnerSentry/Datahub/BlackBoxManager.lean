import EnerSentry.Datahub.CriticalSwapFile
import EnerSentry.Datahub.L1SnapshotStore
import EnerSentry.Lib.Runs

/-!
The black box: an alarm takes the samples around its time out of the store, and those of a
critical alarm are appended to the swap file. The last result says for which alarms the
snapshot can be read back until newer ones have taken its slot, whatever happens to the
process in between.
-/

namespace EnerSentry.Datahub
open EnerSentry.Lib EnerSentry.Lib.Runs

def kPreWindowMs : UInt64 := 30000

def kPostWindowMs : UInt64 := 30000

/-- The most samples that a snapshot takes out of the store. -/
def kMaxSamples : Nat := 1200

structure BlackBoxManager where
  swap : Option CriticalSwapFile := none
  criticalTriggers : UInt32 := 0
  deriving DecidableEq, Repr

/-- A manager and the swap file on disk. -/
structure BlackBox (T : Type*) where
  manager : BlackBoxManager := {}
  image : SwapImage T

/-- What happens to a black box: the calls of a process, and the start of the next process. -/
inductive BlackBoxCall (T : Type*) where
  | enableCriticalSwap (mappable : Bool)
  | triggerBlackBox (l1Store : Option (L1SnapshotStore T)) (pointId : UInt32) (alarmTime : UInt64) (level : AlarmLevel)
  | forceSync
  | restart

namespace BlackBox
variable {T : Type*} (timestamp : T → UInt64)

/-- The samples of an alarm. -/
def alarmSamples (l1Store : Option (L1SnapshotStore T)) (pointId : UInt32) (alarmTime : UInt64) : List T :=
  match l1Store with
  | some store =>
      store.extractRange timestamp pointId (if kPreWindowMs < alarmTime then alarmTime - kPreWindowMs else 0)
        (alarmTime + kPostWindowMs) kMaxSamples
  | none => []

def snapshotOf (l1Store : Option (L1SnapshotStore T)) (pointId : UInt32) (alarmTime : UInt64)
    (level : AlarmLevel) : BlackBoxSnapshot T where
  pointId := pointId
  alarmTime := alarmTime
  level := level
  samples := alarmSamples timestamp l1Store pointId alarmTime

/-- The black box after an alarm, the snapshot that is returned and whether the swap file took it. -/
def triggerBlackBox (b : BlackBox T) (l1Store : Option (L1SnapshotStore T)) (pointId : UInt32)
    (alarmTime : UInt64) (level : AlarmLevel) : BlackBox T × BlackBoxSnapshot T × Bool :=
  let snap := snapshotOf timestamp l1Store pointId alarmTime level
  if level = .critical then
    let manager := { b.manager with criticalTriggers := b.manager.criticalTriggers + 1 }
    match b.manager.swap with
    | some file =>
        let (file, image, appended) := file.appendSnapshot b.image snap
        ({ manager := { manager with swap := some file }, image := image }, snap, appended)
    | none => ({ b with manager := manager }, snap, false)
  else (b, snap, false)

section Alarms
variable {timestamp} {b : BlackBox T} {l1Store : Option (L1SnapshotStore T)} {pointId : UInt32} {alarmTime : UInt64}
  {level : AlarmLevel} {snap : BlackBoxSnapshot T}

/-- What holds between calls: the header is sound, and an open handle agrees with it. -/
structure Written (b : BlackBox T) : Prop where
  sound : b.image.header.Sound
  handle : ∀ file, b.manager.swap = some file → file.initialized = true →
    file = CriticalSwapFile.ofHeader b.image.header ∧ b.image.header.magic = kMagic

/-- The swap file is open. -/
def Opened (b : BlackBox T) : Prop := ∃ file, b.manager.swap = some file ∧ file.initialized = true

/-- It is open and has room for the snapshot. -/
def Takes (b : BlackBox T) (snap : BlackBoxSnapshot T) : Prop :=
  Opened b ∧ snap.samples.length ≤ kMaxSamplesPerSnap

/-- A black box with one more critical snapshot in its file. -/
def advance (b : BlackBox T) (snap : BlackBoxSnapshot T) : BlackBox T where
  manager :=
    { swap := some (CriticalSwapFile.ofHeader (b.image.record snap).header)
      criticalTriggers := b.manager.criticalTriggers + 1 }
  image := b.image.record snap

theorem triggerBlackBox_takes (written : Written b)
    (takes : Takes b (snapshotOf timestamp l1Store pointId alarmTime .critical)) :
    b.triggerBlackBox timestamp l1Store pointId alarmTime .critical =
      (b.advance (snapshotOf timestamp l1Store pointId alarmTime .critical),
        snapshotOf timestamp l1Store pointId alarmTime .critical, true) := by
  obtain ⟨⟨file, present, opened⟩, fits⟩ := takes
  obtain ⟨rfl, -⟩ := written.handle file present opened
  simp only [triggerBlackBox, present, CriticalSwapFile.appendSnapshot_ofHeader fits, ↓reduceIte, advance]

theorem triggerBlackBox_refuses
    (refused : level ≠ .critical ∨ ¬Takes b (snapshotOf timestamp l1Store pointId alarmTime level)) :
    ∃ triggers, b.triggerBlackBox timestamp l1Store pointId alarmTime level =
      ({ b with manager := { b.manager with criticalTriggers := triggers } },
        snapshotOf timestamp l1Store pointId alarmTime level, false) := by
  unfold triggerBlackBox
  by_cases critical : level = .critical
  · simp only [if_pos critical]
    have unfit := refused.resolve_left (not_not.mpr critical)
    cases present : b.manager.swap with
    | none => exact ⟨_, rfl⟩
    | some file =>
      have failed : file.initialized = false ∨
          kMaxSamplesPerSnap < (snapshotOf timestamp l1Store pointId alarmTime level).samples.length := by
        by_contra both
        rw [not_or, Bool.not_eq_false, Nat.not_lt] at both
        exact unfit ⟨⟨file, present, both.1⟩, both.2⟩
      simp only [CriticalSwapFile.appendSnapshot_refused failed]
      exact ⟨_, rfl⟩
  · rw [if_neg critical]
    exact ⟨b.manager.criticalTriggers, rfl⟩

theorem Written.advance (written : Written b) (opened : Opened b)
    (snap : BlackBoxSnapshot T) : Written (b.advance snap) where
  sound := written.sound.record
  handle file present _ := by
    obtain ⟨before, there, ready⟩ := opened
    exact ⟨(Option.some.inj present).symm, (written.handle before there ready).2⟩

/-- An alarm leaves the swap file open. -/
theorem opened_triggerBlackBox (timestamp : T → UInt64) (l1Store : Option (L1SnapshotStore T)) (pointId : UInt32)
    (alarmTime : UInt64) (written : Written b) (opened : Opened b) :
    Opened (b.triggerBlackBox timestamp l1Store pointId alarmTime .critical).1 := by
  by_cases takes : Takes b (snapshotOf timestamp l1Store pointId alarmTime .critical)
  · rw [triggerBlackBox_takes written takes]
    exact ⟨_, rfl, rfl⟩
  · obtain ⟨triggers, result⟩ := triggerBlackBox_refuses (Or.inr takes)
    rw [result]
    exact opened

theorem triggerBlackBox_snapshot (b : BlackBox T) :
    (b.triggerBlackBox timestamp l1Store pointId alarmTime .critical).2.1 =
      snapshotOf timestamp l1Store pointId alarmTime .critical := by
  unfold triggerBlackBox
  rw [if_pos rfl]
  split <;> rfl

end Alarms

variable [Zero T]

def enableCriticalSwap (b : BlackBox T) (mappable : Bool) : BlackBox T × Bool :=
  match CriticalSwapFile.openFile mappable {} b.image with
  | (file, image, true) => ({ manager := { b.manager with swap := some file }, image := image }, true)
  | (_, image, false) => ({ b with image := image }, false)

def forceSync (b : BlackBox T) : BlackBox T :=
  { b with manager := { b.manager with swap := b.manager.swap.map CriticalSwapFile.close } }

/-- One call; the outputs are the snapshots that the swap file takes. -/
def step : Step (BlackBox T) (BlackBoxCall T) (BlackBoxSnapshot T)
  | b, .enableCriticalSwap mappable => ((b.enableCriticalSwap mappable).1, [])
  | b, .triggerBlackBox l1Store pointId alarmTime level =>
      let (b, snap, appended) := b.triggerBlackBox timestamp l1Store pointId alarmTime level
      (b, if appended then [snap] else [])
  | b, .forceSync => (b.forceSync, [])
  | b, .restart => ({ b with manager := {} }, [])

/-- A critical alarm is durable: the snapshot it returns can be read from the opened file as
long as fewer newer ones than there are slots have come, whatever else happens. -/
def Durable (b : BlackBox T) (l1Store : Option (L1SnapshotStore T)) (pointId : UInt32) (alarmTime : UInt64) : Prop :=
  ∀ calls, (outputs (step timestamp) (b.triggerBlackBox timestamp l1Store pointId alarmTime .critical).1
      calls).length < kSlotCount →
    ∀ file, (run (step timestamp) (b.triggerBlackBox timestamp l1Store pointId alarmTime .critical).1
        calls).manager.swap = some file → file.initialized = true →
      ∀ limit, min file.snapshotCount.toNat kSlotCount ≤ limit →
        (b.triggerBlackBox timestamp l1Store pointId alarmTime .critical).2.1 ∈
          file.parsePendingSnapshots
            (run (step timestamp) (b.triggerBlackBox timestamp l1Store pointId alarmTime .critical).1 calls).image
            limit

section Transitions
variable {timestamp} {b : BlackBox T}

/-- A call leaves the file alone, starts a file of another kind afresh, or adds the snapshot
that it puts out. -/
theorem step_cases (timestamp : T → UInt64) (written : Written b) (call : BlackBoxCall T) :
    Written (b.step timestamp call).1 ∧
      (((b.step timestamp call).2 = [] ∧
          ((b.step timestamp call).1.image = b.image ∨ b.image.header.magic ≠ kMagic)) ∨
        ∃ snap, (b.step timestamp call).2 = [snap] ∧ (b.step timestamp call).1 = b.advance snap) := by
  cases call with
  | enableCriticalSwap mappable =>
    simp only [step, enableCriticalSwap]
    rcases CriticalSwapFile.openFile_cases written.sound mappable {} with failed | ⟨foreign, fresh⟩ | ⟨own, opened⟩
    · rw [failed]
      exact ⟨⟨written.sound, written.handle⟩, Or.inl ⟨trivial, Or.inl rfl⟩⟩
    · rw [fresh]
      refine ⟨⟨fun _ => ⟨rfl, rfl⟩, fun file present _ => ?_⟩, Or.inl ⟨trivial, Or.inr foreign⟩⟩
      exact ⟨(Option.some.inj present).symm, rfl⟩
    · rw [opened]
      refine ⟨⟨written.sound, fun file present _ => ?_⟩, Or.inl ⟨trivial, Or.inl rfl⟩⟩
      exact ⟨(Option.some.inj present).symm, own⟩
  | triggerBlackBox l1Store pointId alarmTime level =>
    by_cases taken : level = .critical ∧ Takes b (snapshotOf timestamp l1Store pointId alarmTime level)
    · obtain ⟨rfl, takes⟩ := taken
      rw [step, triggerBlackBox_takes written takes]
      exact ⟨written.advance takes.1 _, Or.inr ⟨_, rfl, rfl⟩⟩
    · rw [not_and_or] at taken
      obtain ⟨triggers, result⟩ := triggerBlackBox_refuses taken
      rw [step, result]
      exact ⟨⟨written.sound, written.handle⟩, Or.inl ⟨rfl, Or.inl rfl⟩⟩
  | forceSync =>
    refine ⟨⟨written.sound, fun file present ready => ?_⟩, Or.inl ⟨rfl, Or.inl rfl⟩⟩
    obtain ⟨before, -, rfl⟩ := Option.map_eq_some_iff.mp present
    cases ready
  | restart =>
    refine ⟨⟨written.sound, fun file present _ => ?_⟩, Or.inl ⟨rfl, Or.inl rfl⟩⟩
    cases present

theorem written_run (timestamp : T → UInt64) {image : SwapImage T} (foreign : image.header.magic ≠ kMagic)
    (calls : List (BlackBoxCall T)) :
    Written (run (step timestamp) { image := image } calls) := by
  have start : Written ({ image := image } : BlackBox T) :=
    ⟨fun own => absurd own foreign, fun file present => by cases present⟩
  exact reached_always (step timestamp) calls start
    (fun b call written => (step_cases timestamp written call).1) _ run_mem_reached

/-- A slot that still holds its snapshot after `n` snapshots in all. -/
structure Holds (b : BlackBox T) (place : Nat) (slot : SwapSlot T) (n : Nat) : Prop where
  written : Written b
  own : b.image.header.magic = kMagic
  count : b.image.header.snapshotCount.toNat = n
  slot : b.image.slots place = slot

/-- A slot keeps its snapshot until it is its turn again. -/
theorem Holds.step {place n : Nat} {slot : SwapSlot T} (holds : Holds b place slot n) (call : BlackBoxCall T)
    (room : n + (b.step timestamp call).2.length < 2 ^ 32)
    (apart : (b.step timestamp call).2 ≠ [] → n % kSlotCount ≠ place) :
    Holds (b.step timestamp call).1 place slot (n + (b.step timestamp call).2.length) := by
  obtain ⟨written, ⟨none, same | foreign⟩ | ⟨snap, one, after⟩⟩ := step_cases timestamp holds.written call
  · refine ⟨written, ?_, ?_, ?_⟩
    · rw [same, holds.own]
    · rw [same, none, holds.count, List.length_nil, Nat.add_zero]
    · rw [same, holds.slot]
  · exact absurd holds.own foreign
  · rw [one, List.length_singleton] at room ⊢
    have turn := apart (by rw [one]; exact List.cons_ne_nil _ _)
    have position := (holds.written.sound holds.own).2
    rw [after] at written ⊢
    refine ⟨written, holds.own, ?_, ?_⟩
    · change (b.image.header.snapshotCount + 1).toNat = n + 1
      rw [UInt32.toNat_add, holds.count, UInt32.toNat_one, Nat.mod_eq_of_lt room]
    · change Function.update b.image.slots _ _ place = slot
      rw [position, holds.count, Nat.mod_mod, Function.update_of_ne turn.symm, holds.slot]

theorem Holds.run {place n first : Nat} {slot : SwapSlot T} (calls : List (BlackBoxCall T))
    (holds : Holds b place slot n) (later : first < n) (turn : first % kSlotCount = place)
    (bound : first + kSlotCount < 2 ^ 32)
    (fewer : n + (outputs (BlackBox.step timestamp) b calls).length ≤ first + kSlotCount) :
    Holds (Runs.run (BlackBox.step timestamp) b calls) place slot
      (n + (outputs (BlackBox.step timestamp) b calls).length) := by
  induction calls generalizing b n with
  | nil => exact holds
  | cons call calls ih =>
    rw [outputs, List.length_append] at fewer ⊢
    have apart : (b.step timestamp call).2 ≠ [] → n % kSlotCount ≠ place := by
      intro more
      have one := List.length_pos_iff.mpr more
      rw [← turn]
      simp only [kSlotCount] at fewer ⊢
      omega
    have next := holds.step call (by omega) apart
    rw [← Nat.add_assoc] at fewer ⊢
    exact ih next (by omega) fewer

/-- Critical alarms without samples count on. -/
theorem run_empty_alarms (timestamp : T → UInt64) (pointId : UInt32) (alarmTime : UInt64) (written : Written b)
    (opened : Opened b) (j : Nat) :
    (outputs (BlackBox.step timestamp) b
        (List.replicate j (.triggerBlackBox none pointId alarmTime .critical))).length = j ∧
      Opened (Runs.run (BlackBox.step timestamp) b
        (List.replicate j (.triggerBlackBox none pointId alarmTime .critical))) ∧
      Written (Runs.run (BlackBox.step timestamp) b
        (List.replicate j (.triggerBlackBox none pointId alarmTime .critical))) ∧
      (Runs.run (BlackBox.step timestamp) b
        (List.replicate j (.triggerBlackBox none pointId alarmTime .critical))).image.header.snapshotCount =
          b.image.header.snapshotCount + UInt32.ofNat j := by
  induction j generalizing b with
  | zero => exact ⟨rfl, opened, written, (UInt32.add_zero _).symm⟩
  | succ j ih =>
    have takes : Takes b (snapshotOf timestamp none pointId alarmTime .critical) := ⟨opened, Nat.zero_le _⟩
    have one : b.step timestamp (.triggerBlackBox none pointId alarmTime .critical) =
        (b.advance (snapshotOf timestamp none pointId alarmTime .critical),
          [snapshotOf timestamp none pointId alarmTime .critical]) := by
      rw [BlackBox.step, triggerBlackBox_takes written takes]
      rfl
    obtain ⟨length, ready, kept, count⟩ := ih (written.advance opened _) ⟨_, rfl, rfl⟩
    rw [List.replicate_succ, outputs, Runs.run, one, List.length_append, List.length_singleton, length, count]
    refine ⟨Nat.add_comm 1 j, ready, kept, ?_⟩
    change b.image.header.snapshotCount + 1 + UInt32.ofNat j = _
    rw [Nat.add_comm j 1, UInt32.ofNat_add, UInt32.add_assoc]
    rfl

end Transitions

section Durability
variable {timestamp} {b : BlackBox T} {l1Store : Option (L1SnapshotStore T)} {pointId : UInt32} {alarmTime : UInt64}
  {file : CriticalSwapFile}

theorem durable_of (written : Written b) (opened : Opened b)
    (some_ : alarmSamples timestamp l1Store pointId alarmTime ≠ [])
    (fits : (alarmSamples timestamp l1Store pointId alarmTime).length ≤ kMaxSamplesPerSnap)
    (bound : b.image.header.snapshotCount.toNat + kSlotCount < 2 ^ 32) :
    Durable timestamp b l1Store pointId alarmTime := by
  intro calls fewer file present ready limit sufficient
  have own := (written.handle _ opened.choose_spec.1 opened.choose_spec.2).2
  have position := (written.sound own).2
  rw [triggerBlackBox_snapshot]
  rw [triggerBlackBox_takes written ⟨opened, fits⟩] at fewer present ⊢
  have start : Holds (b.advance (snapshotOf timestamp l1Store pointId alarmTime .critical))
      (b.image.header.snapshotCount.toNat % kSlotCount)
      ((b.image.slots (b.image.header.snapshotCount.toNat % kSlotCount)).write
        (snapshotOf timestamp l1Store pointId alarmTime .critical))
      (b.image.header.snapshotCount.toNat + 1) := by
    refine ⟨written.advance opened _, own, ?_, ?_⟩
    · change (b.image.header.snapshotCount + 1).toNat = _
      rw [UInt32.toNat_add, UInt32.toNat_one, Nat.mod_eq_of_lt (by simp only [kSlotCount] at bound; omega)]
    · change Function.update b.image.slots _ _ _ = _
      rw [position, Nat.mod_mod, Function.update_self]
  have holds := start.run calls (Nat.lt_succ_self _) rfl bound (by
    rw [Nat.add_assoc, Nat.add_comm 1]
    exact Nat.add_le_add_left fewer _)
  obtain ⟨rfl, -⟩ := holds.written.handle file present ready
  have count : (CriticalSwapFile.ofHeader (Runs.run (BlackBox.step timestamp)
      (b.advance (snapshotOf timestamp l1Store pointId alarmTime .critical)) calls).image.header).snapshotCount.toNat
        = _ := holds.count
  have inside := Nat.mod_lt b.image.header.snapshotCount.toNat (show 0 < kSlotCount by decide)
  have early := Nat.mod_le b.image.header.snapshotCount.toNat kSlotCount
  apply CriticalSwapFile.mem_parsePendingSnapshots rfl rfl inside
  · rw [holds.slot]
    exact SwapSlot.read_write some_ fits
  · rw [count]
    omega
  · exact sufficient

/-- What can be read back at once has samples, and no more than a slot takes. -/
theorem fits_of_durable (written : Written b) (opened : Opened b)
    (durable : Durable timestamp b l1Store pointId alarmTime) :
    alarmSamples timestamp l1Store pointId alarmTime ≠ [] ∧
      (alarmSamples timestamp l1Store pointId alarmTime).length ≤ kMaxSamplesPerSnap := by
  obtain ⟨after, there, open_⟩ := opened_triggerBlackBox timestamp l1Store pointId alarmTime written opened
  have back := durable [] (show 0 < kSlotCount by decide) after there open_ _ le_rfl
  rw [triggerBlackBox_snapshot] at back
  obtain ⟨some_, fits, -⟩ := CriticalSwapFile.parsePendingSnapshots_bounds back
  exact ⟨some_, fits⟩

/-- Alarms without samples run a count over that is too near to its end, and the file reads as empty. -/
theorem bound_of_durable (written : Written b) (opened : Opened b)
    (fits : (alarmSamples timestamp l1Store pointId alarmTime).length ≤ kMaxSamplesPerSnap)
    (durable : Durable timestamp b l1Store pointId alarmTime) :
    b.image.header.snapshotCount.toNat + kSlotCount < 2 ^ 32 := by
  by_contra wraps
  have small := b.image.header.snapshotCount.toNat_lt
  unfold Durable at durable
  rw [triggerBlackBox_takes written ⟨opened, fits⟩] at durable
  obtain ⟨length, ⟨last, final, still⟩, kept, count⟩ := run_empty_alarms timestamp pointId alarmTime
    (written.advance opened (snapshotOf timestamp l1Store pointId alarmTime .critical)) ⟨_, rfl, rfl⟩
    (2 ^ 32 - 1 - b.image.header.snapshotCount.toNat)
  have gone := durable _ (by rw [length]; simp only [kSlotCount] at wraps ⊢; omega) last final still _ le_rfl
  apply (CriticalSwapFile.parsePendingSnapshots_bounds gone).2.2
  obtain ⟨rfl, -⟩ := kept.handle last final still
  apply UInt32.toNat_inj.mp
  rw [CriticalSwapFile.ofHeader, count]
  change (_ + 1 + UInt32.ofNat _).toNat = 0
  rw [UInt32.toNat_add, UInt32.toNat_add,
    UInt32.toNat_ofNat_of_lt' (Nat.lt_of_le_of_lt (Nat.sub_le _ _) (by decide)), UInt32.toNat_one]
  omega

/-- A critical alarm is durable if and only if it has samples, no more than a slot takes, and the
count of the swap file does not run over before the slot's turn comes again. -/
theorem durable_iff (timestamp : T → UInt64) {image : SwapImage T} (foreign : image.header.magic ≠ kMagic)
    (calls : List (BlackBoxCall T))
    (present : (Runs.run (BlackBox.step timestamp) { image := image } calls).manager.swap = some file)
    (ready : file.initialized = true) (l1Store : Option (L1SnapshotStore T)) (pointId : UInt32) (alarmTime : UInt64) :
    Durable timestamp (Runs.run (BlackBox.step timestamp) { image := image } calls) l1Store pointId alarmTime ↔
      alarmSamples timestamp l1Store pointId alarmTime ≠ [] ∧
        (alarmSamples timestamp l1Store pointId alarmTime).length ≤ kMaxSamplesPerSnap ∧
        file.snapshotCount.toNat + kSlotCount < 2 ^ 32 := by
  have written := written_run timestamp foreign calls
  obtain ⟨rfl, own⟩ := written.handle file present ready
  have opened : Opened (Runs.run (BlackBox.step timestamp) { image := image } calls) := ⟨_, present, ready⟩
  constructor
  · intro durable
    obtain ⟨some_, fits⟩ := fits_of_durable written opened durable
    exact ⟨some_, fits, bound_of_durable written opened fits durable⟩
  · rintro ⟨some_, fits, bound⟩
    exact durable_of written opened some_ fits bound

/-- A file of zero bytes. -/
def zeroFile : SwapImage UInt64 where
  header := { magic := List.replicate 8 0, version := 0, snapshotCount := 0, writePos := 0 }
  slots _ := { pointId := 0, alarmTime := 0, level := .info, count := 0, samples := fun _ => 0 }

/-- A store with point 7 alone, just registered; a sample is no more than its time stamp here. -/
def fresh7 : L1SnapshotStore UInt64 where
  sparseBuffers p := if p = 7 then some { capacity := ⟨256, by decide⟩, buffer := fun _ => 0 } else none

/-- The same store after one sample. -/
def sampled7 : L1SnapshotStore UInt64 where
  sparseBuffers p := (fresh7.sparseBuffers p).map (RingBuffer.push · 50000)

theorem durable_iff_sampled :
    Durable id (Runs.run (BlackBox.step id) { image := zeroFile } [.enableCriticalSwap true]) (some sampled7) 7 60000 ↔
      alarmSamples id (some sampled7) 7 60000 ≠ [] ∧
        (alarmSamples id (some sampled7) 7 60000).length ≤ kMaxSamplesPerSnap ∧
        (0 : UInt32).toNat + kSlotCount < 2 ^ 32 :=
  durable_iff id (show zeroFile.header.magic ≠ kMagic by decide) [.enableCriticalSwap true] rfl rfl (some sampled7)
    7 60000

/-- A critical alarm of a point that has no samples yet is stored as an empty slot. -/
theorem durable_fails : ¬Durable id (Runs.run (BlackBox.step id) { image := zeroFile } [.enableCriticalSwap true])
    (some fresh7) 7 60000 := by
  intro durable
  have back := durable [] (show 0 < kSlotCount by decide) _ rfl rfl 64 (by decide)
  exact (CriticalSwapFile.parsePendingSnapshots_bounds back).1 rfl

end Durability

end BlackBox
end EnerSentry.Datahub
