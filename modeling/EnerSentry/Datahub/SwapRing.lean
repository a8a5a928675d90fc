import EnerSentry.Datahub.CriticalSwapFile
import EnerSentry.Lib.Laps
import EnerSentry.Lib.Recent
import EnerSentry.Lib.Runs

/-!
What the swap file gives back. The slots are filled one after the other, round and round,
and the handle and the header keep the place through every close and opening; but the
reader begins at slot 0 wherever the oldest snapshot is, and takes an empty snapshot for a
free slot. The last result says when it still gives the snapshots in the order in which
they were appended.
-/

namespace EnerSentry.Datahub
open EnerSentry.Lib EnerSentry.Lib.Runs

/-- The calls on a handle of one swap file. -/
inductive SwapCall (T : Type*) where
  | openFile (mappable : Bool)
  | appendSnapshot (snap : BlackBoxSnapshot T)
  | close

/-- A handle and the file on disk. -/
structure SwapSession (T : Type*) where
  file : CriticalSwapFile := {}
  image : SwapImage T

namespace SwapSession
variable {T : Type*}

/-- One call; the outputs are the snapshots that are appended. -/
def step [Zero T] : Step (SwapSession T) (SwapCall T) (BlackBoxSnapshot T)
  | s, .openFile mappable =>
      let (file, image, _) := CriticalSwapFile.openFile mappable s.file s.image
      ({ file := file, image := image }, [])
  | s, .appendSnapshot snap =>
      let (file, image, appended) := s.file.appendSnapshot s.image snap
      ({ file := file, image := image }, if appended then [snap] else [])
  | s, .close => ({ s with file := s.file.close }, [])

/-- The appended snapshots that no later one has overwritten, the oldest first. -/
def retained (log : List (BlackBoxSnapshot T)) : List (BlackBoxSnapshot T) :=
  log.drop (log.length - kSlotCount)

/-- The snapshots in the slots from slot 0 on that the lap which has begun has filled, without the empty ones. -/
def begun (log : List (BlackBoxSnapshot T)) : List (BlackBoxSnapshot T) :=
  (log.drop (log.length - log.length % kSlotCount)).filter (fun snap => snap.samples ≠ [])

/-- When the snapshots that are due can be read in their order: the count has not run over, none of
them is empty, and no lap has begun after the first, or all its snapshots are empty, or those that
are due run through the others over and over. -/
def Recoverable (log : List (BlackBoxSnapshot T)) (limit : Nat) : Prop :=
  ((retained log).take limit).length ≤ log.length % 2 ^ 32 ∧
    (∀ snap ∈ (retained log).take limit, snap.samples ≠ []) ∧
    (log.length ≤ kSlotCount ∨ begun log = [] ∨
      ∀ i < ((retained log).take limit).length,
        ((retained log).take limit)[i]? = (begun log)[i % (begun log).length]?)

/-- What the reader finds of a snapshot in its slot. -/
def stored (snap : BlackBoxSnapshot T) : Option (BlackBoxSnapshot T) :=
  if snap.samples = [] then none else some snap

/-- The file of a log of appended snapshots, and a handle that is closed or agrees with it. -/
structure Recorded (s : SwapSession T) (log : List (BlackBoxSnapshot T)) : Prop where
  foreign : s.image.header.magic ≠ kMagic → log = []
  sound : s.image.header.Sound
  count : s.image.header.magic = kMagic → s.image.header.snapshotCount = UInt32.ofNat log.length
  place : s.image.header.magic = kMagic → s.image.header.writePos.toNat = log.length % kSlotCount
  cells : s.image.header.magic = kMagic → ∃ head count,
    Recent.Keeps kSlotCount (fun i => (s.image.slots i).read) head count (log.map stored)
  free : s.image.header.magic = kMagic → ∀ i, log.length ≤ i → i < kSlotCount → (s.image.slots i).read = none
  handle : s.file.initialized = true →
    s.file = CriticalSwapFile.ofHeader s.image.header ∧ s.image.header.magic = kMagic

section Recording
variable {s : SwapSession T} {log : List (BlackBoxSnapshot T)} {snap : BlackBoxSnapshot T}

theorem read_write_stored (slot : SwapSlot T) (fits : snap.samples.length ≤ kMaxSamplesPerSnap) :
    (slot.write snap).read = stored snap := by
  by_cases none_ : snap.samples = []
  · rw [stored, if_pos none_]
    simp [SwapSlot.read, SwapSlot.write, none_]
  · rw [stored, if_neg none_]
    exact SwapSlot.read_write none_ fits

theorem recorded_blank [Zero T] :
    Recorded { file := CriticalSwapFile.ofHeader (SwapImage.blank (T := T)).header, image := SwapImage.blank (T := T) }
      [] where
  foreign _ := rfl
  sound _ := ⟨rfl, rfl⟩
  count _ := rfl
  place _ := rfl
  cells _ := ⟨0, 0, Recent.keeps_nil _ (by decide)⟩
  free _ i _ _ := by simp [SwapSlot.read, SwapImage.blank]
  handle _ := ⟨rfl, rfl⟩

/-- Another snapshot goes into the slot of the oldest one. -/
theorem Recorded.append (recorded : Recorded s log) (ready : s.file.initialized = true)
    (fits : snap.samples.length ≤ kMaxSamplesPerSnap) :
    Recorded { file := CriticalSwapFile.ofHeader (s.image.record snap).header, image := s.image.record snap }
      (log ++ [snap]) := by
  have own := (recorded.handle ready).2
  have place := recorded.place own
  have slots : (fun i => ((s.image.record snap).slots i).read) =
      Function.update (fun i => (s.image.slots i).read) (log.length % kSlotCount) (stored snap) := by
    funext i
    simp only [SwapImage.record, place, Nat.mod_mod]
    by_cases here : i = log.length % kSlotCount
    · rw [here, Function.update_self, Function.update_self]
      exact read_write_stored _ fits
    · rw [Function.update_of_ne here, Function.update_of_ne here]
  refine ⟨fun foreign => absurd own foreign, recorded.sound.record, fun _ => ?_, fun _ => ?_, fun _ => ?_, fun _ => ?_,
    fun _ => ⟨rfl, own⟩⟩
  · change s.image.header.snapshotCount + 1 = _
    rw [recorded.count own, List.length_append, List.length_singleton, UInt32.ofNat_add]
    rfl
  · change ((s.image.header.writePos + 1) % UInt32.ofNat kSlotCount).toNat = _
    have small := Nat.mod_lt log.length (show 0 < kSlotCount by decide)
    rw [List.length_append, List.length_singleton]
    simp only [UInt32.toNat_mod, UInt32.toNat_add, UInt32.toNat_one, kSlotCount,
      UInt32.reduceOfNat, UInt32.reduceToNat] at place small ⊢
    omega
  · obtain ⟨head, count, keeps⟩ := recorded.cells own
    have next := keeps.push (stored snap)
    rw [List.length_map] at next
    rw [slots, List.map_append]
    exact ⟨_, _, next⟩
  · intro i beyond inside
    rw [List.length_append, List.length_singleton] at beyond
    have elsewhere : i ≠ log.length % kSlotCount := by
      rw [Nat.mod_eq_of_lt (by omega)]
      omega
    rw [show ((s.image.record snap).slots i).read = _ from congrFun slots i, Function.update_of_ne elsewhere]
    exact recorded.free own i (by omega) inside

theorem Recorded.step [Zero T] (recorded : Recorded s log) (call : SwapCall T) :
    Recorded (s.step call).1 (log ++ (s.step call).2) := by
  have closed : Recorded { s with file := {} } log :=
    { recorded with handle := fun ready => by cases ready }
  cases call with
  | openFile mappable =>
    simp only [SwapSession.step, List.append_nil]
    rcases CriticalSwapFile.openFile_cases recorded.sound mappable s.file with
      failed | ⟨foreign, fresh⟩ | ⟨own, opened⟩
    · rw [failed]
      exact closed
    · rw [fresh, recorded.foreign foreign]
      exact recorded_blank
    · rw [opened]
      exact { recorded with handle := fun _ => ⟨rfl, own⟩ }
  | appendSnapshot snap =>
    by_cases refused : s.file.initialized = false ∨ kMaxSamplesPerSnap < snap.samples.length
    · simp only [SwapSession.step, CriticalSwapFile.appendSnapshot_refused refused, Bool.false_eq_true,
        ↓reduceIte, List.append_nil]
      exact recorded
    · rw [not_or, Bool.not_eq_false, Nat.not_lt] at refused
      have open_ := (recorded.handle refused.1).1
      have next := recorded.append refused.1 refused.2
      simp only [SwapSession.step]
      rw [open_, CriticalSwapFile.appendSnapshot_ofHeader refused.2]
      exact next
  | close =>
    simp only [SwapSession.step, List.append_nil]
    exact closed

theorem recorded_run [Zero T] {image : SwapImage T} (foreign : image.header.magic ≠ kMagic)
    (calls : List (SwapCall T)) :
    Recorded (run step { image := image } calls) (outputs step { image := image } calls) := by
  apply history_always step calls
  · exact ⟨fun _ => rfl, fun own => absurd own foreign, fun own => absurd own foreign,
      fun own => absurd own foreign, fun own => absurd own foreign, fun own => absurd own foreign,
      fun ready => by cases ready⟩
  · intro s out call recorded
    exact recorded.step call

end Recording

section Reading
variable {s : SwapSession T} {log : List (BlackBoxSnapshot T)} {limit : Nat}

theorem filterMap_stored (l : List (BlackBoxSnapshot T)) :
    l.filterMap stored = l.filter (fun snap => snap.samples ≠ []) := by
  induction l with
  | nil => rfl
  | cons snap l ih =>
    by_cases none_ : snap.samples = []
    · rw [List.filterMap_cons, stored, if_pos none_, List.filter_cons, none_]
      exact ih
    · rw [List.filterMap_cons, stored, if_neg none_, List.filter_cons, if_pos (by simpa using none_), ← ih]

theorem length_retained : (retained log).length = min log.length kSlotCount := by
  rw [retained, List.length_drop]
  omega

/-- The retained snapshots are the rest of the lap before and the lap that has begun. -/
theorem retained_split (full : kSlotCount ≤ log.length) :
    retained log = (log.drop (log.length - kSlotCount)).take (kSlotCount - log.length % kSlotCount) ++
      log.drop (log.length - log.length % kSlotCount) := by
  have small := Nat.mod_lt log.length (show 0 < kSlotCount by decide)
  have rest : log.drop (log.length - log.length % kSlotCount) =
      (log.drop (log.length - kSlotCount)).drop (kSlotCount - log.length % kSlotCount) := by
    rw [List.drop_drop]
    congr 1
    omega
  rw [rest, List.take_append_drop, retained]

/-- The slots read in slot order, as long as not all of them have been filled. -/
theorem Recorded.scan_room (recorded : Recorded s log) (own : s.image.header.magic = kMagic)
    (room : log.length < kSlotCount) :
    (List.range kSlotCount).filterMap (fun i => (s.image.slots i).read) =
      log.filter (fun snap => snap.samples ≠ []) := by
  obtain ⟨head, count, keeps⟩ := recorded.cells own
  have first := keeps.cells_first (by rw [List.length_map]; exact room.le)
  rw [List.length_map] at first
  have parts : List.range kSlotCount =
      List.range log.length ++ List.range' log.length (kSlotCount - log.length) := by
    rw [List.range_eq_range', List.range_eq_range', ← Nat.add_sub_cancel' room.le, ← List.range'_append_1,
      Nat.zero_add, Nat.add_sub_cancel_left]
  have none : (List.range' log.length (kSlotCount - log.length)).filterMap
      (fun i => (s.image.slots i).read) = [] := by
    apply List.filterMap_eq_nil_iff.mpr
    intro i member
    rw [List.mem_range'_1] at member
    exact recorded.free own i member.1 (by omega)
  have front : (List.range log.length).filterMap (fun i => (s.image.slots i).read) = log.filterMap stored := by
    calc
      _ = ((List.range log.length).map (fun i => (s.image.slots i).read)).filterMap id := by
        rw [List.filterMap_map]
        rfl
      _ = log.filterMap stored := by
        rw [first, List.filterMap_map]
        rfl
  rw [parts, List.filterMap_append, none, List.append_nil, front, filterMap_stored]

/-- The slots read in slot order, once all of them have been filled. -/
theorem Recorded.scan_full (recorded : Recorded s log) (own : s.image.header.magic = kMagic)
    (full : kSlotCount ≤ log.length) :
    (List.range kSlotCount).filterMap (fun i => (s.image.slots i).read) =
      (log.drop (log.length - log.length % kSlotCount) ++
        (log.drop (log.length - kSlotCount)).take (kSlotCount - log.length % kSlotCount)).filter
          (fun snap => snap.samples ≠ []) := by
  obtain ⟨head, count, keeps⟩ := recorded.cells own
  have all := keeps.cells (by decide) (by rw [List.length_map]; exact full)
  rw [List.length_map, ← List.map_drop, ← List.map_drop, ← List.map_take, ← List.map_append] at all
  calc
    _ = ((List.range kSlotCount).map (fun i => (s.image.slots i).read)).filterMap id := by
      rw [List.filterMap_map]
      rfl
    _ = _ := by
      rw [all, List.filterMap_map, ← filterMap_stored]
      rfl

/-- What the reader gives, cut to what is due, is the scan cut to what is due. -/
theorem take_due {scan : List (BlackBoxSnapshot T)} {count : Nat} (most : scan.length ≤ min log.length kSlotCount)
    (counted : ((retained log).take limit).length ≤ count) :
    scan.take (min count limit) = scan.take ((retained log).take limit).length := by
  rw [List.length_take, length_retained] at counted ⊢
  by_cases short : limit ≤ min log.length kSlotCount
  · rw [Nat.min_eq_left short] at counted ⊢
    rw [Nat.min_eq_right counted]
  · have all : min limit (min log.length kSlotCount) = min log.length kSlotCount := by omega
    rw [all] at counted ⊢
    rw [List.take_of_length_le most, List.take_of_length_le (by omega)]

/-- A filtered rotation of the retained snapshots against the snapshots that are due. -/
theorem rotated_due_iff {older newer : List (BlackBoxSnapshot T)} (parts : retained log = older ++ newer) :
    ((newer ++ older).filter (fun snap => snap.samples ≠ [])).take ((retained log).take limit).length =
        (retained log).take limit ↔
      (∀ snap ∈ (retained log).take limit, snap.samples ≠ []) ∧
        (newer.filter (fun snap => snap.samples ≠ []) = [] ∨
          ∀ i < ((retained log).take limit).length, ((retained log).take limit)[i]? =
            (newer.filter (fun snap => snap.samples ≠ []))[
              i % (newer.filter (fun snap => snap.samples ≠ [])).length]?) := by
  have cut : (retained log).take limit = (older ++ newer).take ((retained log).take limit).length := by
    rw [List.length_take, parts]
    exact List.take_eq_take_min
  have inside : ((retained log).take limit).length ≤ (older ++ newer).length := by
    rw [List.length_take, parts]
    exact Nat.min_le_right _ _
  have rotated := Laps.take_filter_rotated_iff (fun snap => decide (snap.samples ≠ [])) inside
  rw [← cut] at rotated
  rw [rotated]
  simp only [decide_eq_true_eq]
  apply and_congr_right
  intro _
  constructor
  · intro repeats
    by_cases none : newer.filter (fun snap => snap.samples ≠ []) = []
    · exact Or.inl none
    · exact Or.inr (fun i early => repeats i early none)
  · rintro (none | repeats) i early some_
    · exact absurd none some_
    · exact repeats i early

theorem first_lap_iff (room : log.length < kSlotCount) {count : Nat}
    (counted : ((retained log).take limit).length ≤ count) :
    (log.filter (fun snap => snap.samples ≠ [])).take (min count limit) = (retained log).take limit ↔
      ∀ snap ∈ (retained log).take limit, snap.samples ≠ [] := by
  have parts : retained log = log ++ [] := by
    rw [retained, Nat.sub_eq_zero_of_le room.le, List.drop_zero, List.append_nil]
  have most : (log.filter (fun snap => snap.samples ≠ [])).length ≤ min log.length kSlotCount := by
    rw [Nat.min_eq_left room.le]
    exact List.length_filter_le _ _
  have whole : (log.filter (fun snap => snap.samples ≠ [])).take ((retained log).take limit).length =
      (retained log).take limit ↔ _ := rotated_due_iff parts
  rw [take_due most counted, whole]
  simp only [List.filter_nil, true_or, and_true]

theorem later_lap_iff (full : kSlotCount ≤ log.length) {count : Nat}
    (counted : ((retained log).take limit).length ≤ count) :
    ((log.drop (log.length - log.length % kSlotCount) ++
        (log.drop (log.length - kSlotCount)).take (kSlotCount - log.length % kSlotCount)).filter
          (fun snap => snap.samples ≠ [])).take (min count limit) = (retained log).take limit ↔
      (∀ snap ∈ (retained log).take limit, snap.samples ≠ []) ∧
        (begun log = [] ∨ ∀ i < ((retained log).take limit).length,
          ((retained log).take limit)[i]? = (begun log)[i % (begun log).length]?) := by
  have parts := retained_split full
  rw [take_due _ counted, rotated_due_iff parts]
  · rfl
  · apply (List.length_filter_le _ _).trans
    rw [List.length_append, Nat.add_comm, ← List.length_append, ← parts, length_retained]

/-- The file gives back what is due if and only if it is recoverable. -/
theorem Recorded.parse_iff (recorded : Recorded s log) (ready : s.file.initialized = true) :
    s.file.parsePendingSnapshots s.image limit = (retained log).take limit ↔ Recoverable log limit := by
  obtain ⟨handle, own⟩ := recorded.handle ready
  have mapped : s.file.mapped = true := by rw [handle]; rfl
  have count : s.file.snapshotCount.toNat = log.length % 2 ^ 32 := by
    rw [handle]
    change s.image.header.snapshotCount.toNat = _
    rw [recorded.count own]
    exact UInt32.toNat_ofNat'
  rw [CriticalSwapFile.parsePendingSnapshots_eq ready mapped, count]
  by_cases counted : ((retained log).take limit).length ≤ log.length % 2 ^ 32
  · rw [Recoverable, and_iff_right counted]
    by_cases room : log.length < kSlotCount
    · rw [recorded.scan_room own room, first_lap_iff room counted, or_iff_left_of_imp (fun _ => room.le),
        and_iff_left room.le]
    · rw [recorded.scan_full own (Nat.not_lt.mp room), later_lap_iff (Nat.not_lt.mp room) counted]
      apply and_congr_right
      intro _
      constructor
      · exact Or.inr
      · rintro (first | later)
        · left
          have one : log.length = kSlotCount := by omega
          rw [begun, one, Nat.mod_self, Nat.sub_zero, ← one, List.drop_length]
          rfl
        · exact later
  · refine iff_of_false (fun same => counted ?_) (fun recoverable => counted recoverable.1)
    rw [← same]
    exact (List.length_take_le _ _).trans (Nat.min_le_left _ _)

end Reading

/-- The limit of a reader that names none. -/
def kMaxPending : Nat := 16

section RoundTrip
variable [Zero T]

/-- After any calls on a new file, an open handle gives back the retained snapshots from the oldest
on, up to a limit, if and only if they are recoverable. -/
theorem round_trip_iff {image : SwapImage T} (foreign : image.header.magic ≠ kMagic) (calls : List (SwapCall T))
    (ready : (run step { image := image } calls).file.initialized = true) (limit : Nat) :
    (run step { image := image } calls).file.parsePendingSnapshots (run step { image := image } calls).image limit =
        (retained (outputs step { image := image } calls)).take limit ↔
      Recoverable (outputs step { image := image } calls) limit :=
  (recorded_run foreign calls).parse_iff ready

/-- A file of zero bytes. -/
def created : SwapImage UInt64 where
  header := { magic := List.replicate 8 0, version := 0, snapshotCount := 0, writePos := 0 }
  slots _ := { pointId := 0, alarmTime := 0, level := .info, count := 0, samples := fun _ => 0 }

/-- Snapshots of point 7 with one sample each; a sample is no more than its time stamp here. -/
def alarms7 (n : Nat) : List (SwapCall UInt64) :=
  (List.range n).map (fun k => .appendSnapshot
    { pointId := 7, alarmTime := UInt64.ofNat k, level := .critical, samples := [UInt64.ofNat k] })

/-- Three snapshots, and the file closed and opened again. -/
def reopened : List (SwapCall UInt64) := .openFile true :: alarms7 3 ++ [.close, .openFile true]

theorem round_trip_iff_reopened :
    (run step { image := created } reopened).file.parsePendingSnapshots
        (run step { image := created } reopened).image 2 =
        (retained (outputs step { image := created } reopened)).take 2 ↔
      Recoverable (outputs step { image := created } reopened) 2 :=
  round_trip_iff (show created.header.magic ≠ kMagic by decide) _ (by decide +kernel) 2

/-- After one snapshot more than there are slots the newest one comes first, and the oldest not at all. -/
theorem round_trip_fails :
    (run step { image := created } (.openFile true :: alarms7 65)).file.parsePendingSnapshots
        (run step { image := created } (.openFile true :: alarms7 65)).image kMaxPending ≠
      (retained (outputs step { image := created } (.openFile true :: alarms7 65))).take kMaxPending := by
  decide +kernel

end RoundTrip

end SwapSession
end EnerSentry.Datahub
