import EnerSentry.Datahub.SwapLayout

/-!
What an append to the swap file changes and what it asks to be flushed. The bytes an append
stores are those of its slot and the two counters of the header; the range it names starts
behind the header and is as long as a slot and a header.
-/

namespace EnerSentry.Datahub
open EnerSentry.Lib

namespace CriticalSwapFile
variable {T : Type*} (sb : SampleBytes T) {file : CriticalSwapFile} {snap : BlackBoxSnapshot T} {slot : Nat}
  {image : ByteImage} {snapshotCount writePos : UInt32}

theorem slotMeta_eq (slot : Nat) : slotMeta slot = 64 + slot * 16416 := rfl

theorem length_samples (samples : List T) : (samples.flatMap sb.raw).length = samples.length * 16 := by
  rw [List.length_flatMap, List.map_congr_left (g := fun _ => 16) fun x _ => sb.length x]
  simp

/-- The samples behind the metadata. -/
def slotStores (slot : Nat) (snap : BlackBoxSnapshot T) : List Patch :=
  metaStores slot snap ++ [⟨slotSamples slot, snap.samples.flatMap sb.raw⟩]

/-- An append stores its slot and then the counters, unless it stores nothing. -/
theorem appendEffect_cases (file : CriticalSwapFile) (snap : BlackBoxSnapshot T) :
    appendEffect sb file snap = {} ∧ file.accepts snap = false ∨
    file.accepts snap = true ∧ snap.samples.length ≤ kMaxSamplesPerSnap ∧ appendEffect sb file snap =
      { stores := slotStores sb (file.writePos.toNat % kSlotCount) snap ++
          headerStores (file.snapshotCount + 1) ((file.writePos + 1) % UInt32.ofNat kSlotCount)
        flushAsync := some ⟨slotMeta (file.writePos.toNat % kSlotCount), slotSize + kHeaderSize⟩ } := by
  obtain ⟨mapped, writePos, snapshotCount, initialized⟩ := file
  cases initialized <;> cases mapped
  · exact Or.inl ⟨rfl, rfl⟩
  · exact Or.inl ⟨rfl, rfl⟩
  · exact Or.inl ⟨rfl, rfl⟩
  · by_cases long : kMaxSamplesPerSnap < snap.samples.length
    · apply Or.inl
      simp only [appendEffect, accepts, long, Nat.not_le.mpr long, Bool.not_true, Bool.or_self, Bool.false_eq_true,
        ↓reduceIte, decide_false, Bool.and_false]
      exact ⟨trivial, trivial⟩
    · apply Or.inr
      simp only [appendEffect, accepts, long, Nat.not_lt.mp long, Bool.not_true, Bool.or_self, Bool.false_eq_true,
        ↓reduceIte, decide_true, Bool.and_self]
      exact ⟨trivial, trivial, rfl⟩

/-- The stores into a slot stay inside it. -/
theorem slotStores_extent (fits : snap.samples.length ≤ kMaxSamplesPerSnap) :
    ∀ q ∈ slotStores sb slot snap, slotMeta slot ≤ q.start ∧ q.start + q.bytes.length ≤ slotMeta slot + slotSize := by
  have length := length_samples sb snap.samples
  have room : slotSize = 32 + 1024 * 16 := rfl
  simp only [kMaxSamplesPerSnap] at fits
  simp only [slotStores, metaStores, List.cons_append, List.nil_append, List.mem_cons, List.not_mem_nil, or_false,
    forall_eq_or_imp, forall_eq, length_littleEndian, List.length_singleton, List.length_replicate, length, slotSamples,
    kSlotMetaSize, room]
  omega

theorem headerStores_extent :
    ∀ q ∈ headerStores snapshotCount writePos, 12 ≤ q.start ∧ q.start + q.bytes.length ≤ 20 := by
  simp only [headerStores, List.mem_cons, List.not_mem_nil, or_false, forall_eq_or_imp, forall_eq, length_littleEndian]
  omega

/-- Patches that stay inside a slot leave the header and the other slots alone. -/
theorem apart_of_extent {q : Patch}
    (extent : slotMeta slot ≤ q.start ∧ q.start + q.bytes.length ≤ slotMeta slot + slotSize)
    {a n other : Nat} (placed : slotMeta other ≤ a ∧ a + n ≤ slotMeta other + slotSize) (different : other ≠ slot) :
    q.start + q.bytes.length ≤ a ∨ a + n ≤ q.start := by
  have room : slotSize = 16416 := rfl
  rw [slotMeta_eq, room] at extent placed
  omega

theorem readSlot_congr (blank : T) {image' : ByteImage}
    (same : ∀ a, slotMeta slot ≤ a → a < slotMeta slot + slotSize → image a = image' a) :
    SwapImage.readSlot sb blank image slot = SwapImage.readSlot sb blank image' slot := by
  have room : slotSize = 16416 := rfl
  have stretch (k n : Nat) (inside : k + n ≤ slotSize) :
      image.read (slotMeta slot + k) n = image'.read (slotMeta slot + k) n := by
    apply ByteImage.read_congr
    intro i small
    exact same _ (by omega) (by omega)
  have samples (i : Nat) (small : i < kMaxSamplesPerSnap) :
      image.read (slotSamples slot + i * sizeofSample) sizeofSample =
      image'.read (slotSamples slot + i * sizeofSample) sizeofSample := by
    have place : slotSamples slot + i * sizeofSample = slotMeta slot + (32 + i * 16) := by
      simp only [slotSamples, kSlotMetaSize, sizeofSample, Nat.add_assoc]
    rw [place]
    apply stretch
    simp only [sizeofSample, room]
    simp only [kMaxSamplesPerSnap] at small
    omega
  have level := same (slotMeta slot + 12) (Nat.le_add_right _ _) (by rw [room]; omega)
  simp only [SwapImage.readSlot, stretch 4 8 (by decide), stretch 13 4 (by decide), level]
  rw [show image.read (slotMeta slot) 4 = image'.read (slotMeta slot) 4 from stretch 0 4 (by decide)]
  congr 1
  funext i
  split
  · rename_i small
    rw [samples i small]
  · rfl

theorem ofNat_bytes32 (x : UInt32) : UInt32.ofNat (ofLittleEndian (littleEndian 4 x.toNat)) = x := by
  rw [ofLittleEndian_littleEndian (by exact x.toNat_lt)]
  exact UInt32.ofNat_toNat

theorem ofNat_bytes64 (x : UInt64) : UInt64.ofNat (ofLittleEndian (littleEndian 8 x.toNat)) = x := by
  rw [ofLittleEndian_littleEndian (by exact x.toNat_lt)]
  exact UInt64.ofNat_toNat

/-- The places behind the stored samples keep what they had. -/
theorem read_behind (image : ByteImage) {i : Nat} (behind : snap.samples.length ≤ i) :
    (image.patched (slotStores sb slot snap)).read (slotSamples slot + i * sizeofSample) sizeofSample =
      image.read (slotSamples slot + i * sizeofSample) sizeofSample := by
  apply ByteImage.read_patched_outside
  have length := length_samples sb snap.samples
  simp only [slotStores, metaStores, List.cons_append, List.nil_append, List.mem_cons, List.not_mem_nil, or_false,
    forall_eq_or_imp, forall_eq, length_littleEndian, List.length_singleton, List.length_replicate, length, slotSamples,
    kSlotMetaSize, sizeofSample]
  omega

/-- The fields of a slot lie one behind the other. -/
theorem slotStores_ascending :
    (slotStores sb slot snap).Pairwise fun p q => p.start + p.bytes.length ≤ q.start := by
  simp only [slotStores, metaStores, List.cons_append, List.nil_append, List.pairwise_cons, List.mem_cons,
    List.not_mem_nil, or_false, forall_eq_or_imp, forall_eq, length_littleEndian, List.length_singleton,
    List.length_replicate, slotSamples, kSlotMetaSize, List.Pairwise.nil, false_imp_iff, implies_true, and_true]
  omega

/-- The stores of an append, read back: the slot holds the snapshot. -/
theorem readSlot_stored (blank : T) (image : ByteImage) (fits : snap.samples.length ≤ kMaxSamplesPerSnap) :
    SwapImage.readSlot sb blank (image.patched (slotStores sb slot snap)) slot =
      (SwapImage.readSlot sb blank image slot).write snap := by
  have small : snap.samples.length < 256 ^ 4 := Nat.lt_of_le_of_lt fits (by decide)
  have ascending : (slotStores sb slot snap).Pairwise fun p q => p.start + p.bytes.length ≤ q.start :=
    slotStores_ascending sb
  have field {p : Patch} (member : p ∈ slotStores sb slot snap) := ByteImage.read_ascending image ascending member
  have last : ⟨slotSamples slot, snap.samples.flatMap sb.raw⟩ ∈ slotStores sb slot snap := by
    simp [slotStores, metaStores]
  have pointId := field (p := ⟨slotMeta slot, littleEndian 4 snap.pointId.toNat⟩) (by simp [slotStores, metaStores])
  have alarmTime := field (p := ⟨slotMeta slot + 4, littleEndian 8 snap.alarmTime.toNat⟩)
    (by simp [slotStores, metaStores])
  have level := field (p := ⟨slotMeta slot + 12, [snap.level.toByte]⟩) (by simp [slotStores, metaStores])
  have count := field (p := ⟨slotMeta slot + 13, littleEndian 4 snap.samples.length⟩) (by simp [slotStores, metaStores])
  rw [length_littleEndian] at pointId alarmTime count
  rw [List.length_singleton, ByteImage.read_one, List.singleton_inj] at level
  simp only [SwapImage.readSlot, SwapSlot.write, pointId, alarmTime, level, count, ofNat_bytes32, ofNat_bytes64,
    AlarmLevel.ofByte_toByte, ofLittleEndian_littleEndian small]
  congr 1
  funext i
  by_cases stored : i < snap.samples.length
  · have inside : i * sizeofSample + sizeofSample ≤ (snap.samples.flatMap sb.raw).length := by
      rw [length_samples]
      simp only [sizeofSample]
      omega
    have part := ByteImage.read_ascending_part image ascending last inside
    rw [if_pos (by omega), part, take_drop_flatMap sb.length snap.samples stored, sb.same,
      List.getD_eq_getElem _ _ stored]
  · rw [read_behind sb image (Nat.not_lt.mp stored), List.getD_eq_default _ _ (Nat.not_lt.mp stored)]

/-- The header after an append: its counters are the new ones and the rest is as it was. -/
theorem readHeader_stored (image : ByteImage) (fits : snap.samples.length ≤ kMaxSamplesPerSnap) :
    SwapImage.readHeader ((image.patched (slotStores sb slot snap)).patched (headerStores snapshotCount writePos)) =
      { SwapImage.readHeader image with snapshotCount := snapshotCount, writePos := writePos } := by
  have slots := @slotStores_extent _ sb snap slot fits
  have counters : ∀ q ∈ headerStores snapshotCount writePos, 12 ≤ q.start ∧ q.start + q.bytes.length ≤ 20 :=
    headerStores_extent
  have ascending : (headerStores snapshotCount writePos).Pairwise fun p q => p.start + p.bytes.length ≤ q.start := by
    simp [headerStores]
  have kept {a n : Nat} (before : a + n ≤ 12) :
      ((image.patched (slotStores sb slot snap)).patched (headerStores snapshotCount writePos)).read a n =
      image.read a n := by
    rw [ByteImage.read_patched_outside _ fun q member => Or.inr (Nat.le_trans before (counters q member).1),
      ByteImage.read_patched_outside]
    intro q member
    have above := (slots q member).1
    rw [slotMeta_eq] at above
    omega
  have field {p : Patch} (member : p ∈ headerStores snapshotCount writePos) :=
    ByteImage.read_ascending (image.patched (slotStores sb slot snap)) ascending member
  have count := field (p := ⟨12, littleEndian 4 snapshotCount.toNat⟩) (by simp [headerStores])
  have place := field (p := ⟨16, littleEndian 4 writePos.toNat⟩) (by simp [headerStores])
  rw [length_littleEndian] at count place
  simp only [SwapImage.readHeader, kept (show 0 + 8 ≤ 12 by decide), kept (show 8 + 4 ≤ 12 by decide), count, place,
    ofNat_bytes32]

/-- A slot that an append does not store into reads as before. -/
theorem readSlot_kept (blank : T) {ps : List Patch}
    (outside : ∀ q ∈ ps, q.start + q.bytes.length ≤ slotMeta slot ∨ slotMeta slot + slotSize ≤ q.start) :
    SwapImage.readSlot sb blank (image.patched ps) slot = SwapImage.readSlot sb blank image slot := by
  apply readSlot_congr
  intro a above below
  apply ByteImage.patched_outside
  intro q member touched
  have apart := outside q member
  unfold Patch.touches at touched
  omega

/-- The bytes of the file after an append are those of the file that `appendSnapshot` leaves. -/
theorem ofBytes_append (blank : T) (image : ByteImage) (file : CriticalSwapFile) (snap : BlackBoxSnapshot T) :
    SwapImage.ofBytes sb blank (image.patched (appendEffect sb file snap).stores) =
      (file.appendSnapshot (SwapImage.ofBytes sb blank image) snap).2.1 := by
  rcases appendEffect_cases sb file snap with ⟨nothing, rejected⟩ | ⟨accepted, fits, effect⟩
  · rw [nothing]
    have same : (file.appendSnapshot (SwapImage.ofBytes sb blank image) snap).2.1 =
      SwapImage.ofBytes sb blank image := by
      unfold appendSnapshot
      split
      · rfl
      · split
        · rfl
        · rename_i open_ fits
          rw [Bool.not_eq_true, Bool.or_eq_false_iff, Bool.not_eq_false', Bool.not_eq_false'] at open_
          simp [accepts, open_, Nat.not_lt.mp fits] at rejected
    rw [same]
    rfl
  · simp only [accepts, Bool.and_eq_true, decide_eq_true_iff] at accepted
    simp only [effect, appendSnapshot, accepted, Nat.not_lt.mpr fits, Bool.not_true, Bool.or_self, Bool.false_eq_true,
      ↓reduceIte]
    generalize file.writePos.toNat % kSlotCount = slot
    generalize file.snapshotCount + 1 = snapshotCount
    generalize (file.writePos + 1) % UInt32.ofNat kSlotCount = writePos
    have counters (other : Nat) : ∀ q ∈ headerStores snapshotCount writePos,
        q.start + q.bytes.length ≤ slotMeta other ∨ slotMeta other + slotSize ≤ q.start := by
      intro q member
      have below := (headerStores_extent q member).2
      rw [slotMeta_eq]
      omega
    rw [ByteImage.patched_append, SwapImage.ofBytes, readHeader_stored sb image fits]
    congr 1
    funext other
    rw [readSlot_kept sb blank (counters other)]
    by_cases own : other = slot
    · subst own
      rw [Function.update_self]
      exact readSlot_stored sb blank image fits
    · rw [Function.update_of_ne own]
      apply readSlot_kept sb blank
      intro q member
      have extent := slotStores_extent sb fits q member
      exact apart_of_extent extent ⟨Nat.le_refl _, Nat.le_refl _⟩ own

/-- An append asks for a range that lies in the file and has in it every byte that it stores. -/
structure FlushCovers (effect : AppendEffect) : Prop where
  inside : ∀ r ∈ effect.flushAsync, r.offset + r.length ≤ totalFileSize
  covers : ∀ p ∈ effect.stores, ∀ a, p.touches a → ∃ r ∈ effect.flushAsync, r.offset ≤ a ∧ a < r.offset + r.length

/-- No append that stores anything covers it: the counters of the header lie before the range it names. The
slot is always in the range, and the range leaves the file behind the last slot. -/
theorem flushCovers_iff (file : CriticalSwapFile) (snap : BlackBoxSnapshot T) :
    (FlushCovers (appendEffect sb file snap) ↔ file.accepts snap = false) ∧
    (file.accepts snap = true → ∃ r, (appendEffect sb file snap).flushAsync = some r ∧
      (r.offset ≤ slotMeta (file.writePos.toNat % kSlotCount) ∧
        slotMeta (file.writePos.toNat % kSlotCount) + slotSize ≤ r.offset + r.length) ∧
      (r.offset + r.length ≤ totalFileSize ↔ file.writePos.toNat % kSlotCount + 1 < kSlotCount) ∧
      ∀ p ∈ headerStores (file.snapshotCount + 1) ((file.writePos + 1) % UInt32.ofNat kSlotCount),
        p ∈ (appendEffect sb file snap).stores ∧ ∀ a, p.touches a → a < r.offset) := by
  have room : slotSize = 16416 := rfl
  have total : totalFileSize = 1050688 := rfl
  rcases appendEffect_cases sb file snap with ⟨nothing, rejected⟩ | ⟨accepted, fits, effect⟩
  · rw [nothing, rejected]
    refine ⟨⟨fun _ => rfl, fun _ => ⟨?_, ?_⟩⟩, fun accepted => Bool.noConfusion accepted⟩
    · intro r named
      cases named
    · exact List.forall_mem_nil _
  · rw [effect, accepted]
    have within : file.writePos.toNat % kSlotCount < kSlotCount := Nat.mod_lt _ (by decide)
    generalize file.writePos.toNat % kSlotCount = slot at within ⊢
    have header {p : Patch} (member : p ∈ headerStores (file.snapshotCount + 1)
        ((file.writePos + 1) % UInt32.ofNat kSlotCount)) (a : Nat) (touched : p.touches a) : a < slotMeta slot := by
      have extent := headerStores_extent p member
      unfold Patch.touches at touched
      rw [slotMeta_eq]
      omega
    refine ⟨⟨fun covers => ?_, fun rejected => Bool.noConfusion rejected⟩, fun _ => ?_⟩
    · have counter : ⟨12, littleEndian 4 (file.snapshotCount + 1).toNat⟩ ∈ headerStores (file.snapshotCount + 1)
          ((file.writePos + 1) % UInt32.ofNat kSlotCount) := List.mem_cons_self ..
      have touched : (⟨12, littleEndian 4 (file.snapshotCount + 1).toNat⟩ : Patch).touches 12 :=
      ⟨Nat.le_refl _, by simp⟩
      obtain ⟨r, named, above, -⟩ := covers.covers _ (List.mem_append_right _ counter) 12 touched
      cases named
      exact absurd above (Nat.not_le.mpr (header counter 12 touched))
    · refine ⟨_, rfl, ⟨Nat.le_refl _, ?_⟩, ?_, fun p member => ⟨List.mem_append_right _ member, header member⟩⟩
      · simp only [kHeaderSize]
        omega
      · simp only [slotMeta_eq, total, room, kHeaderSize, kSlotCount] at within ⊢
        omega

/-- A first snapshot without samples: the count it stores lies before the range it names. In the last slot the
range also ends behind the end of the file. -/
theorem first_append_uncovered :
    let first : CriticalSwapFile := { mapped := true, initialized := true }
    let effect := appendEffect SampleBytes.plain first {}
    ¬FlushCovers effect ∧ ⟨12, [1, 0, 0, 0]⟩ ∈ effect.stores ∧ effect.flushAsync = some ⟨64, 16480⟩ ∧
      (appendEffect SampleBytes.plain { first with writePos := 63 } {}).flushAsync = some ⟨1034272, 16480⟩ ∧
      totalFileSize < 1034272 + 16480 := by
  refine ⟨fun covers => ?_, by decide, by decide, by decide, by decide⟩
  have counter : (⟨12, [1, 0, 0, 0]⟩ : Patch) ∈
      (appendEffect SampleBytes.plain { mapped := true, initialized := true } {}).stores := by decide
  obtain ⟨r, named, above, -⟩ := covers.covers _ counter 12 (by decide)
  cases named
  exact absurd above (by decide)

end CriticalSwapFile
end EnerSentry.Datahub
