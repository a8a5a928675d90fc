import Mathlib.Data.List.Dedup
import EnerSentry.Datahub.SnapshotPolicy

/-!
The routing of the snapshot store over whole runs. A policy registers the ids of its entries
and no others, whether they are kept in a table or under their ids. The one kind of policy
that breaks this names both ends of the 32-bit ids.
-/

namespace EnerSentry.Datahub
open EnerSentry.Lib

theorem nextPow2_power {v : Nat} (small : v ≤ 2 ^ 64) : ∃ n, nextPow2 v = 2 ^ n := by
  unfold nextPow2
  split
  · exact ⟨0, rfl⟩
  · exact Smear.smear_add_one (by omega)

theorem acceptedCapacity_power {n : Nat} (least : 256 ≤ 2 ^ n) (most : 2 ^ n ≤ 65536) :
    acceptedCapacity (2 ^ n) = true := by
  have clear : 2 ^ n &&& (2 ^ n - 1) = 0 := by rw [Nat.and_two_pow_sub_one_eq_mod, Nat.mod_self]
  simp only [acceptedCapacity, clear, bne_self_eq_false, Bool.or_false, Bool.not_eq_eq_eq_not, Bool.not_true,
    Bool.or_eq_false_iff, decide_eq_false_iff_not]
  omega

/-- Every capacity that a policy asks for is one that a ring buffer accepts. -/
theorem capacityForPolicy_accepted (e : RingBufferPolicyEntry) : acceptedCapacity (capacityForPolicy e) = true := by
  unfold capacityForPolicy
  split
  · decide
  · have small : (e.retentionMs / e.sampleRateMs).toNat + 1 ≤ 2 ^ 64 := by
      have bound := (e.retentionMs / e.sampleRateMs).toNat_lt
      omega
    obtain ⟨n, power⟩ := nextPow2_power small
    simp only [power]
    by_cases low : 2 ^ n < 256
    · rw [if_pos low]
      decide
    · by_cases high : 65536 < 2 ^ n
      · rw [if_neg low, if_pos high]
        decide
      · rw [if_neg low, if_neg high]
        exact acceptedCapacity_power (Nat.not_lt.mp low) (Nat.not_lt.mp high)

def pointIds (policy : List RingBufferPolicyEntry) : List UInt32 := policy.map (·.pointId)

/-- A policy with the least and the greatest id there are. -/
def SpansIds (policy : List RingBufferPolicyEntry) : Prop := 0 ∈ pointIds policy ∧ 0xFFFFFFFF ∈ pointIds policy

/-- Which buffer each id has. -/
abbrev Registry (T : Type*) := UInt32 → Option (RingBuffer T)

section Policy
variable {T : Type*} (blank : T)

def ringFor (e : RingBufferPolicyEntry) : RingBuffer T :=
  RingBuffer.fresh ⟨capacityForPolicy e, capacityForPolicy_accepted e⟩ blank

theorem create_ringFor (e : RingBufferPolicyEntry) :
    RingBuffer.create (capacityForPolicy e) blank = .ok (ringFor blank e) := by
  rw [RingBuffer.create, dif_pos (capacityForPolicy_accepted e)]
  rfl

/-- What a policy registers: the buffer of its last entry for each id. -/
def registering (registry : Registry T) (policy : List RingBufferPolicyEntry) : Registry T :=
  policy.foldl (fun registry e => Function.update registry e.pointId (some (ringFor blank e))) registry

theorem isSome_registering (registry : Registry T) (policy : List RingBufferPolicyEntry) (id : UInt32) :
    (registering blank registry policy id).isSome = true ↔ (registry id).isSome = true ∨ id ∈ pointIds policy := by
  induction policy generalizing registry with
  | nil => simp [registering, pointIds]
  | cons e policy ih =>
    rw [registering, List.foldl_cons, ← registering, ih, pointIds, pointIds, List.map_cons, List.mem_cons]
    by_cases own : id = e.pointId
    · subst own
      simp only [Function.update_self, Option.isSome_some, true_or, or_true]
    · simp only [Function.update_of_ne own, own, false_or]

end Policy

namespace L1SnapshotStore
variable {T : Type*} (blank : T)

section Bounds
variable (policy : List RingBufferPolicyEntry)

/-- A loop that keeps the better of two ids ends with the best there is. -/
theorem foldl_pick (le : UInt32 → UInt32 → Prop) {pick : UInt32 → UInt32 → UInt32} (refl : ∀ a, le a a)
    (trans : ∀ a b c, le a b → le b c → le a c)
    (picks : ∀ a b, le (pick a b) a ∧ le (pick a b) b ∧ (pick a b = a ∨ pick a b = b)) (ids : List UInt32)
    (start : UInt32) :
    (∀ id ∈ ids, le (ids.foldl pick start) id) ∧ le (ids.foldl pick start) start ∧
      (ids.foldl pick start = start ∨ ids.foldl pick start ∈ ids) := by
  induction ids generalizing start with
  | nil => exact ⟨List.forall_mem_nil _, refl start, Or.inl rfl⟩
  | cons id ids ih =>
    obtain ⟨all, below, found⟩ := ih (pick start id)
    obtain ⟨first, second, either⟩ := picks start id
    rw [List.foldl_cons, List.forall_mem_cons]
    refine ⟨⟨trans _ _ _ below second, all⟩, trans _ _ _ below first, ?_⟩
    rcases found with same | later
    · rw [same]
      rcases either with old | new
      · exact Or.inl old
      · rw [new]
        exact Or.inr List.mem_cons_self
    · exact Or.inr (List.mem_cons_of_mem _ later)

theorem minPoint_best : (∀ id ∈ pointIds policy, minPoint policy ≤ id) ∧ minPoint policy ≤ 0xFFFFFFFF ∧
    (minPoint policy = 0xFFFFFFFF ∨ minPoint policy ∈ pointIds policy) := by
  have loop : minPoint policy = (pointIds policy).foldl (fun a b => if b < a then b else a) 0xFFFFFFFF := by
    rw [pointIds, List.foldl_map]
    rfl
  rw [loop]
  apply foldl_pick (· ≤ ·) UInt32.le_refl (fun _ _ _ => UInt32.le_trans)
  intro a b
  by_cases less : b < a
  · rw [if_pos less]
    exact ⟨UInt32.le_of_lt less, UInt32.le_refl b, Or.inr rfl⟩
  · rw [if_neg less]
    exact ⟨UInt32.le_refl a, UInt32.not_lt.mp less, Or.inl rfl⟩

theorem maxPoint_best : (∀ id ∈ pointIds policy, id ≤ maxPoint policy) ∧ 0 ≤ maxPoint policy ∧
    (maxPoint policy = 0 ∨ maxPoint policy ∈ pointIds policy) := by
  have loop : maxPoint policy = (pointIds policy).foldl (fun a b => if a < b then b else a) 0 := by
    rw [pointIds, List.foldl_map]
    rfl
  rw [loop]
  apply foldl_pick (· ≥ ·) UInt32.le_refl (fun _ _ _ above higher => UInt32.le_trans higher above)
  intro a b
  by_cases less : a < b
  · rw [if_pos less]
    exact ⟨UInt32.le_of_lt less, UInt32.le_refl b, Or.inr rfl⟩
  · rw [if_neg less]
    exact ⟨UInt32.le_refl a, UInt32.not_lt.mp less, Or.inl rfl⟩

variable {policy}

theorem minPoint_le {id : UInt32} (member : id ∈ pointIds policy) : minPoint policy ≤ id :=
  (minPoint_best policy).1 id member

theorem le_maxPoint {id : UInt32} (member : id ∈ pointIds policy) : id ≤ maxPoint policy :=
  (maxPoint_best policy).1 id member

theorem minPoint_mem (some : policy ≠ []) : minPoint policy ∈ pointIds policy := by
  obtain ⟨e, member⟩ := List.exists_mem_of_ne_nil policy some
  have below := minPoint_le (List.mem_map_of_mem (f := (·.pointId)) member)
  rcases (minPoint_best policy).2.2 with top | found
  · have same : e.pointId = minPoint policy := by
      have bound := e.pointId.toNat_lt
      have least : (minPoint policy).toNat = 0xFFFFFFFF := congrArg UInt32.toNat top
      rw [UInt32.le_iff_toNat_le] at below
      apply UInt32.toNat_inj.mp
      omega
    rw [← same]
    exact List.mem_map_of_mem member
  · exact found

theorem maxPoint_mem (some : policy ≠ []) : maxPoint policy ∈ pointIds policy := by
  obtain ⟨e, member⟩ := List.exists_mem_of_ne_nil policy some
  have above := le_maxPoint (List.mem_map_of_mem (f := (·.pointId)) member)
  rcases (maxPoint_best policy).2.2 with bottom | found
  · have same : e.pointId = maxPoint policy := by
      have most : (maxPoint policy).toNat = 0 := congrArg UInt32.toNat bottom
      rw [UInt32.le_iff_toNat_le] at above
      apply UInt32.toNat_inj.mp
      omega
    rw [← same]
    exact List.mem_map_of_mem member
  · exact found

theorem minPoint_le_maxPoint (some : policy ≠ []) : minPoint policy ≤ maxPoint policy :=
  minPoint_le (maxPoint_mem some)

/-- The 32-bit range is the range, unless it takes in every id. -/
theorem toNat_idRange (some : policy ≠ []) :
    (idRange policy).toNat =
      if (minPoint policy).toNat = 0 ∧ (maxPoint policy).toNat = 0xFFFFFFFF then 0
      else (maxPoint policy - minPoint policy).toNat + 1 := by
  have order := UInt32.le_iff_toNat_le.mp (minPoint_le_maxPoint some)
  have bound := (maxPoint policy).toNat_lt
  have width := UInt32.toNat_sub_of_le (maxPoint policy) (minPoint policy) (minPoint_le_maxPoint some)
  rw [idRange, UInt32.toNat_add, width]
  simp only [UInt32.reduceToNat]
  split <;> omega

theorem spansIds_iff (some : policy ≠ []) :
    SpansIds policy ↔ (minPoint policy).toNat = 0 ∧ (maxPoint policy).toNat = 0xFFFFFFFF := by
  constructor
  · rintro ⟨zero, top⟩
    have least := UInt32.le_iff_toNat_le.mp (minPoint_le zero)
    have most := UInt32.le_iff_toNat_le.mp (le_maxPoint top)
    have bound := (maxPoint policy).toNat_lt
    simp only [UInt32.reduceToNat] at least most
    omega
  · rintro ⟨zero, top⟩
    have least : minPoint policy = 0 := UInt32.toNat_inj.mp zero
    have most : maxPoint policy = 0xFFFFFFFF := UInt32.toNat_inj.mp top
    exact ⟨least ▸ minPoint_mem some, most ▸ maxPoint_mem some⟩

end Bounds
/-- A store whose table, if it has one, covers its range of ids and leaves nothing to the sparse buffers. -/
structure Shaped (store : L1SnapshotStore T) : Prop where
  covers : store.bufferByIndex ≠ [] → store.minPointId ≤ store.maxPointId ∧
    store.bufferByIndex.length = (store.maxPointId - store.minPointId).toNat + 1
  alone : store.bufferByIndex ≠ [] → ∀ id, store.sparseBuffers id = none

section Filling
variable {store : L1SnapshotStore T} {e : RingBufferPolicyEntry}

/-- The cell of an id filled. -/
def withCell (store : L1SnapshotStore T) (pointId : UInt32) (rb : RingBuffer T) : L1SnapshotStore T :=
  { store with bufferByIndex := store.bufferByIndex.set (pointId - store.minPointId).toNat (some rb) }

theorem lookup_withCell {pointId : UInt32} {rb : RingBuffer T} (table : store.bufferByIndex ≠ [])
    (least : store.minPointId ≤ pointId) (most : pointId ≤ store.maxPointId)
    (inside : (pointId - store.minPointId).toNat < store.bufferByIndex.length) :
    (store.withCell pointId rb).lookup = Function.update store.lookup pointId (some rb) := by
  have kept : store.bufferByIndex.set (pointId - store.minPointId).toNat (some rb) ≠ [] := by
    simpa using table
  funext id
  by_cases own : id = pointId
  · subst own
    rw [Function.update_self, lookup, if_pos ⟨kept, least, most⟩]
    simp only [withCell, List.getElem?_set_self inside]
    rfl
  · rw [Function.update_of_ne own]
    by_cases between : store.minPointId ≤ id ∧ id ≤ store.maxPointId
    · have apart : (pointId - store.minPointId).toNat ≠ (id - store.minPointId).toNat := by
        intro equal
        exact own ((UInt32.sub_left_inj _).mp (UInt32.toNat_inj.mp equal)).symm
      rw [lookup, lookup, if_pos ⟨kept, between⟩, if_pos ⟨table, between⟩]
      simp only [withCell, List.getElem?_set_ne apart]
    · rw [lookup, lookup, if_neg fun all => between all.2, if_neg fun all => between all.2]
      rfl

/-- An entry inside the range of the table gets its cell. -/
theorem addEntry_dense (shaped : store.Shaped) (table : store.bufferByIndex ≠ [])
    (least : store.minPointId ≤ e.pointId) (most : e.pointId ≤ store.maxPointId) :
    addEntry blank true store.minPointId store e = .ok (store.withCell e.pointId (ringFor blank e)) ∧
      (store.withCell e.pointId (ringFor blank e)).Shaped ∧
      (store.withCell e.pointId (ringFor blank e)).bufferByIndex ≠ [] ∧
      (store.withCell e.pointId (ringFor blank e)).lookup =
        Function.update store.lookup e.pointId (some (ringFor blank e)) := by
  obtain ⟨order, length⟩ := shaped.covers table
  have place := UInt32.toNat_sub_of_le e.pointId store.minPointId least
  have width := UInt32.toNat_sub_of_le store.maxPointId store.minPointId order
  have inside : (e.pointId - store.minPointId).toNat < store.bufferByIndex.length := by
    rw [UInt32.le_iff_toNat_le] at least most
    omega
  refine ⟨?_, ⟨fun _ => ⟨order, ?_⟩, fun _ => shaped.alone table⟩, ?_, lookup_withCell table least most inside⟩
  · simp only [addEntry, create_ringFor, ↓reduceIte, if_pos inside]
    rfl
  · exact List.length_set.trans length
  · simpa [withCell] using table

theorem addEntry_sparse (none : store.bufferByIndex = []) (minId : UInt32) :
    ∃ store' : L1SnapshotStore T, addEntry blank false minId store e = .ok store' ∧ store'.bufferByIndex = [] ∧
      store'.lookup = Function.update store.lookup e.pointId (some (ringFor blank e)) := by
  refine ⟨{ store with sparseBuffers := Function.update store.sparseBuffers e.pointId (some (ringFor blank e)) },
    ?_, none, ?_⟩
  · simp only [addEntry, create_ringFor, Bool.false_eq_true, ↓reduceIte]
  · funext id
    simp only [lookup, none, ne_eq, not_true_eq_false, false_and, ↓reduceIte]
    by_cases own : id = e.pointId
    · subst own
      rw [Function.update_self, Function.update_self]
    · rw [Function.update_of_ne own, Function.update_of_ne own]
      simp only [lookup, none, ne_eq, not_true_eq_false, false_and, ↓reduceIte]

theorem fill_dense (shaped : store.Shaped) (table : store.bufferByIndex ≠ []) {policy : List RingBufferPolicyEntry}
    (inside : ∀ id ∈ pointIds policy, store.minPointId ≤ id ∧ id ≤ store.maxPointId) :
    ∃ store' : L1SnapshotStore T, policy.foldlM (addEntry blank true store.minPointId) store = .ok store' ∧
      store'.Shaped ∧ store'.lookup = registering blank store.lookup policy := by
  induction policy generalizing store with
  | nil => exact ⟨store, rfl, shaped, rfl⟩
  | cons e policy ih =>
    rw [pointIds, List.map_cons, List.forall_mem_cons] at inside
    obtain ⟨added, shaped', table', found⟩ := addEntry_dense blank shaped table inside.1.1 inside.1.2
    obtain ⟨filled, looped, shaped'', registers⟩ := ih shaped' table' inside.2
    refine ⟨filled, ?_, shaped'', ?_⟩
    · rw [List.foldlM_cons, added]
      exact looped
    · rw [registers, found]
      rfl

theorem fill_sparse (none : store.bufferByIndex = []) (minId : UInt32) (policy : List RingBufferPolicyEntry) :
    ∃ store' : L1SnapshotStore T, policy.foldlM (addEntry blank false minId) store = .ok store' ∧
      store'.bufferByIndex = [] ∧ store'.lookup = registering blank store.lookup policy := by
  induction policy generalizing store with
  | nil => exact ⟨store, rfl, none, rfl⟩
  | cons e policy ih =>
    obtain ⟨next, added, none', found⟩ := addEntry_sparse blank (e := e) none minId
    obtain ⟨filled, looped, none'', registers⟩ := ih none'
    refine ⟨filled, ?_, none'', ?_⟩
    · rw [List.foldlM_cons, added]
      exact looped
    · rw [registers, found]
      rfl

end Filling

section Initialising
variable (store : L1SnapshotStore T) {policy : List RingBufferPolicyEntry}

theorem cleared_dense (some : policy ≠ []) (apart : ¬SpansIds policy) (dense : isNarrow policy = true) :
    (store.cleared policy).Shaped ∧ (store.cleared policy).bufferByIndex ≠ [] ∧
      (store.cleared policy).minPointId = minPoint policy ∧ (store.cleared policy).maxPointId = maxPoint policy ∧
      (store.cleared policy).lookup = fun _ => none := by
  have range := toNat_idRange some
  rw [if_neg fun both => apart ((spansIds_iff some).mpr both)] at range
  rw [cleared, if_pos dense]
  have table : List.replicate (idRange policy).toNat (none : Option (RingBuffer T)) ≠ [] := by
    rw [range, List.replicate_succ]
    exact List.cons_ne_nil _ _
  refine ⟨⟨fun _ => ⟨minPoint_le_maxPoint some, ?_⟩, fun _ _ => rfl⟩, table, rfl, rfl, ?_⟩
  · rw [List.length_replicate, range]
  · funext id
    simp only [lookup, List.getElem?_replicate]
    split
    · split <;> rfl
    · rfl

theorem cleared_sparse (sparse : isNarrow policy = false) :
    (store.cleared policy).bufferByIndex = [] ∧ (store.cleared policy).lookup = fun _ => none := by
  rw [cleared, if_neg (Bool.eq_false_iff.mp sparse)]
  refine ⟨rfl, ?_⟩
  funext id
  simp only [lookup, ne_eq, not_true_eq_false, false_and, ↓reduceIte]

/-- A policy that leaves out one end of the ids registers its ids, whatever was registered before. -/
theorem initFromPolicy_registers (some : policy ≠ []) (apart : ¬SpansIds policy) :
    ∃ store' : L1SnapshotStore T, store.initFromPolicy blank policy = .ok (true, store') ∧ store'.Shaped ∧
      store'.lookup = registering blank (fun _ => none) policy := by
  have nonempty : policy.isEmpty = false := List.isEmpty_eq_false_iff.mpr some
  cases dense : isNarrow policy with
  | true =>
    obtain ⟨shaped, table, least, most, nobody⟩ := store.cleared_dense some apart dense
    have inside : ∀ id ∈ pointIds policy,
        (store.cleared policy).minPointId ≤ id ∧ id ≤ (store.cleared policy).maxPointId := by
      intro id member
      rw [least, most]
      exact ⟨minPoint_le member, le_maxPoint member⟩
    obtain ⟨filled, looped, shaped', registers⟩ := fill_dense blank shaped table inside
    refine ⟨filled, ?_, shaped', nobody ▸ registers⟩
    rw [initFromPolicy, nonempty, dense, ← least, looped]
    rfl
  | false =>
    obtain ⟨none, nobody⟩ := store.cleared_sparse dense
    obtain ⟨filled, looped, none', registers⟩ := fill_sparse blank none (minPoint policy) policy
    refine ⟨filled, ?_, ⟨fun table => absurd none' table, fun table => absurd none' table⟩, nobody ▸ registers⟩
    rw [initFromPolicy, nonempty, dense, looped]
    rfl

/-- One with both ends makes an empty table and indexes it. -/
theorem initFromPolicy_spans (spans : SpansIds policy) :
    ∃ index, store.initFromPolicy blank policy = .error (.outsideTable index 0) := by
  cases policy with
  | nil => exact absurd spans.1 List.not_mem_nil
  | cons e policy =>
    have range := toNat_idRange (List.cons_ne_nil e policy)
    rw [if_pos ((spansIds_iff (List.cons_ne_nil e policy)).mp spans)] at range
    have zero : idRange (e :: policy) = 0 := UInt32.toNat_inj.mp range
    have dense : isNarrow (e :: policy) = true := by
      rw [isNarrow, zero, decide_eq_true_iff]
      exact UInt32.zero_le
    refine ⟨(e.pointId - minPoint (e :: policy)).toNat, ?_⟩
    simp only [initFromPolicy, List.isEmpty_cons, Bool.false_eq_true, ↓reduceIte, List.foldlM_cons, addEntry,
      create_ringFor, cleared, dense, range, List.replicate_zero, List.length_nil, Nat.not_lt_zero]
    rfl

end Initialising

section Counting
variable {store : L1SnapshotStore T}

/-- Where an id of 32 bits is found in a store with a table. -/
theorem Shaped.lookup_ofNat (shaped : store.Shaped) (table : store.bufferByIndex ≠ []) {n : Nat}
    (small : n < UInt32.size) :
    store.lookup (UInt32.ofNat n) =
      if store.minPointId.toNat ≤ n then (store.bufferByIndex[n - store.minPointId.toNat]?).join else none := by
  obtain ⟨order, length⟩ := shaped.covers table
  have width := UInt32.toNat_sub_of_le store.maxPointId store.minPointId order
  have value : (UInt32.ofNat n).toNat = n := UInt32.toNat_ofNat_of_lt' small
  rw [lookup, shaped.alone table]
  by_cases least : store.minPointId.toNat ≤ n
  · have least' : store.minPointId ≤ UInt32.ofNat n := by rwa [UInt32.le_iff_toNat_le, value]
    rw [if_pos least]
    rw [UInt32.le_iff_toNat_le] at order
    by_cases most : n ≤ store.maxPointId.toNat
    · have most' : UInt32.ofNat n ≤ store.maxPointId := by rwa [UInt32.le_iff_toNat_le, value]
      rw [if_pos ⟨table, least', most'⟩, UInt32.toNat_sub_of_le _ _ least', value]
    · have most' : ¬UInt32.ofNat n ≤ store.maxPointId := by rwa [UInt32.le_iff_toNat_le, value]
      rw [if_neg fun all => most' all.2.2, List.getElem?_eq_none (by omega)]
      rfl
  · have least' : ¬store.minPointId ≤ UInt32.ofNat n := by rwa [UInt32.le_iff_toNat_le, value]
    rw [if_neg least, if_neg fun all => least' all.2.1]

theorem map_range_join {α : Type*} (cells : List (Option α)) :
    (List.range cells.length).map (fun i => (cells[i]?).join) = cells := by
  apply List.ext_getElem (by simp)
  intro i first second
  simp [List.getElem?_eq_getElem second]

/-- In a store of the right shape the buffers that are counted are those that are found. -/
theorem Shaped.registeredCount_eq (shaped : store.Shaped) :
    store.registeredCount = (List.range UInt32.size).countP fun id => (store.lookup (UInt32.ofNat id)).isSome := by
  by_cases table : store.bufferByIndex = []
  · simp only [registeredCount, lookup, table, List.countP_nil, Nat.zero_add, ne_eq, not_true_eq_false, false_and,
      ↓reduceIte]
  · obtain ⟨order, length⟩ := shaped.covers table
    have width := UInt32.toNat_sub_of_le store.maxPointId store.minPointId order
    have bound := store.maxPointId.toNat_lt
    rw [UInt32.le_iff_toNat_le] at order
    obtain ⟨rest, total⟩ : ∃ rest, UInt32.size = store.minPointId.toNat + (store.bufferByIndex.length + rest) :=
      ⟨UInt32.size - store.maxPointId.toNat - 1, by simp only [UInt32.size]; omega⟩
    have lower : (List.range store.minPointId.toNat).countP
        (fun id => (store.lookup (UInt32.ofNat id)).isSome) = 0 := by
      apply List.countP_eq_zero.mpr
      intro n member
      have below := List.mem_range.mp member
      rw [shaped.lookup_ofNat table (by omega), if_neg (Nat.not_le.mpr below)]
      exact Bool.false_ne_true
    have inside : (List.range store.bufferByIndex.length).countP
        (fun i => (store.lookup (UInt32.ofNat (store.minPointId.toNat + i))).isSome) =
        store.bufferByIndex.countP Option.isSome := by
      conv_rhs => rw [← map_range_join store.bufferByIndex, List.countP_map]
      apply List.countP_congr
      intro i member
      have below := List.mem_range.mp member
      rw [shaped.lookup_ofNat table (by omega), if_pos (Nat.le_add_right _ _), Nat.add_sub_cancel_left]
      rfl
    have upper : (List.range rest).countP
        (fun i => (store.lookup (UInt32.ofNat (store.minPointId.toNat + (store.bufferByIndex.length + i)))).isSome) =
        0 := by
      apply List.countP_eq_zero.mpr
      intro i member
      have below := List.mem_range.mp member
      rw [shaped.lookup_ofNat table (by omega), if_pos (Nat.le_add_right _ _), Nat.add_sub_cancel_left,
        List.getElem?_eq_none (Nat.le_add_right _ _)]
      exact Bool.false_ne_true
    have nobody : (List.range UInt32.size).countP (fun id => (store.sparseBuffers (UInt32.ofNat id)).isSome) = 0 := by
      apply List.countP_eq_zero.mpr
      intro n _
      rw [shaped.alone table]
      exact Bool.false_ne_true
    rw [registeredCount, nobody, Nat.add_zero, total, List.range_add, List.range_add, List.map_append,
      List.map_map, List.countP_append, List.countP_append, List.countP_map, List.countP_map, lower, Nat.zero_add,
      ← inside]
    exact (Nat.add_eq_left.mpr upper).symm

theorem Shaped.modifyRing (shaped : store.Shaped) (pointId : UInt32) (f : RingBuffer T → RingBuffer T) :
    (store.modifyRing pointId f).Shaped := by
  unfold L1SnapshotStore.modifyRing
  split
  · rename_i dense
    obtain ⟨order, length⟩ := shaped.covers dense.1
    exact ⟨fun _ => ⟨order, List.length_modify .. |>.trans length⟩, fun _ => shaped.alone dense.1⟩
  · refine ⟨shaped.covers, fun table id => ?_⟩
    show Function.update store.sparseBuffers pointId ((store.sparseBuffers pointId).map f) id = none
    rw [shaped.alone table, Option.map_none]
    by_cases own : id = pointId
    · rw [own, Function.update_self]
    · rw [Function.update_of_ne own, shaped.alone table]

end Counting

/-- A store that has buffers for these ids and no others. -/
structure Registers (store : L1SnapshotStore T) (ids : List UInt32) : Prop where
  shaped : store.Shaped
  found : ∀ id, store.hasPoint id = true ↔ id ∈ ids

section Registers
variable {store : L1SnapshotStore T} {ids : List UInt32}

theorem registers_empty : ({} : L1SnapshotStore T).Registers [] where
  shaped := ⟨fun table => absurd rfl table, fun table => absurd rfl table⟩
  found := by
    intro id
    simp only [hasPoint, lookup, ne_eq, not_true_eq_false, false_and, ↓reduceIte, Option.isSome_none,
      Bool.false_eq_true, List.not_mem_nil]

theorem Registers.modifyRing (registers : store.Registers ids) (pointId : UInt32) (f : RingBuffer T → RingBuffer T) :
    (store.modifyRing pointId f).Registers ids := by
  refine ⟨registers.shaped.modifyRing pointId f, fun id => ?_⟩
  rw [← registers.found id, hasPoint, hasPoint, lookup_modifyRing]
  by_cases own : id = pointId
  · rw [if_pos own, own, Option.isSome_map]
  · rw [if_neg own]

/-- As many buffers as distinct ids. -/
theorem Registers.count (registers : store.Registers ids) : store.registeredCount = ids.dedup.length := by
  rw [registers.shaped.registeredCount_eq, List.countP_eq_length_filter, ← List.length_map (UInt32.toNat)]
  apply List.Perm.length_eq
  apply (List.perm_ext_iff_of_nodup ?_ ?_).mpr
  · intro n
    rw [List.mem_filter, List.mem_range, List.mem_map]
    constructor
    · rintro ⟨small, found⟩
      exact ⟨UInt32.ofNat n, List.mem_dedup.mpr ((registers.found _).mp found), UInt32.toNat_ofNat_of_lt' small⟩
    · rintro ⟨id, member, rfl⟩
      refine ⟨id.toNat_lt, ?_⟩
      rw [UInt32.ofNat_toNat]
      exact (registers.found id).mpr (List.mem_dedup.mp member)
  · exact List.nodup_range.filter _
  · exact (List.nodup_dedup ids).map fun _ _ same => UInt32.toNat_inj.mp same

theorem registers_initFromPolicy (store : L1SnapshotStore T) {policy : List RingBufferPolicyEntry} (some : policy ≠ [])
    (apart : ¬SpansIds policy) :
    ∃ store' : L1SnapshotStore T, store.initFromPolicy blank policy = .ok (true, store') ∧
      store'.Registers (pointIds policy) := by
  obtain ⟨store', initialised, shaped, found⟩ := store.initFromPolicy_registers blank some apart
  refine ⟨store', initialised, shaped, fun id => ?_⟩
  rw [hasPoint, found, isSome_registering]
  simp only [Option.isSome_none, Bool.false_eq_true, false_or]

end Registers

/-- The ids of the latest policy after a call. -/
def idsAfter (ids : List UInt32) : SnapshotCall T → List UInt32
  | .initFromPolicy policy => if policy.isEmpty then ids else pointIds policy
  | .write _ _ => ids
  | .readRecent _ _ _ => ids
  | .extractRange _ _ _ _ => ids

/-- The ids of the latest policy that had any entries. -/
def latestIds (calls : List (SnapshotCall T)) : List UInt32 := calls.foldl idsAfter []

section Runs
variable (timestamp : T → UInt64)

/-- A call whose policy, if it has one, leaves out one end of the ids. -/
def Bounded (call : SnapshotCall T) : Prop := ∀ policy, call = .initFromPolicy policy → ¬SpansIds policy

theorem Registers.step {store : L1SnapshotStore T} {ids : List UInt32} (registers : store.Registers ids)
    {call : SnapshotCall T} (bounded : Bounded call) :
    (step blank timestamp store call).1.Registers (idsAfter ids call) ∧
      ∀ f, .fault f ∉ (step blank timestamp store call).2 := by
  cases call with
  | initFromPolicy policy =>
    by_cases empty : policy = []
    · subst empty
      exact ⟨registers, by simp [L1SnapshotStore.step, initFromPolicy]⟩
    · obtain ⟨store', initialised, registers'⟩ :=
        registers_initFromPolicy blank store empty (bounded policy rfl)
      simp only [L1SnapshotStore.step, initialised, idsAfter, List.isEmpty_eq_false_iff.mpr empty, Bool.false_eq_true,
        ↓reduceIte]
      exact ⟨registers', by simp⟩
  | write pointId s => exact ⟨registers.modifyRing pointId _, fun f => List.not_mem_nil⟩
  | readRecent pointId consumerId count =>
    refine ⟨?_, by simp [L1SnapshotStore.step]⟩
    simp only [L1SnapshotStore.step, readRecent, idsAfter]
    cases store.lookup pointId with
    | none => exact registers
    | some rb => exact registers.modifyRing pointId _
  | extractRange pointId startTs endTs maxCount => exact ⟨registers, by simp [L1SnapshotStore.step]⟩

theorem registers_run {calls : List (SnapshotCall T)} (bounded : ∀ call ∈ calls, Bounded call) :
    (Runs.run (step blank timestamp) {} calls).Registers (latestIds calls) ∧
      ∀ f, .fault f ∉ Runs.outputs (step blank timestamp) {} calls := by
  induction calls using List.reverseRecOn with
  | nil => exact ⟨registers_empty, fun f => List.not_mem_nil⟩
  | append_singleton calls call ih =>
    rw [List.forall_mem_append, List.forall_mem_singleton] at bounded
    obtain ⟨registers, quiet⟩ := ih bounded.1
    obtain ⟨next, silent⟩ := registers.step blank timestamp bounded.2
    rw [Runs.run_concat, Runs.outputs_concat, latestIds, List.foldl_concat]
    refine ⟨next, fun f member => ?_⟩
    rcases List.mem_append.mp member with before | now
    · exact quiet f before
    · exact silent f now

/-- What a call on one point does: nothing where the point is not registered, else it changes its buffer by
`change`, hands out what `read` finds in it, and leaves the other buffers alone. -/
def RoutesTo (pointId : UInt32) (change : RingBuffer T → RingBuffer T) (read : RingBuffer T → List (SnapshotAnswer T))
    (nothing : List (SnapshotAnswer T)) (store : L1SnapshotStore T) (call : SnapshotCall T) : Prop :=
  (store.lookup pointId = none → step blank timestamp store call = (store, nothing)) ∧
    ∀ rb, store.lookup pointId = some rb → (step blank timestamp store call).2 = read rb ∧
      (step blank timestamp store call).1.lookup pointId = some (change rb) ∧
      ∀ other, other ≠ pointId → (step blank timestamp store call).1.lookup other = store.lookup other

section Calls
variable (store : L1SnapshotStore T) (pointId : UInt32)

theorem routes_write (s : T) :
    RoutesTo blank timestamp pointId (RingBuffer.push · s) (fun _ => []) [] store (.write pointId s) := by
  refine ⟨fun none => ?_, fun rb found => ⟨rfl, ?_, fun other apart => ?_⟩⟩
  · exact congrArg (·, []) (store.modifyRing_unregistered pointId (RingBuffer.push · s) none)
  · rw [step, lookup_write, if_pos rfl, found]
    rfl
  · rw [step, lookup_write, if_neg apart]

theorem routes_readRecent (consumerId : Int) (count : Nat) :
    RoutesTo blank timestamp pointId (fun rb => (rb.readRecent consumerId count).2)
      (fun rb => [.samples (rb.readRecent consumerId count).1]) [.samples []] store
      (.readRecent pointId consumerId count) := by
  refine ⟨fun none => ?_, fun rb found => ?_⟩
  · simp only [step, readRecent, none]
  · simp only [step, readRecent, found, lookup_modifyRing, ↓reduceIte]
    exact ⟨trivial, rfl, fun other apart => if_neg apart⟩

theorem routes_extractRange (startTs endTs : UInt64) (maxCount : Nat) :
    RoutesTo blank timestamp pointId id
      (fun rb => [.samples (rb.extractRange timestamp startTs endTs maxCount)]) [.samples []] store
      (.extractRange pointId startTs endTs maxCount) := by
  refine ⟨fun none => ?_, fun rb found => ?_⟩
  · simp only [step, extractRange, none]
  · simp only [step, extractRange, found]
    exact ⟨trivial, rfl, fun _ _ => trivial⟩

end Calls

/-- A run in which no table is indexed outside its bounds, the ids of the latest policy are those that are
registered, and every write or read is one of its own point. -/
structure Routed (calls : List (SnapshotCall T)) : Prop where
  inside : ∀ f, .fault f ∉ Runs.outputs (step blank timestamp) {} calls
  registered : ∀ earlier, earlier <+: calls →
    (∀ id, (Runs.run (step blank timestamp) {} earlier).hasPoint id = true ↔ id ∈ latestIds earlier) ∧
      (Runs.run (step blank timestamp) {} earlier).registeredCount = (latestIds earlier).dedup.length
  written : ∀ v ∈ Runs.visits (step blank timestamp) {} calls, ∀ pointId s, v.2 = .write pointId s →
    RoutesTo blank timestamp pointId (RingBuffer.push · s) (fun _ => []) [] v.1 v.2
  read : ∀ v ∈ Runs.visits (step blank timestamp) {} calls, ∀ pointId consumerId count,
    v.2 = .readRecent pointId consumerId count →
      RoutesTo blank timestamp pointId (fun rb => (rb.readRecent consumerId count).2)
        (fun rb => [.samples (rb.readRecent consumerId count).1]) [.samples []] v.1 v.2
  extracted : ∀ v ∈ Runs.visits (step blank timestamp) {} calls, ∀ pointId startTs endTs maxCount,
    v.2 = .extractRange pointId startTs endTs maxCount →
      RoutesTo blank timestamp pointId id
        (fun rb => [.samples (rb.extractRange timestamp startTs endTs maxCount)]) [.samples []] v.1 v.2

/-- A run is routed as long as no policy has both ends of the ids. -/
theorem routed_iff (calls : List (SnapshotCall T)) :
    Routed blank timestamp calls ↔ ∀ policy, .initFromPolicy policy ∈ calls → ¬SpansIds policy := by
  constructor
  · intro routed policy called spans
    obtain ⟨earlier, later, rfl⟩ := List.append_of_mem called
    obtain ⟨index, faults⟩ := (Runs.run (step blank timestamp) {} earlier).initFromPolicy_spans blank spans
    apply routed.inside (.outsideTable index 0)
    rw [Runs.outputs_append]
    apply List.mem_append_right
    simp only [Runs.outputs, step, faults]
    exact List.mem_cons_self ..
  · intro apart
    have bounded : ∀ call ∈ calls, Bounded call := fun call member policy own => apart policy (own ▸ member)
    refine ⟨(registers_run blank timestamp bounded).2, fun earlier isPrefix => ?_, fun v _ pointId s own => ?_,
      fun v _ pointId consumerId count own => ?_, fun v _ pointId startTs endTs maxCount own => ?_⟩
    · have registers := (registers_run blank timestamp fun call member => bounded call (isPrefix.subset member)).1
      exact ⟨registers.found, registers.count⟩
    · rw [own]
      exact routes_write blank timestamp v.1 pointId s
    · rw [own]
      exact routes_readRecent blank timestamp v.1 pointId consumerId count
    · rw [own]
      exact routes_extractRange blank timestamp v.1 pointId startTs endTs maxCount

/-- A policy for the first and the last id there are: the first entry is already outside the table. -/
theorem ends_outside_table :
    ¬Routed (0 : Nat) UInt64.ofNat [.initFromPolicy [{ pointId := 0 }, { pointId := 0xFFFFFFFF }]] ∧
      ({} : L1SnapshotStore Nat).initFromPolicy 0 [{ pointId := 0 }, { pointId := 0xFFFFFFFF }] matches
        .error (.outsideTable 0 0) := by
  constructor
  · intro routed
    have spans : SpansIds [{ pointId := 0 }, { pointId := 0xFFFFFFFF }] := ⟨by decide, by decide⟩
    obtain ⟨index, faults⟩ := ({} : L1SnapshotStore Nat).initFromPolicy_spans 0 spans
    apply routed.inside (.outsideTable index 0)
    simp only [Runs.outputs, step, faults]
    exact List.mem_cons_self ..
  · decide

end Runs
end L1SnapshotStore
end EnerSentry.Datahub
