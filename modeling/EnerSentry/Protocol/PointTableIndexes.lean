import EnerSentry.Protocol.PointTableFile

/-!
What a loaded table holds. One pass enters every point into three indexes, and the ids of a
slave are then put in the order of their addresses. The indexes agree for every document
that is accepted. The addresses are those written in it exactly where these fit.
-/

namespace EnerSentry.Protocol
open EnerSentry.Lib EnerSentry.Sim JsonValue

variable {K : Type}

/-- The key under which the address index has a point. -/
def LoadedPoint.key (p : LoadedPoint K) : UInt64 := PointTable.kAddrKey p.slaveAddress p.registerAddr

namespace PointTable

/-- The queries speak of the same points. -/
structure Consistent (t : PointTable K) : Prop where
  byId : ∀ id p, t.pointIdOf id = some p ↔ p ∈ t.allPoints ∧ p.pointId = id
  byAddress : ∀ slave addr p, t.resolve slave addr = some p ↔
    p ∈ t.allPoints ∧ p.slaveAddress = slave ∧ p.registerAddr = addr
  onSlave : ∀ slave p, p ∈ t.allOnSlave slave ↔ p ∈ t.allPoints ∧ p.slaveAddress = slave
  ascending : ∀ slave, (t.allOnSlave slave).Pairwise fun a b => a.registerAddr < b.registerAddr

/-- The indexes hold these points, the newest first. -/
structure Indexed (t : PointTable K) (rows : List (LoadedPoint K)) : Prop where
  byPointId : t.byPointId.entries = rows.map fun p => ⟨p.pointId, p⟩
  byAddr : t.byAddr.entries = rows.map fun p => ⟨p.key, p.pointId⟩
  bySlave : ∀ slave, (t.bySlave slave).Perm ((rows.filter fun p => p.slaveAddress == slave).map (·.pointId))

theorem kAddrKey_toNat (slave : UInt8) (addr : UInt16) :
    (kAddrKey slave addr).toNat = slave.toNat * 2 ^ 32 + addr.toNat := by
  have low : addr.toNat < 2 ^ 32 := addr.toNat_lt.trans (by decide)
  have small := slave.toNat_lt
  have shifted : (slave.toUInt64 <<< 32).toNat = slave.toNat <<< 32 := by
    rw [UInt64.toNat_shiftLeft, UInt8.toNat_toUInt64]
    apply Nat.mod_eq_of_lt
    change slave.toNat <<< 32 < 2 ^ 64
    rw [Nat.shiftLeft_eq]
    omega
  rw [kAddrKey, UInt64.toNat_or, shifted, UInt16.toNat_toUInt64, ← Nat.shiftLeft_add_eq_or_of_lt low, Nat.shiftLeft_eq]

/-- Slave and address can be told from their key. -/
theorem kAddrKey_inj {slave slave' : UInt8} {addr addr' : UInt16} :
    kAddrKey slave addr = kAddrKey slave' addr' ↔ slave = slave' ∧ addr = addr' := by
  constructor
  · intro same
    have equal := congrArg UInt64.toNat same
    rw [kAddrKey_toNat, kAddrKey_toNat] at equal
    have low := addr.toNat_lt
    have low' := addr'.toNat_lt
    exact ⟨UInt8.toNat_inj.mp (by omega), UInt16.toNat_inj.mp (by omega)⟩
  · rintro ⟨rfl, rfl⟩
    rfl

section Indexes
variable {t t' : PointTable K} {rows : List (LoadedPoint K)} {p : LoadedPoint K}

theorem indexed_empty : ({} : PointTable K).Indexed [] :=
  ⟨rfl, rfl, fun _ => List.Perm.refl []⟩

theorem Indexed.addPoint (here : t.Indexed rows) (added : t.addPoint p = .ok t') : t'.Indexed (p :: rows) := by
  unfold PointTable.addPoint at added
  split at added
  · cases added
  split at added
  · cases added
  rename_i freshId freshKey
  cases added
  refine ⟨?_, ?_, ?_⟩
  · rw [AList.entries_insert_of_notMem freshId, here.byPointId, List.map_cons]
  · rw [AList.entries_insert_of_notMem freshKey, here.byAddr, List.map_cons]
    rfl
  · intro slave
    change (Function.update t.bySlave p.slaveAddress (t.bySlave p.slaveAddress ++ [p.pointId]) slave).Perm _
    by_cases own : p.slaveAddress = slave
    · subst own
      rw [Function.update_self, List.filter_cons_of_pos (by rw [beq_self_eq_true]), List.map_cons]
      exact (List.perm_append_singleton _ _).trans ((here.bySlave _).cons _)
    · rw [Function.update_of_ne (Ne.symm own), List.filter_cons_of_neg (by simpa using own)]
      exact here.bySlave slave

theorem Indexed.sortSlaves (here : t.Indexed rows) : t.sortSlaves.Indexed rows :=
  ⟨here.byPointId, here.byAddr, fun slave => (List.perm_insertionSort _ _).trans (here.bySlave slave)⟩

/-- A pass over a list of elements enters the points read from them. -/
theorem Indexed.loadPoints {num : NumberReading K} {long : LongWidth} {elements : List (Json K)}
    (here : t.Indexed rows) (loaded : t.loadPoints num long elements = .ok t') :
    ∃ points, List.Forall₂ (fun j p => LoadedPoint.read num long j = .ok p) elements points ∧
      t'.Indexed (points.reverse ++ rows) := by
  induction elements generalizing t rows with
  | nil =>
    cases loaded
    exact ⟨[], List.Forall₂.nil, here⟩
  | cons pj elements ih =>
    rw [PointTable.loadPoints, Json.bind_eq_ok] at loaded
    obtain ⟨p, read, loaded⟩ := loaded
    obtain ⟨next, added, loaded⟩ := Json.bind_eq_ok.mp loaded
    obtain ⟨points, each, there⟩ := ih (here.addPoint added) loaded
    refine ⟨p :: points, List.Forall₂.cons read each, ?_⟩
    rw [List.reverse_cons, List.append_assoc, List.singleton_append]
    exact there

section Queries
variable (here : t.Indexed rows)

include here

theorem Indexed.allPoints : t.allPoints = rows := by
  rw [PointTable.allPoints, here.byPointId, List.map_map]
  exact List.map_id rows

theorem Indexed.nodup_pointIds : (t.allPoints.map (·.pointId)).Nodup := by
  have distinct := t.byPointId.keys_nodup
  rw [AList.keys, here.byPointId, List.keys, List.map_map] at distinct
  rw [here.allPoints]
  exact distinct

theorem Indexed.pointIdOf {id : UInt32} : t.pointIdOf id = some p ↔ p ∈ rows ∧ p.pointId = id := by
  rw [PointTable.pointIdOf, ← Option.mem_def, AList.mem_lookup_iff, here.byPointId, List.mem_map]
  constructor
  · rintro ⟨q, member, same⟩
    cases same
    exact ⟨member, rfl⟩
  · rintro ⟨member, rfl⟩
    exact ⟨p, member, rfl⟩

theorem Indexed.resolve {slave : UInt8} {addr : UInt16} : t.resolve slave addr = some p ↔
    p ∈ rows ∧ p.slaveAddress = slave ∧ p.registerAddr = addr := by
  have found : ∀ id, t.byAddr.lookup (kAddrKey slave addr) = some id ↔
      ∃ q ∈ rows, q.key = kAddrKey slave addr ∧ q.pointId = id := by
    intro id
    rw [← Option.mem_def, AList.mem_lookup_iff, here.byAddr, List.mem_map]
    apply exists_congr
    intro q
    rw [Sigma.mk.injEq, heq_eq_eq]
  rw [PointTable.resolve, Option.bind_eq_some_iff]
  constructor
  · rintro ⟨id, listed, stored⟩
    obtain ⟨q, member, key, rfl⟩ := (found id).mp listed
    -- an id has one point
    have unique : t.pointIdOf q.pointId = some q := here.pointIdOf.mpr ⟨member, rfl⟩
    obtain rfl : q = p := Option.some.inj (unique.symm.trans stored)
    exact ⟨member, kAddrKey_inj.mp key⟩
  · rintro ⟨member, rfl, rfl⟩
    exact ⟨p.pointId, (found _).mpr ⟨p, member, rfl, rfl⟩, here.pointIdOf.mpr ⟨member, rfl⟩⟩

theorem Indexed.perm_allOnSlave (slave : UInt8) :
    (t.allOnSlave slave).Perm (rows.filter fun p => p.slaveAddress == slave) := by
  apply ((here.bySlave slave).filterMap t.pointIdOf).trans
  apply List.Perm.of_eq
  calc ((rows.filter fun p => p.slaveAddress == slave).map (·.pointId)).filterMap t.pointIdOf
      = (rows.filter fun p => p.slaveAddress == slave).filterMap fun p => t.pointIdOf p.pointId := List.filterMap_map
    _ = (rows.filter fun p => p.slaveAddress == slave).filterMap some := by
      apply List.filterMap_congr
      intro p member
      exact here.pointIdOf.mpr ⟨List.mem_of_mem_filter member, rfl⟩
    _ = rows.filter fun p => p.slaveAddress == slave := List.filterMap_some

/-- The points of one slave have different addresses. -/
theorem Indexed.nodup_allOnSlave (slave : UInt8) : ((t.allOnSlave slave).map (·.registerAddr)).Nodup := by
  have keys : (rows.map LoadedPoint.key).Nodup := by
    have distinct := t.byAddr.keys_nodup
    rw [AList.keys, here.byAddr, List.keys, List.map_map] at distinct
    exact distinct
  have own : (rows.filter fun p => p.slaveAddress == slave).map LoadedPoint.key =
      ((rows.filter fun p => p.slaveAddress == slave).map (·.registerAddr)).map (kAddrKey slave) := by
    rw [List.map_map]
    apply List.map_congr_left
    intro p member
    have same : p.slaveAddress = slave := eq_of_beq (List.mem_filter.mp member).2
    rw [LoadedPoint.key, same]
    rfl
  apply ((here.perm_allOnSlave slave).map _).nodup_iff.mpr
  apply List.Nodup.of_map (kAddrKey slave)
  rw [← own]
  exact keys.sublist (List.filter_sublist.map _)

/-- Ids in the order of the addresses of their points are points in this order. -/
theorem Indexed.ascending {slave : UInt8}
    (sorted : (t.bySlave slave).Pairwise fun a b => t.addrOf a ≤ t.addrOf b) :
    (t.allOnSlave slave).Pairwise fun a b => a.registerAddr < b.registerAddr := by
  have upwards : (t.allOnSlave slave).Pairwise fun a b => a.registerAddr ≤ b.registerAddr := by
    rw [allOnSlave, List.pairwise_filterMap]
    apply sorted.imp
    intro a b le p first q second
    rwa [addrOf, addrOf, first, second] at le
  apply (upwards.and (List.pairwise_map.mp (here.nodup_allOnSlave slave))).imp
  rintro a b ⟨le, ne⟩
  exact UInt16.lt_of_le_of_ne le ne

end Queries

theorem sorted_sortSlaves (t : PointTable K) (slave : UInt8) :
    (t.sortSlaves.bySlave slave).Pairwise fun a b => t.sortSlaves.addrOf a ≤ t.sortSlaves.addrOf b := by
  have total : Std.Total fun a b => t.addrOf a ≤ t.addrOf b := ⟨fun a b => UInt16.le_total _ _⟩
  have trans : IsTrans UInt32 fun a b => t.addrOf a ≤ t.addrOf b := ⟨fun _ _ _ => UInt16.le_trans⟩
  exact List.pairwise_insertionSort _ (t.bySlave slave)

theorem consistent_sortSlaves (here : t.Indexed rows) : t.sortSlaves.Consistent := by
  have there := here.sortSlaves
  have points := there.allPoints
  refine ⟨?_, ?_, ?_, ?_⟩
  · intro id p
    rw [points]
    exact there.pointIdOf
  · intro slave addr p
    rw [points]
    exact there.resolve
  · intro slave p
    rw [points, (there.perm_allOnSlave slave).mem_iff, List.mem_filter, beq_iff_eq]
  · intro slave
    exact there.ascending (sorted_sortSlaves t slave)

end Indexes
end PointTable

/-- The value is the number `n`: an integer, a real without a fraction, or a numeral. -/
def Writes (num : NumberReading K) (n : Int) : Json K → Prop
  | .integer i => i = n
  | .float x => num.truncate x = n ∧ num.ofInt n = x
  | .string s => Numerals.numeral s.toList = some n
  | _ => False

/-- The number `n` is written under a key of the element. -/
def WritesAt (num : NumberReading K) (j : Json K) (key : String) (n : Int) : Prop :=
  ∃ v, j.member key = some v ∧ Writes num n v

/-- The element tells of the point, by its id and with these very addresses. -/
structure Tells (num : NumberReading K) (j : Json K) (p : LoadedPoint K) : Prop where
  point : (atKey j "pointId" >>= getUInt32 num) = .ok p.pointId
  slave : WritesAt num j "slaveAddress" p.slaveAddress.toNat
  address : WritesAt num j "registerAddr" p.registerAddr.toNat

/-- The points of the table stand in the document with their addresses. -/
structure AsWritten (num : NumberReading K) (elements : List (Json K)) (t : PointTable K) : Prop where
  stored : ∀ j ∈ elements, ∃ p ∈ t.allPoints, Tells num j p
  written : ∀ p ∈ t.allPoints, ∃ j ∈ elements, Tells num j p

/-- The addresses of an element are written as numbers, and as numbers of their words. -/
structure InRange (num : NumberReading K) (j : Json K) : Prop where
  slave : ∃ n, WritesAt num j "slaveAddress" n ∧ 0 ≤ n ∧ n < 2 ^ 8
  address : ∃ n, WritesAt num j "registerAddr" n ∧ 0 ≤ n ∧ n < 2 ^ 16

section Addresses
variable {num : NumberReading K} {long : LongWidth} {j v : Json K} {p : LoadedPoint K} {n : Int}

theorem atKey_eq_ok {key : String} (found : atKey j key = .ok v) : j.member key = some v := by
  unfold atKey at found
  split at found
  · split at found
    · rename_i there
      cases found
      exact there
    · cases found
  · cases found

theorem member_of_bind {A : Type} {key : String} {get : Json K → Except String A} {a : A}
    (read : (atKey j key >>= get) = .ok a) : ∃ v, j.member key = some v ∧ get v = .ok a := by
  obtain ⟨v, found, got⟩ := Json.bind_eq_ok.mp read
  exact ⟨v, atKey_eq_ok found, got⟩

/-- The fields of a point that tell which registers it is read from. -/
theorem read_addresses (read : LoadedPoint.read num long j = .ok p) :
    (atKey j "pointId" >>= getUInt32 num) = .ok p.pointId ∧
      (∃ v, j.member "slaveAddress" = some v ∧ getUInt8 num v = .ok p.slaveAddress) ∧
      ∃ v, j.member "registerAddr" = some v ∧ parseRegisterAddr long v = .ok p.registerAddr := by
  unfold LoadedPoint.read at read
  simp only [Json.bind_eq_ok (b := p)] at read
  obtain ⟨id, point, slaveAddress, slave, link, -, reg, -, data, -, order, -, addr, address, scale, -, offset, -,
    interval, -, prio, -, enabled, -, name, -, unit, -, made⟩ := read
  cases made
  exact ⟨point, member_of_bind slave, member_of_bind address⟩

/-- A slave address that fits its byte is stored as it is written. -/
theorem getUInt8_writes {b : UInt8} (writes : Writes num n v) (low : 0 ≤ n) (high : n < 2 ^ 8)
    (got : getUInt8 num v = .ok b) : (b.toNat : Int) = n := by
  have fits : ((UInt8.ofInt n).toNat : Int) = n := by
    rw [UInt8.ofInt, UInt8.toNat_ofNat']
    omega
  cases v with
  | integer i =>
    obtain rfl : i = n := writes
    cases got
    exact fits
  | float x =>
    obtain ⟨whole, -⟩ := writes
    cases got
    exact whole ▸ fits
  | string s => cases got
  | null => cases writes
  | boolean b => cases writes
  | array es => cases writes
  | object ms => cases writes

/-- A register address that fits its word is stored as it is written. -/
theorem parseRegisterAddr_writes {w : UInt16} (writes : Writes num n v) (low : 0 ≤ n) (high : n < 2 ^ 16)
    (got : parseRegisterAddr long v = .ok w) : (w.toNat : Int) = n := by
  cases v with
  | integer i =>
    obtain rfl : i = n := writes
    cases got
    rw [UInt16.ofInt, UInt16.toNat_ofNat']
    omega
  | string s =>
    have wide : n < 2 ^ long.bits := high.trans (by cases long <;> decide)
    rw [parseRegisterAddr, Numerals.stoul_of_numeral writes low wide] at got
    cases got
    rw [UInt16.toNat_ofNat']
    omega
  | float x => cases got
  | null => cases writes
  | boolean b => cases writes
  | array es => cases writes
  | object ms => cases writes

theorem tells_of_inRange (read : LoadedPoint.read num long j = .ok p) (fits : InRange num j) : Tells num j p := by
  obtain ⟨point, ⟨v, slave, gotSlave⟩, ⟨w, address, gotAddress⟩⟩ := read_addresses read
  obtain ⟨n, ⟨v', there, writes⟩, low, high⟩ := fits.slave
  obtain ⟨m, ⟨w', there', writes'⟩, low', high'⟩ := fits.address
  obtain rfl : v = v' := Option.some.inj (slave.symm.trans there)
  obtain rfl : w = w' := Option.some.inj (address.symm.trans there')
  refine ⟨point, ⟨v, slave, ?_⟩, ⟨w, address, ?_⟩⟩
  · rwa [getUInt8_writes writes low high gotSlave]
  · rwa [parseRegisterAddr_writes writes' low' high' gotAddress]

theorem inRange_of_tells (tells : Tells num j p) : InRange num j where
  slave := ⟨_, tells.slave, Int.natCast_nonneg _, by exact_mod_cast p.slaveAddress.toNat_lt⟩
  address := ⟨_, tells.address, Int.natCast_nonneg _, by exact_mod_cast p.registerAddr.toNat_lt⟩

/-- The elements of the list of points. -/
def PointFile.elements (file : PointFile K) : List (Json K) :=
  match file with
  | .document root =>
      match root.member "points" with
      | some (.array elements) => elements
      | _ => []
  | _ => []

/-- A file that is accepted had its elements taken over one by one, and its slaves sorted. -/
theorem loadFromJsonFile_eq_ok {file : PointFile K} {table : PointTable K}
    (loaded : loadFromJsonFile num long file = .ok table) :
    ∃ t, PointTable.loadPoints num long {} file.elements = .ok t ∧ table = t.sortSlaves := by
  cases file with
  | unreadable display => cases loaded
  | malformed display what => cases loaded
  | document root =>
    rw [loadFromJsonFile, Json.bind_eq_ok] at loaded
    obtain ⟨sv, -, loaded⟩ := loaded
    split at loaded
    · cases loaded
    obtain ⟨elements, listed, loaded⟩ := Json.bind_eq_ok.mp loaded
    obtain ⟨t, passed, made⟩ := Json.bind_eq_ok.mp loaded
    have same : (PointFile.document root).elements = elements := by
      unfold pointElements at listed
      split at listed
      · rename_i found
        cases listed
        rw [PointFile.elements, found]
      · cases listed
    cases made
    exact ⟨t, same ▸ passed, rfl⟩

/-- The points of an accepted file, one for each element, are those of its table. -/
theorem exists_points {file : PointFile K} {table : PointTable K}
    (loaded : loadFromJsonFile num long file = .ok table) : ∃ points,
    List.Forall₂ (fun j p => LoadedPoint.read num long j = .ok p) file.elements points ∧
      table.Indexed points.reverse ∧ table.Consistent := by
  obtain ⟨t, passed, rfl⟩ := loadFromJsonFile_eq_ok loaded
  obtain ⟨points, each, here⟩ := PointTable.indexed_empty.loadPoints passed
  rw [List.append_nil] at here
  exact ⟨points, each, here.sortSlaves, PointTable.consistent_sortSlaves here⟩

theorem exists_right_of_forall₂ {A B : Type} {R : A → B → Prop} {as : List A} {bs : List B} {a : A}
    (each : List.Forall₂ R as bs) (member : a ∈ as) : ∃ b ∈ bs, R a b := by
  induction each with
  | nil => cases member
  | cons related _ ih =>
    rcases List.mem_cons.mp member with rfl | later
    · exact ⟨_, List.mem_cons_self, related⟩
    · obtain ⟨b, inside, holds⟩ := ih later
      exact ⟨b, List.mem_cons_of_mem _ inside, holds⟩

/-- Every accepted document gives indexes that agree, over the points of its elements. The
addresses stored are those written if and only if every one of them fits. -/
theorem PointTable.asWritten_iff {file : PointFile K} {table : PointTable K}
    (loaded : loadFromJsonFile num long file = .ok table) :
    table.Consistent ∧
      (∀ p, p ∈ table.allPoints ↔ ∃ j ∈ file.elements, LoadedPoint.read num long j = .ok p) ∧
      (AsWritten num file.elements table ↔ ∀ j ∈ file.elements, InRange num j) := by
  obtain ⟨points, each, here, consistent⟩ := exists_points loaded
  have stored : ∀ p, p ∈ table.allPoints ↔ p ∈ points := by
    intro p
    rw [here.allPoints, List.mem_reverse]
  have read : ∀ p, p ∈ table.allPoints ↔ ∃ j ∈ file.elements, LoadedPoint.read num long j = .ok p := by
    intro p
    rw [stored]
    constructor
    · intro member
      exact exists_right_of_forall₂ each.flip member
    · rintro ⟨j, member, got⟩
      obtain ⟨q, inside, got'⟩ := exists_right_of_forall₂ each member
      obtain rfl : p = q := Except.ok.inj (got.symm.trans got')
      exact inside
  refine ⟨consistent, read, ?_, ?_⟩
  · intro told j member
    obtain ⟨p, -, tells⟩ := told.stored j member
    exact inRange_of_tells tells
  · intro fits
    constructor
    · intro j member
      obtain ⟨p, inside, got⟩ := exists_right_of_forall₂ each member
      exact ⟨p, (stored p).mpr inside, tells_of_inRange got (fits j member)⟩
    · intro p member
      obtain ⟨j, inside, got⟩ := (read p).mp member
      exact ⟨j, inside, tells_of_inRange got (fits j inside)⟩

end Addresses

/-- Numbers without a fraction. -/
def wholeNumbers : NumberReading Int := ⟨id, id, id⟩

/-- A table of one point with these addresses. -/
def onePoint (slave address : Json Int) : PointFile Int :=
  .document (.object [
    ("meta", .object [("schemaVersion", .string "1.1")]),
    ("points", .array [.object [
      ("pointId", .integer 1), ("slaveAddress", slave), ("regType", .string "HoldingRegister"),
      ("dataType", .string "Uint16"), ("byteOrder", .string "ABCD"), ("registerAddr", address)]])])

theorem onePoint_asWritten : ∃ table,
    loadFromJsonFile wholeNumbers .bits64 (onePoint (.integer 1) (.string "0x1000")) = .ok table ∧
      AsWritten wholeNumbers (onePoint (.integer 1) (.string "0x1000")).elements table := by
  refine ⟨_, rfl, (@PointTable.asWritten_iff _ wholeNumbers .bits64 _ _ rfl).2.2.mpr ?_⟩
  intro j member
  obtain rfl := List.mem_singleton.mp member
  exact ⟨⟨1, ⟨_, rfl, rfl⟩, by decide, by decide⟩, ⟨4096, ⟨_, rfl, rfl⟩, by decide, by decide⟩⟩

/-- Slave 257 and register 0x1000A are accepted, and stored as slave 1 and register 10. -/
theorem onePoint_wraps : ∃ table,
    loadFromJsonFile wholeNumbers .bits64 (onePoint (.integer 257) (.string "0x1000A")) = .ok table ∧
      (table.allPoints.map fun p => (p.slaveAddress, p.registerAddr)) = [(1, 10)] ∧
      ¬ AsWritten wholeNumbers (onePoint (.integer 257) (.string "0x1000A")).elements table := by
  refine ⟨_, rfl, rfl, ?_⟩
  intro told
  obtain ⟨p, -, tells⟩ := told.stored _ (List.mem_singleton.mpr rfl)
  obtain ⟨v, there, writes⟩ := tells.slave
  cases there
  have small := p.slaveAddress.toNat_lt
  have same : (257 : Int) = p.slaveAddress.toNat := writes
  omega

end EnerSentry.Protocol
