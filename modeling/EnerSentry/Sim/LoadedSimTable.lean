import EnerSentry.Protocol.PointTableIndexes
import EnerSentry.Sim.ScenarioScript

/-!
The point table as the simulator loads it, from the file that the application loads too. The simulator
puts a data type and a byte order where none is given, looks for no duplicates and keeps the points of
each slave in the order of the file. What the application accepts the simulator accepts with the same
points, unless a hexadecimal address has more than digits behind its prefix.
-/

namespace EnerSentry.Sim
open EnerSentry.Lib EnerSentry.Protocol JsonValue

variable {K : Type}

def parseRegisterType (s : String) : Except String RegisterType :=
  if s == "HoldingRegister" then .ok .holdingRegister
  else if s == "InputRegister" then .ok .inputRegister
  else if s == "Coil" then .ok .coil
  else if s == "DiscreteInput" then .ok .discreteInput
  else .error ("SimPointTable: unknown regType '" ++ s ++ "'")

def parseDataType (s : String) : Except String DataType :=
  if s == "Bool" then .ok .bool
  else if s == "Int16" then .ok .int16
  else if s == "Uint16" then .ok .uint16
  else if s == "Int32" then .ok .int32
  else if s == "Float32" then .ok .float32
  else if s == "Float64" then .ok .float64
  else .error ("SimPointTable: unknown dataType '" ++ s ++ "'")

def parseByteOrder (s : String) : Except String ByteOrder :=
  if s == "ABCD" then .ok .abcd
  else if s == "BADC" then .ok .badc
  else if s == "CDAB" then .ok .cdab
  else if s == "DCBA" then .ok .dcba
  else .error ("SimPointTable: unknown byteOrder '" ++ s ++ "'")

/-- The prefix is cut off before the conversion, which then takes blanks, a sign or another prefix. -/
def parseHexOrDec (long : LongWidth) (s : String) : Except String UInt16 :=
  if Numerals.hexPrefix s.toList then (Numerals.stoul long.bits 16 (s.toList.drop 2)).map UInt16.ofNat
  else (Numerals.stoul long.bits 10 s.toList).map UInt16.ofNat

def getUInt16 (num : NumberReading K) : Json K → Except String UInt16 :=
  getNarrow UInt16.ofInt fun x => UInt16.ofInt (num.truncate x)

def readRegisterAddr (num : NumberReading K) (long : LongWidth) : Json K → Except String UInt16
  | .string s => parseHexOrDec long s
  | j => getUInt16 num j

/-- A point of the simulator's table, with the fields that the generator does not read. -/
structure LoadedSimPoint (K : Type) extends SimPoint K where
  pointId : UInt32 := 0
  slaveAddress : UInt8 := 0
  dataType : DataType := .float32
  byteOrder : ByteOrder := .abcd
  unit : String := ""

def LoadedSimPoint.read (num : NumberReading K) (long : LongWidth) (jp : Json K) :
    Except String (LoadedSimPoint K) := do
  let pointId ← atKey jp "pointId" >>= getUInt32 num
  let pointName ← jp.value "pointName" "" Json.getString
  let slaveAddress ← atKey jp "slaveAddress" >>= getUInt8 num
  let regType ← atKey jp "regType" >>= Json.getString >>= parseRegisterType
  let dataType ← jp.value "dataType" "Float32" Json.getString >>= parseDataType
  let byteOrder ← jp.value "byteOrder" "ABCD" Json.getString >>= parseByteOrder
  let registerAddr ← atKey jp "registerAddr" >>= readRegisterAddr num long
  let scaleFactor ← jp.value "scaleFactor" (num.ofInt 1) (getFloat num)
  let offset ← jp.value "offset" (num.ofInt 0) (getFloat num)
  let unit ← jp.value "unit" "" Json.getString
  let enabled ← jp.value "enabled" true getBool
  return { pointId, pointName, slaveAddress, regType, dataType, byteOrder, registerAddr, scaleFactor, offset, unit,
           enabled }

structure LoadedSimTable (K : Type) where
  bySlave : UInt8 → List (LoadedSimPoint K) := fun _ => []

namespace LoadedSimTable

def onSlave (t : LoadedSimTable K) (slave : UInt8) : List (LoadedSimPoint K) := t.bySlave slave

/-- The slaves that have points, in ascending order. -/
def allSlaveIds (t : LoadedSimTable K) : List UInt8 :=
  ((List.range 256).map UInt8.ofNat).filter fun id => !(t.onSlave id).isEmpty

theorem ascending_allSlaveIds (t : LoadedSimTable K) : t.allSlaveIds.Pairwise (· < ·) := by
  apply List.Pairwise.filter
  rw [List.pairwise_map]
  apply List.pairwise_lt_range.imp_of_mem
  intro a b first second below
  rw [List.mem_range] at first second
  rw [UInt8.lt_iff_toNat_lt, UInt8.toNat_ofNat', UInt8.toNat_ofNat', Nat.mod_eq_of_lt first, Nat.mod_eq_of_lt second]
  exact below

theorem mem_allSlaveIds {t : LoadedSimTable K} {slave : UInt8} : slave ∈ t.allSlaveIds ↔ t.onSlave slave ≠ [] := by
  have listed : slave ∈ (List.range 256).map UInt8.ofNat :=
    List.mem_map.mpr ⟨slave.toNat, List.mem_range.mpr slave.toNat_lt, UInt8.ofNat_toNat⟩
  rw [allSlaveIds, List.mem_filter, and_iff_right listed, Bool.not_eq_true', List.isEmpty_eq_false_iff]

/-- The table with the fields that the simulator reads later on. -/
def table (t : LoadedSimTable K) : SimPointTable K where
  bySlave := t.allSlaveIds.map fun id => (id, (t.onSlave id).map (·.toSimPoint))
  ascending := by
    rw [List.map_map]
    exact (List.map_id t.allSlaveIds).symm ▸ t.ascending_allSlaveIds

theorem allSlaveIds_table (t : LoadedSimTable K) : t.table.allSlaveIds = t.allSlaveIds := by
  rw [SimPointTable.allSlaveIds, table, List.map_map]
  exact List.map_id _

theorem onSlave_table (t : LoadedSimTable K) (slave : UInt8) :
    t.table.onSlave slave = (t.onSlave slave).map (·.toSimPoint) := by
  simp only [SimPointTable.onSlave, table, List.find?_map]
  cases found : t.allSlaveIds.find? ((fun entry : UInt8 × List (SimPoint K) => entry.1 == slave) ∘
      fun id => (id, (t.onSlave id).map (·.toSimPoint))) with
  | some id =>
    have own := List.find?_some found
    obtain rfl : id = slave := beq_iff_eq.mp own
    rfl
  | none =>
    have unlisted : slave ∉ t.allSlaveIds := fun member =>
      absurd (List.find?_eq_none.mp found slave member) (by simp)
    rw [mem_allSlaveIds, not_not] at unlisted
    rw [unlisted]
    rfl

def addPoint (t : LoadedSimTable K) (p : LoadedSimPoint K) : LoadedSimTable K :=
  { bySlave := Function.update t.bySlave p.slaveAddress (t.bySlave p.slaveAddress ++ [p]) }

def loadPoints (num : NumberReading K) (long : LongWidth) (t : LoadedSimTable K) :
    List (Json K) → Except String (LoadedSimTable K)
  | [] => .ok t
  | jp :: rest => do
      let p ← LoadedSimPoint.read num long jp
      loadPoints num long (t.addPoint p) rest

/-- What a loop over a value visits. The members of an object stand in the order of their map. -/
def items : Json K → List (Json K)
  | .array elements => elements
  | .object members => members.map (·.2)
  | .null => []
  | j => [j]

def schemaVersion (root : Json K) : Except String String := do
  let info ← root.value "meta" (.object []) .ok
  info.value "schemaVersion" "0.0" Json.getString

def loadFromJsonFile (num : NumberReading K) (long : LongWidth) : PointFile K → Except String (LoadedSimTable K)
  | .unreadable display => .error ("SimPointTable: cannot open file '" ++ display ++ "'")
  | .malformed display what => .error ("SimPointTable: JSON parse error in " ++ display ++ ": " ++ what)
  | .document root => do
      let ver ← schemaVersion root
      if ver != "1.0" && ver != "1.1" then
        .error ("SimPointTable: unsupported schemaVersion '" ++ ver ++ "' (accept 1.0/1.1)")
      else do
        let points ← atKey root "points"
        loadPoints num long {} (items points)

end LoadedSimTable

/-- A register type under the simulator's name for it. -/
def simType : Protocol.RegisterType → RegisterType
  | .holdingRegister => .holdingRegister
  | .inputRegister => .inputRegister
  | .coil => .coil
  | .discreteInput => .discreteInput

/-- A point of the application as the simulator has it. -/
def sharedPoint (p : LoadedPoint K) : LoadedSimPoint K :=
  { pointId := p.pointId
    pointName := p.pointName
    slaveAddress := p.slaveAddress
    regType := simType p.regType
    dataType := p.dataType
    byteOrder := p.byteOrder
    registerAddr := p.registerAddr
    scaleFactor := p.scaleFactor
    offset := p.offset
    unit := p.unit
    enabled := p.enabled }

/-- A hexadecimal address has digits behind its prefix and nothing else. -/
def PlainAddress (j : Json K) : Prop :=
  ∀ s, j.member "registerAddr" = some (.string s) → Numerals.hexPrefix s.toList = true →
    (Numerals.unsigned 16 (s.toList.drop 2)).isSome = true

section Points
variable {num : NumberReading K} {long : LongWidth} {j v : Json K} {p : LoadedPoint K}

theorem parseRegisterType_shared {s : String} {rt : Protocol.RegisterType} (parsed : parseRegType s = .ok rt) :
    parseRegisterType s = .ok (simType rt) := by
  unfold parseRegType at parsed
  unfold parseRegisterType
  grind [simType]

theorem parseDataType_shared {s : String} {dt : DataType} (parsed : Protocol.parseDataType s = .ok dt) :
    parseDataType s = .ok dt := by
  unfold Protocol.parseDataType at parsed
  unfold parseDataType
  grind

theorem parseByteOrder_shared {s : String} {order : ByteOrder} (parsed : Protocol.parseByteOrder s = .ok order) :
    parseByteOrder s = .ok order := by
  unfold Protocol.parseByteOrder at parsed
  unfold parseByteOrder
  grind

/-- A value that is there is found. -/
theorem atKey_of_member {key : String} (found : j.member key = some v) : atKey j key = .ok v := by
  cases j with
  | object members => simp only [atKey, found]
  | _ => cases found

theorem ok_bind {A B : Type} (a : A) (f : A → Except String B) : ((.ok a : Except String A) >>= f) = f a := rfl

/-- A value that is there is the one that is read. -/
theorem value_of_member {A : Type} {key : String} {otherwise : A} {get : Json K → Except String A}
    (found : j.member key = some v) : j.value key otherwise get = get v := by
  cases j with
  | object members => simp only [Json.value, found]
  | _ => cases found

/-- A field that the application requires the simulator reads from the same value. -/
theorem value_shared {A : Type} {key : String} (otherwise : String) {parse parse' : String → Except String A} {a : A}
    (shared : ∀ s, parse s = .ok a → parse' s = .ok a)
    (read : (atKey j key >>= Json.getString >>= parse) = .ok a) :
    (j.value key otherwise Json.getString >>= parse') = .ok a := by
  obtain ⟨s, got, parsed⟩ := Json.bind_eq_ok.mp read
  obtain ⟨v, found, string⟩ := member_of_bind got
  rw [value_of_member found, string]
  exact shared s parsed

theorem readRegisterAddr_shared {a : UInt16} (read : parseRegisterAddr long v = .ok a)
    (plain : ∀ s, v = .string s → Numerals.hexPrefix s.toList = true →
      (Numerals.unsigned 16 (s.toList.drop 2)).isSome = true) : readRegisterAddr num long v = .ok a := by
  cases v with
  | integer i => exact read
  | string s =>
    rw [parseRegisterAddr] at read
    rw [readRegisterAddr, parseHexOrDec]
    split
    · rename_i announced
      obtain ⟨n, number⟩ := Option.isSome_iff_exists.mp (plain s rfl announced)
      rw [if_pos announced] at read
      rwa [← Numerals.stoul_prefixed announced number]
    · rename_i decimal
      rwa [if_neg decimal] at read
  | _ => cases read

/-- An element that the application reads the simulator reads as the same point. -/
theorem read_shared (read : LoadedPoint.read num long j = .ok p) (plain : PlainAddress j) :
    LoadedSimPoint.read num long j = .ok (sharedPoint p) := by
  unfold LoadedPoint.read at read
  simp only [Json.bind_eq_ok (b := p)] at read
  obtain ⟨id, point, slaveAddress, slave, link, -, reg, gotReg, data, gotData, order, gotOrder, addr, gotAddr, scale,
    gotScale, offset, gotOffset, interval, -, prio, -, enabled, gotEnabled, name, gotName, unit, gotUnit, made⟩ := read
  cases made
  obtain ⟨text, named, parsed⟩ := Json.bind_eq_ok.mp gotReg
  have registers : (atKey j "regType" >>= Json.getString >>= parseRegisterType) = .ok (simType reg) :=
    Json.bind_eq_ok.mpr ⟨text, named, parseRegisterType_shared parsed⟩
  have datas := value_shared "Float32" (fun s => parseDataType_shared) gotData
  have orders := value_shared "ABCD" (fun s => parseByteOrder_shared) gotOrder
  obtain ⟨v, found, address⟩ := Json.bind_eq_ok.mp gotAddr
  have addresses : (atKey j "registerAddr" >>= readRegisterAddr num long) = .ok addr := by
    apply Json.bind_eq_ok.mpr
    refine ⟨v, found, readRegisterAddr_shared address fun s same => ?_⟩
    subst same
    exact plain s (atKey_eq_ok found)
  rw [LoadedSimPoint.read, point, ok_bind, gotName, ok_bind, slave, ok_bind, registers, ok_bind, datas, ok_bind,
    orders, ok_bind, addresses, ok_bind, gotScale, ok_bind, gotOffset, ok_bind, gotUnit, ok_bind, gotEnabled]
  rfl

theorem onSlave_addPoint (t : LoadedSimTable K) (p : LoadedSimPoint K) (slave : UInt8) : (t.addPoint p).onSlave slave =
    t.onSlave slave ++ if p.slaveAddress = slave then [p] else [] := by
  simp only [LoadedSimTable.onSlave, LoadedSimTable.addPoint]
  by_cases own : p.slaveAddress = slave
  · subst own
    rw [Function.update_self, if_pos rfl]
  · rw [Function.update_of_ne (Ne.symm own), if_neg own, List.append_nil]

/-- A pass over elements that the application reads puts their points behind those of each slave. -/
theorem loadPoints_shared {elements : List (Json K)} {points : List (LoadedPoint K)} (t : LoadedSimTable K)
    (each : List.Forall₂ (fun j p => LoadedPoint.read num long j = .ok p) elements points)
    (plain : ∀ j ∈ elements, PlainAddress j) : ∃ t', t.loadPoints num long elements = .ok t' ∧
      ∀ slave, t'.onSlave slave =
        t.onSlave slave ++ (points.filter fun p => p.slaveAddress == slave).map sharedPoint := by
  induction each generalizing t with
  | nil => exact ⟨t, rfl, fun slave => (List.append_nil _).symm⟩
  | @cons j p elements points read each ih =>
    obtain ⟨here, others⟩ := List.forall_mem_cons.mp plain
    obtain ⟨t', loaded, listed⟩ := ih (t.addPoint (sharedPoint p)) others
    refine ⟨t', ?_, fun slave => ?_⟩
    · rw [LoadedSimTable.loadPoints, read_shared read here, ok_bind]
      exact loaded
    · rw [listed slave, onSlave_addPoint, List.append_assoc]
      congr 1
      change (if p.slaveAddress = slave then [sharedPoint p] else []) ++ _ = _
      by_cases own : p.slaveAddress = slave <;> simp [own]

end Points

section Tables
variable {num : NumberReading K} {long : LongWidth} {root : Json K}

/-- A version that the application accepts the simulator finds as well. -/
theorem schemaVersion_shared {sv : String} (read : Protocol.schemaVersion root = .ok sv) :
    LoadedSimTable.schemaVersion root = .ok sv := by
  unfold Protocol.schemaVersion at read
  split at read
  · rename_i version found
    obtain ⟨info, there, versioned⟩ := Option.bind_eq_some_iff.mp found
    rw [LoadedSimTable.schemaVersion, value_of_member there, ok_bind, value_of_member versioned]
    exact read
  · cases read

/-- Whatever the application accepts, the simulator accepts, and reads the same points in the same order. -/
theorem loadFromJsonFile_shared {table : PointTable K} (loaded : loadFromJsonFile num long (.document root) = .ok table)
    (plain : ∀ j ∈ (PointFile.document root).elements, PlainAddress j) : ∃ sim, ∃ points : List (LoadedPoint K),
    LoadedSimTable.loadFromJsonFile num long (.document root) = .ok sim ∧ table.Indexed points.reverse ∧
      ∀ slave, sim.onSlave slave = (points.filter fun p => p.slaveAddress == slave).map sharedPoint := by
  obtain ⟨points, each, here, -⟩ := exists_points loaded
  obtain ⟨sim, passed, listed⟩ := loadPoints_shared {} each plain
  refine ⟨sim, points, ?_, here, listed⟩
  rw [loadFromJsonFile, Json.bind_eq_ok] at loaded
  obtain ⟨sv, version, loaded⟩ := loaded
  rw [LoadedSimTable.loadFromJsonFile, schemaVersion_shared version, ok_bind]
  split at loaded
  · cases loaded
  · rename_i accepted
    rw [if_neg (by rwa [Bool.and_comm])]
    obtain ⟨elements, found, -⟩ := Json.bind_eq_ok.mp loaded
    unfold pointElements at found
    split at found
    · rename_i there
      have listed : (PointFile.document root).elements = LoadedSimTable.items (.array elements) := by
        cases found
        rw [PointFile.elements, there]
        rfl
      cases found
      rw [atKey_of_member there, ok_bind, ← listed]
      exact passed
    · cases found

/-- Both programs read the same table from one file: the simulator accepts what the application accepts, and
it has on each slave the application's points with all their fields. -/
theorem tables_agree {table : PointTable K} (loaded : loadFromJsonFile num long (.document root) = .ok table)
    (plain : ∀ j ∈ (PointFile.document root).elements, PlainAddress j) : ∃ sim,
    LoadedSimTable.loadFromJsonFile num long (.document root) = .ok sim ∧
      ∀ slave, (sim.onSlave slave).Perm ((table.allOnSlave slave).map sharedPoint) := by
  obtain ⟨sim, points, simulated, here, listed⟩ := loadFromJsonFile_shared loaded plain
  refine ⟨sim, simulated, ?_⟩
  intro slave
  rw [listed slave]
  have own := (here.perm_allOnSlave slave).symm
  rw [List.filter_reverse] at own
  exact ((List.reverse_perm _).symm.trans own).map sharedPoint

end Tables

def wordPoint (pointId slave : Int) (address : String) : Json Int :=
  .object [("pointId", .integer pointId), ("slaveAddress", .integer slave), ("regType", .string "HoldingRegister"),
    ("dataType", .string "Uint16"), ("byteOrder", .string "ABCD"), ("registerAddr", .string address)]

/-- Points of two slaves, out of the order of their addresses. -/
def mixedPoints : PointFile Int :=
  .document (.object [("meta", .object [("schemaVersion", .string "1.1")]),
    ("points", .array [wordPoint 1 2 "0x1002", wordPoint 2 1 "7", wordPoint 3 2 "0x1000"])])

theorem tables_agree_mixed : ∃ table sim,
    loadFromJsonFile wholeNumbers .bits64 mixedPoints = .ok table ∧
      LoadedSimTable.loadFromJsonFile wholeNumbers .bits64 mixedPoints = .ok sim ∧
      ∀ slave, (sim.onSlave slave).Perm ((table.allOnSlave slave).map sharedPoint) := by
  have plain : ∀ j ∈ mixedPoints.elements, PlainAddress j := by
    intro j member
    rcases List.mem_cons.mp member with rfl | member
    · intro s found announced
      cases found
      decide
    rcases List.mem_cons.mp member with rfl | member
    · intro s found announced
      cases found
      cases announced
    rw [List.mem_singleton.mp member]
    intro s found announced
    cases found
    decide
  obtain ⟨sim, read, same⟩ := @tables_agree _ wholeNumbers .bits64 _ _ rfl plain
  exact ⟨_, sim, rfl, read, same⟩

end EnerSentry.Sim
