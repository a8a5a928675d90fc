import Mathlib.Data.List.AList
import Mathlib.Data.List.Sort
import EnerSentry.Lib.Numerals
import EnerSentry.Protocol.PointTable
import EnerSentry.Sim.Json

/-!
The point table as it is loaded from its file. The points of the document go into three
indexes; an id or an address that comes twice ends the loading. The indexes agree with each
other. The addresses are those of the document as long as these fit their machine words.
-/

namespace EnerSentry.Protocol
open EnerSentry.Lib EnerSentry.Sim

variable {K : Type}

/-- How the numbers of a document become machine numbers. -/
structure NumberReading (K : Type) where
  ofInt : Int → K
  truncate : K → Int
  toFloat : K → K

/-- The width of the machine's `unsigned long`. -/
inductive LongWidth where
  | bits32 | bits64
  deriving DecidableEq, Repr

def LongWidth.bits : LongWidth → Nat
  | .bits32 => 32
  | .bits64 => 64

namespace JsonValue

def atKey (j : Json K) (key : String) : Except String (Json K) :=
  match j with
  | .object _ =>
      match j.member key with
      | some v => .ok v
      | none => .error ("[json.exception.out_of_range.403] key '" ++ key ++ "' not found")
  | _ => .error ("[json.exception.type_error.304] cannot use at() with " ++ j.typeName)

/-- A number of a narrow type, also read from a truth value. -/
def getNarrow {A : Type} (ofInt : Int → A) (ofReal : K → A) : Json K → Except String A
  | .integer i => .ok (ofInt i)
  | .float x => .ok (ofReal x)
  | .boolean b => .ok (ofInt (if b then 1 else 0))
  | j => Json.mismatch "number" j

def getBool : Json K → Except String Bool
  | .boolean b => .ok b
  | j => Json.mismatch "boolean" j

variable (num : NumberReading K)

def getUInt8 : Json K → Except String UInt8 := getNarrow UInt8.ofInt fun x => UInt8.ofInt (num.truncate x)

def getUInt32 : Json K → Except String UInt32 := getNarrow UInt32.ofInt fun x => UInt32.ofInt (num.truncate x)

def getFloat : Json K → Except String K := getNarrow num.ofInt num.toFloat

end JsonValue

open JsonValue

def parseRegType (s : String) : Except String RegisterType :=
  if s == "Coil" then .ok .coil
  else if s == "DiscreteInput" then .ok .discreteInput
  else if s == "HoldingRegister" then .ok .holdingRegister
  else if s == "InputRegister" then .ok .inputRegister
  else .error ("PointTable: unknown regType='" ++ s ++ "'")

def parseDataType (s : String) : Except String DataType :=
  if s == "Bool" then .ok .bool
  else if s == "Int16" then .ok .int16
  else if s == "Uint16" then .ok .uint16
  else if s == "Int32" then .ok .int32
  else if s == "Float32" then .ok .float32
  else if s == "Float64" then .ok .float64
  else .error ("PointTable: unknown dataType='" ++ s ++ "'")

def parseByteOrder (s : String) : Except String ByteOrder :=
  if s == "ABCD" then .ok .abcd
  else if s == "BADC" then .ok .badc
  else if s == "CDAB" then .ok .cdab
  else if s == "DCBA" then .ok .dcba
  else .error ("PointTable: unknown byteOrder='" ++ s ++ "'")

def parseRegisterAddr (long : LongWidth) : Json K → Except String UInt16
  | .integer i => .ok (UInt16.ofInt i)
  | .string s =>
      (Numerals.stoul long.bits (if Numerals.hexPrefix s.toList then 16 else 10) s.toList).map UInt16.ofNat
  | _ => .error "PointTable: registerAddr must be integer or hex string"

/-- A point with the fields that only the table itself hands out. -/
structure LoadedPoint (K : Type) extends PointRuntime K where
  linkId : UInt32 := 0
  pollIntervalMs : UInt32 := 1000
  priority : UInt8 := 1
  pointName : String := ""
  unit : String := ""
  deriving DecidableEq

def LoadedPoint.read (num : NumberReading K) (long : LongWidth) (pj : Json K) : Except String (LoadedPoint K) := do
  let pointId ← atKey pj "pointId" >>= getUInt32 num
  let slaveAddress ← atKey pj "slaveAddress" >>= getUInt8 num
  let linkId ← pj.value "linkId" slaveAddress.toUInt32 (getUInt32 num)
  let regType ← atKey pj "regType" >>= Json.getString >>= parseRegType
  let dataType ← atKey pj "dataType" >>= Json.getString >>= parseDataType
  let byteOrder ← atKey pj "byteOrder" >>= Json.getString >>= parseByteOrder
  let registerAddr ← atKey pj "registerAddr" >>= parseRegisterAddr long
  let scaleFactor ← pj.value "scaleFactor" (num.ofInt 1) (getFloat num)
  let offset ← pj.value "offset" (num.ofInt 0) (getFloat num)
  let pollIntervalMs ← pj.value "pollIntervalMs" 1000 (getUInt32 num)
  let priority ← pj.value "priority" 1 (getUInt8 num)
  let enabled ← pj.value "enabled" true getBool
  let pointName ← pj.value "pointName" "" Json.getString
  let unit ← pj.value "unit" "" Json.getString
  return { pointId, slaveAddress, linkId, regType, dataType, byteOrder, registerAddr, scaleFactor, offset,
           pollIntervalMs, priority, enabled, pointName, unit }

/-- The points by their id, the ids by slave and address, and the ids of each slave. -/
structure PointTable (K : Type) where
  byPointId : AList (fun _ : UInt32 => LoadedPoint K) := ∅
  byAddr : AList (fun _ : UInt64 => UInt32) := ∅
  bySlave : UInt8 → List UInt32 := fun _ => []

namespace PointTable

def kAddrKey (slave : UInt8) (addr : UInt16) : UInt64 := slave.toUInt64 <<< 32 ||| addr.toUInt64

section Queries
variable (t : PointTable K)

def pointIdOf (pointId : UInt32) : Option (LoadedPoint K) := t.byPointId.lookup pointId

def resolve (slaveAddress : UInt8) (registerAddr : UInt16) : Option (LoadedPoint K) :=
  (t.byAddr.lookup (kAddrKey slaveAddress registerAddr)).bind t.pointIdOf

def allOnSlave (slaveAddress : UInt8) : List (LoadedPoint K) :=
  (t.bySlave slaveAddress).filterMap t.pointIdOf

/-- All points, in one of the orders their map may have. -/
def allPoints : List (LoadedPoint K) := t.byPointId.entries.map (·.2)

end Queries

def addPoint (t : PointTable K) (pr : LoadedPoint K) : Except String (PointTable K) :=
  if pr.pointId ∈ t.byPointId then .error ("PointTable: duplicate pointId=" ++ toString pr.pointId.toNat)
  else if kAddrKey pr.slaveAddress pr.registerAddr ∈ t.byAddr then
    .error ("PointTable: duplicate (slave,addr)=(" ++ toString pr.slaveAddress.toNat ++ "," ++
      toString pr.registerAddr.toNat ++ ") for pointId=" ++ toString pr.pointId.toNat)
  else
    .ok { byPointId := t.byPointId.insert pr.pointId pr
          byAddr := t.byAddr.insert (kAddrKey pr.slaveAddress pr.registerAddr) pr.pointId
          bySlave := Function.update t.bySlave pr.slaveAddress (t.bySlave pr.slaveAddress ++ [pr.pointId]) }

def loadPoints (num : NumberReading K) (long : LongWidth) (t : PointTable K) :
    List (Json K) → Except String (PointTable K)
  | [] => .ok t
  | pj :: rest => do
      let pr ← LoadedPoint.read num long pj
      let t ← t.addPoint pr
      loadPoints num long t rest

/-- The address of a point in an index; every id of an index has its point. -/
def addrOf (t : PointTable K) (pointId : UInt32) : UInt16 :=
  ((t.pointIdOf pointId).map (·.registerAddr)).getD 0

def sortSlaves (t : PointTable K) : PointTable K :=
  { t with bySlave := fun slave => (t.bySlave slave).insertionSort fun a b => t.addrOf a ≤ t.addrOf b }

end PointTable

/-- What is found under the path of a table. -/
inductive PointFile (K : Type) where
  | unreadable (display : String)
  | malformed (display what : String)
  | document (root : Json K)

def schemaVersion (root : Json K) : Except String String :=
  match (root.member "meta").bind (·.member "schemaVersion") with
  | some version => version.getString
  | none => .error "PointTable: JSON missing meta.schemaVersion"

def pointElements (root : Json K) : Except String (List (Json K)) :=
  match root.member "points" with
  | some (.array elements) => .ok elements
  | _ => .error "PointTable: JSON missing 'points' array"

def loadFromJsonFile (num : NumberReading K) (long : LongWidth) : PointFile K → Except String (PointTable K)
  | .unreadable display => .error ("PointTable: cannot open file '" ++ display ++ "'")
  | .malformed display what => .error ("PointTable: JSON parse error in '" ++ display ++ "': " ++ what)
  | .document root => do
      let sv ← schemaVersion root
      if sv != "1.1" && sv != "1.0" then
        .error ("PointTable: unsupported schemaVersion='" ++ sv ++ "' (expected 1.0 or 1.1)")
      else do
        let elements ← pointElements root
        let t ← PointTable.loadPoints num long {} elements
        return t.sortSlaves

end EnerSentry.Protocol
