import Mathlib.Data.List.Dedup
import Mathlib.Data.List.Sort
import EnerSentry.Lib.Sweep
import EnerSentry.Protocol.PointTable

/-!
The plan of the poll driver: the enabled points of one slave and register type, in the
order of their addresses, are collected into read segments. Every point of a segment is of
its slave and type and lies inside it.
-/

namespace EnerSentry.App
open EnerSentry.Lib EnerSentry.Protocol

variable {K : Type*}

def isBitType (rt : RegisterType) : Bool := rt == .coil || rt == .discreteInput

def pointWidth (pr : PointRuntime K) : Nat :=
  if isBitType pr.regType then 1 else PointTable.registerCountFor pr.dataType

def maxRegistersPerRead : Nat := 125

def maxBitsPerRead : Nat := 2000

def maxQty (rt : RegisterType) : Nat := if isBitType rt then maxBitsPerRead else maxRegistersPerRead

/-- Consecutive addresses of one slave and register type, read by one request. -/
structure Segment (K : Type*) where
  slave : UInt8 := 0
  startAddr : UInt16 := 0
  qty : UInt16 := 0
  rt : RegisterType := .holdingRegister
  points : List (PointRuntime K) := []
  deriving DecidableEq

abbrev GroupKey := UInt8 × RegisterType

def keyRank (key : GroupKey) : Nat := 4 * key.1.toNat + key.2.rank

def groupKey (pr : PointRuntime K) : GroupKey := (pr.slaveAddress, pr.regType)

/-- By address, and by id where addresses are equal. -/
def pollsBefore (lhs rhs : PointRuntime K) : Prop :=
  if lhs.registerAddr ≠ rhs.registerAddr then lhs.registerAddr < rhs.registerAddr
  else lhs.pointId ≤ rhs.pointId

instance (lhs rhs : PointRuntime K) : Decidable (pollsBefore lhs rhs) :=
  inferInstanceAs (Decidable (ite _ _ _))

/-- The loop over the points of one group: the segments that are finished, the current one
without its quantity, and the end it reaches. -/
structure Planning (K : Type*) where
  segments : List (Segment K) := []
  current : Segment K := {}
  endExclusive : Nat := 0

namespace Planning

/-- The finished segments, with the current one unless it is still empty. -/
def flush (p : Planning K) : List (Segment K) :=
  if p.current.points.isEmpty then p.segments
  else
    p.segments ++
      [{ p.current with qty := UInt16.ofNat (p.endExclusive - p.current.startAddr.toNat) }]

/-- A current segment that starts with this point, behind the finished ones. -/
def openAt (key : GroupKey) (segments : List (Segment K)) (pr : PointRuntime K) : Planning K :=
  { segments := segments
    current := { slave := key.1, rt := key.2, startAddr := pr.registerAddr, points := [pr] }
    endExclusive := pr.registerAddr.toNat + pointWidth pr }

def addPoint (key : GroupKey) (p : Planning K) (pr : PointRuntime K) : Planning K :=
  let pointStart := pr.registerAddr.toNat
  let pointEnd := pointStart + pointWidth pr
  let split := p.current.points.isEmpty || p.endExclusive < pointStart ||
    maxQty key.2 < pointEnd - p.current.startAddr.toNat
  if split then openAt key p.flush pr
  else
    { p with
      current := { p.current with points := p.current.points ++ [pr] }
      endExclusive := max p.endExclusive pointEnd }

end Planning

def groupPoints (points : List (PointRuntime K)) (key : GroupKey) : List (PointRuntime K) :=
  (points.filter fun pr => pr.enabled && groupKey pr == key).insertionSort pollsBefore

def planGroup (key : GroupKey) (points : List (PointRuntime K)) : List (Segment K) :=
  (points.foldl (Planning.addPoint key) {}).flush

/-- The keys of the groups, in the order of their map. -/
def groupKeys (points : List (PointRuntime K)) : List GroupKey :=
  ((points.filter (·.enabled)).map groupKey).dedup.insertionSort fun a b => keyRank a ≤ keyRank b

def buildSegments (points : List (PointRuntime K)) : List (Segment K) :=
  (groupKeys points).flatMap fun key => planGroup key (groupPoints points key)

section Plan
variable {key : GroupKey} {pr : PointRuntime K} {points : List (PointRuntime K)} {seg : Segment K}
  {p : Planning K} {g : Sweep.Group (PointRuntime K)}

def firstAddr (pr : PointRuntime K) : Nat := pr.registerAddr.toNat

def lastAddr (pr : PointRuntime K) : Nat := pr.registerAddr.toNat + pointWidth pr

/-- The segment that reads one group of a sweep. -/
def segmentOf (key : GroupKey) (g : Sweep.Group (PointRuntime K)) : Segment K :=
  { slave := key.1, startAddr := UInt16.ofNat g.first, qty := UInt16.ofNat (g.last - g.first),
    rt := key.2, points := g.items }

/-- The loop has collected the group `g` in its current segment. -/
structure Planning.At (key : GroupKey) (p : Planning K) (g : Sweep.Group (PointRuntime K)) : Prop where
  current : p.current = { segmentOf key g with qty := 0 }
  stop : p.endExclusive = g.last
  address : g.first < 2 ^ 16
  nonempty : g.items ≠ []

theorem Planning.At.start (here : p.At key g) : p.current.startAddr.toNat = g.first := by
  rw [here.current]
  exact UInt16.toNat_ofNat_of_lt' here.address

theorem Planning.At.flush (here : p.At key g) : p.flush = p.segments ++ [segmentOf key g] := by
  have collected : p.current.points.isEmpty = false := by
    rw [here.current]
    exact List.isEmpty_eq_false_iff.mpr here.nonempty
  simp only [Planning.flush, collected, Bool.false_eq_true, ↓reduceIte, here.start, here.stop]
  rw [here.current]
  rfl

theorem at_openAt {segments : List (Segment K)} :
    (Planning.openAt key segments pr).At key (Sweep.single firstAddr lastAddr pr) := by
  refine ⟨?_, rfl, pr.registerAddr.toNat_lt, by simp [Sweep.single]⟩
  simp [Planning.openAt, segmentOf, Sweep.single, firstAddr]

/-- The loop takes the steps of the sweep. -/
theorem Planning.At.addPoint (here : p.At key g) (pr : PointRuntime K) :
    if g.splits firstAddr lastAddr (maxQty key.2) pr then
      (p.addPoint key pr).At key (Sweep.single firstAddr lastAddr pr) ∧
        (p.addPoint key pr).segments = p.segments ++ [segmentOf key g]
    else
      (p.addPoint key pr).At key (g.join lastAddr pr) ∧
        (p.addPoint key pr).segments = p.segments := by
  have collected : p.current.points.isEmpty = false := by
    rw [here.current]
    exact List.isEmpty_eq_false_iff.mpr here.nonempty
  have same : (p.current.points.isEmpty || decide (p.endExclusive < pr.registerAddr.toNat) ||
      decide (maxQty key.2 < pr.registerAddr.toNat + pointWidth pr - p.current.startAddr.toNat)) =
      g.splits firstAddr lastAddr (maxQty key.2) pr := by
    rw [collected, Bool.false_or, here.start, here.stop]
    rfl
  simp only [Planning.addPoint, same]
  split
  · exact ⟨at_openAt, here.flush⟩
  · refine ⟨⟨?_, ?_, here.address, ?_⟩, rfl⟩
    · simp only [here.current]
      rfl
    · simp only [here.stop]
      rfl
    · simp [Sweep.Group.join]

theorem flush_foldl (here : p.At key g) :
    (points.foldl (Planning.addPoint key) p).flush =
      p.segments ++ (Sweep.sweepFrom firstAddr lastAddr (maxQty key.2) g points).map (segmentOf key) := by
  induction points generalizing p g with
  | nil => exact here.flush
  | cons pr points ih =>
    have moved := here.addPoint pr
    rw [List.foldl_cons, Sweep.sweepFrom]
    split at moved
    · rename_i opens
      rw [ih moved.1, moved.2, if_pos opens, List.map_cons, List.append_assoc]
      rfl
    · rename_i joins
      rw [ih moved.1, moved.2, if_neg joins]

/-- The plan of a group is a sweep over its points. -/
theorem planGroup_eq_sweep (key : GroupKey) (points : List (PointRuntime K)) :
    planGroup key points =
      (Sweep.sweep firstAddr lastAddr (maxQty key.2) points).map (segmentOf key) := by
  cases points with
  | nil => rfl
  | cons pr points =>
    have first : Planning.addPoint key {} pr = Planning.openAt key [] pr := by
      simp [Planning.addPoint, Planning.flush]
    rw [planGroup, List.foldl_cons, first]
    exact flush_foldl at_openAt

theorem pollsBefore_addr {lhs rhs : PointRuntime K} (before : pollsBefore lhs rhs) :
    firstAddr lhs ≤ firstAddr rhs := by
  rw [pollsBefore] at before
  split at before
  · exact Nat.le_of_lt (UInt16.lt_iff_toNat_lt.mp before)
  · rename_i same
    exact Nat.le_of_eq (congrArg UInt16.toNat (not_not.mp same))

instance : Std.Total (pollsBefore (K := K)) where
  total lhs rhs := by
    by_cases same : lhs.registerAddr = rhs.registerAddr
    · simp only [pollsBefore, same, ne_eq, not_true_eq_false, ↓reduceIte]
      exact UInt32.le_total _ _
    · simp only [pollsBefore, same, Ne.symm same, ne_eq, not_false_eq_true, ↓reduceIte]
      have apart : lhs.registerAddr.toNat ≠ rhs.registerAddr.toNat := fun h => same (UInt16.toNat_inj.mp h)
      rw [UInt16.lt_iff_toNat_lt, UInt16.lt_iff_toNat_lt]
      omega

instance : IsTrans (PointRuntime K) pollsBefore where
  trans a b c := by
    simp only [pollsBefore, ne_eq, ite_not, UInt16.lt_iff_toNat_lt, UInt32.le_iff_toNat_le,
      ← UInt16.toNat_inj]
    split <;> split <;> split <;> omega

theorem sorted_groupPoints : (groupPoints points key).Pairwise fun a b => firstAddr a ≤ firstAddr b :=
  (List.pairwise_insertionSort pollsBefore _).imp pollsBefore_addr

theorem mem_groupPoints :
    pr ∈ groupPoints points key ↔ pr ∈ points ∧ pr.enabled = true ∧ groupKey pr = key := by
  simp [groupPoints, List.mem_insertionSort]

theorem pointWidth_pos (pr : PointRuntime K) : 0 < pointWidth pr := by
  rw [pointWidth]
  split
  · decide
  · cases pr.dataType <;> decide

theorem pointWidth_le (pr : PointRuntime K) : pointWidth pr ≤ 4 := by
  rw [pointWidth]
  split
  · decide
  · cases pr.dataType <;> decide

theorem maxQty_bounds (rt : RegisterType) : 4 ≤ maxQty rt ∧ maxQty rt < 2 ^ 16 := by
  cases rt <;> decide

theorem firstAddr_lt_lastAddr (pr : PointRuntime K) : firstAddr pr < lastAddr pr :=
  Nat.lt_add_of_pos_right (pointWidth_pos pr)

theorem lastAddr_le (rt : RegisterType) (pr : PointRuntime K) : lastAddr pr ≤ firstAddr pr + maxQty rt :=
  Nat.add_le_add_left ((pointWidth_le pr).trans (maxQty_bounds rt).1) _

/-- A segment of the plan is a group of the sweep over the points of its key. -/
theorem swept_of_planned (planned : seg ∈ planGroup key (groupPoints points key)) :
    ∃ g ∈ Sweep.sweep firstAddr lastAddr (maxQty key.2) (groupPoints points key), seg = segmentOf key g := by
  rw [planGroup_eq_sweep] at planned
  obtain ⟨g, swept, rfl⟩ := List.mem_map.mp planned
  exact ⟨g, swept, rfl⟩

section Swept
variable (swept : g ∈ Sweep.sweep firstAddr lastAddr (maxQty key.2) (groupPoints points key))

include swept

theorem fits_groupPoints : g.Fits firstAddr lastAddr (maxQty key.2) :=
  Sweep.fits_sweep sorted_groupPoints (fun pr _ => lastAddr_le key.2 pr) swept

theorem first_lt_last_groupPoints : g.first < g.last :=
  Sweep.first_lt_last_sweep (fun pr _ => firstAddr_lt_lastAddr pr) swept

/-- The start of a group is a register address. -/
theorem startAddr_segmentOf : (segmentOf key g).startAddr.toNat = g.first := by
  obtain ⟨pr, holds⟩ := List.exists_mem_of_ne_nil g.items (Sweep.items_ne_nil_sweep swept)
  have low := ((fits_groupPoints swept).within pr holds).1
  exact UInt16.toNat_ofNat_of_lt' (Nat.lt_of_le_of_lt low pr.registerAddr.toNat_lt)

theorem qty_segmentOf : (segmentOf key g).qty.toNat = g.last - g.first := by
  have bounded := (fits_groupPoints swept).bounded
  have limit := (maxQty_bounds key.2).2
  apply UInt16.toNat_ofNat_of_lt'
  calc g.last - g.first ≤ maxQty key.2 := by omega
    _ < UInt16.size := limit

end Swept

/-- A segment reads a point: same slave, same type, and all of its addresses. -/
structure Segment.Reads (seg : Segment K) (pr : PointRuntime K) : Prop where
  enabled : pr.enabled = true
  slave : pr.slaveAddress = seg.slave
  regType : pr.regType = seg.rt
  first : seg.startAddr.toNat ≤ pr.registerAddr.toNat
  last : pr.registerAddr.toNat + pointWidth pr ≤ seg.startAddr.toNat + seg.qty.toNat

/-- Every segment of the plan reads the points it holds, and these are points of the table. -/
theorem reads_buildSegments (planned : seg ∈ buildSegments points) (holds : pr ∈ seg.points) :
    pr ∈ points ∧ seg.Reads pr := by
  obtain ⟨key, -, planned⟩ := List.mem_flatMap.mp planned
  obtain ⟨g, swept, rfl⟩ := swept_of_planned planned
  have grouped : pr ∈ groupPoints points key := by
    rw [← Sweep.items_sweep firstAddr lastAddr (maxQty key.2) (groupPoints points key)]
    exact List.mem_flatMap.mpr ⟨g, swept, holds⟩
  obtain ⟨member, enabled, rfl⟩ := mem_groupPoints.mp grouped
  obtain ⟨low, high⟩ := (fits_groupPoints swept).within pr holds
  have wide := first_lt_last_groupPoints swept
  refine ⟨member, enabled, rfl, rfl, ?_, ?_⟩
  · rw [startAddr_segmentOf swept]
    exact low
  · rw [startAddr_segmentOf swept, qty_segmentOf swept]
    change lastAddr pr ≤ g.first + (g.last - g.first)
    omega

theorem mem_groupKeys {pr : PointRuntime K} (member : pr ∈ points) (enabled : pr.enabled = true) :
    groupKey pr ∈ groupKeys points := by
  rw [groupKeys, List.mem_insertionSort, List.mem_dedup]
  exact List.mem_map_of_mem (List.mem_filter.mpr ⟨member, enabled⟩)

/-- Every enabled point is in a segment of the plan. -/
theorem planned_of_enabled (member : pr ∈ points) (enabled : pr.enabled = true) :
    ∃ seg ∈ buildSegments points, pr ∈ seg.points := by
  have key := mem_groupKeys member enabled
  have grouped : pr ∈ groupPoints points (groupKey pr) := mem_groupPoints.mpr ⟨member, enabled, rfl⟩
  rw [← Sweep.items_sweep firstAddr lastAddr (maxQty (groupKey pr).2) (groupPoints points (groupKey pr))] at grouped
  obtain ⟨g, swept, holds⟩ := List.mem_flatMap.mp grouped
  refine ⟨segmentOf (groupKey pr) g, List.mem_flatMap.mpr ⟨_, key, ?_⟩, holds⟩
  rw [planGroup_eq_sweep]
  exact List.mem_map_of_mem swept

/-- No segment of the plan is empty. -/
theorem points_buildSegments (planned : seg ∈ buildSegments points) : ∃ pr, pr ∈ seg.points := by
  obtain ⟨key, -, planned⟩ := List.mem_flatMap.mp planned
  obtain ⟨g, swept, rfl⟩ := swept_of_planned planned
  exact List.exists_mem_of_ne_nil g.items (Sweep.items_ne_nil_sweep swept)

end Plan
end EnerSentry.App
