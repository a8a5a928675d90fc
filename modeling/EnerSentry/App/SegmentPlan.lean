import Mathlib.Data.List.Perm.Basic
import EnerSentry.App.PollSegments
import EnerSentry.Protocol.PointTableIndexes

/-!
The whole plan of the poll driver. The enabled points are divided among the segments, each
segment reads exactly the addresses of its points, and the segments of one slave and type
follow each other upwards.
-/

namespace EnerSentry.App
open EnerSentry.Lib EnerSentry.Protocol

variable {K : Type*}

/-- A list divides into the parts of its keys. -/
theorem perm_flatMap_filter {α β : Type*} [BEq β] [LawfulBEq β] (key : α → β) {keys : List β} {xs : List α}
    (distinct : keys.Nodup) (covers : ∀ x ∈ xs, key x ∈ keys) :
    (keys.flatMap fun k => xs.filter fun x => key x == k).Perm xs := by
  induction keys generalizing xs with
  | nil =>
    rw [List.eq_nil_iff_forall_not_mem.mpr fun x member => List.not_mem_nil (covers x member)]
    exact List.Perm.refl []
  | cons k keys ih =>
    obtain ⟨fresh, distinct⟩ := List.nodup_cons.mp distinct
    have elsewhere : (keys.flatMap fun l => xs.filter fun x => key x == l) =
        keys.flatMap fun l => (xs.filter fun x => !(key x == k)).filter fun x => key x == l := by
      apply List.flatMap_congr
      intro l member
      have other : l ≠ k := fun same => fresh (same ▸ member)
      rw [List.filter_filter]
      apply List.filter_congr
      intro x _
      by_cases same : key x = l
      · simp [same, other]
      · simp [same]
    have rest : (keys.flatMap fun l => xs.filter fun x => key x == l).Perm
        (xs.filter fun x => !(key x == k)) := by
      rw [elsewhere]
      apply ih distinct
      intro x member
      obtain ⟨inside, apart⟩ := List.mem_filter.mp member
      have different : key x ≠ k := by simpa using apart
      exact (List.mem_cons.mp (covers x inside)).resolve_left different
    rw [List.flatMap_cons]
    exact (rest.append_left _).trans (List.filter_append_perm (fun x => key x == k) xs)

/-- Two segments of one slave and type that follow each other. -/
def Segment.Follows (a b : Segment K) : Prop :=
  a.slave = b.slave → a.rt = b.rt → a.startAddr.toNat < b.startAddr.toNat

/-- What the plan of a table does with its points. -/
structure Planned (points : List (PointRuntime K)) (segments : List (Segment K)) : Prop where
  /-- Together the segments hold the enabled points, each as often as the table does. -/
  assigned : (segments.flatMap (·.points)).Perm (points.filter (·.enabled))
  /-- Where no point is listed twice, an enabled point is in one segment and in no other. -/
  once : points.Nodup → ∀ pr ∈ points, pr.enabled = true → ∃ seg before after,
    segments = before ++ seg :: after ∧ pr ∈ seg.points ∧ ∀ other ∈ before ++ after, pr ∉ other.points
  reads : ∀ seg ∈ segments, ∀ pr ∈ seg.points, seg.Reads pr
  size : ∀ seg ∈ segments, 1 ≤ seg.qty.toNat ∧ seg.qty.toNat ≤ maxQty seg.rt
  /-- An address inside a segment is one of a point of the segment. -/
  tight : ∀ seg ∈ segments, ∀ address, seg.startAddr.toNat ≤ address →
    address < seg.startAddr.toNat + seg.qty.toNat →
    ∃ pr ∈ seg.points, pr.registerAddr.toNat ≤ address ∧ address < pr.registerAddr.toNat + pointWidth pr
  ascending : segments.Pairwise Segment.Follows

section Plan
variable {key : GroupKey} {points : List (PointRuntime K)} {seg : Segment K}
  {g : Sweep.Group (PointRuntime K)}

/-- The segments of one group follow each other. -/
theorem ascending_planGroup : (planGroup key (groupPoints points key)).Pairwise Segment.Follows := by
  rw [planGroup_eq_sweep, List.pairwise_map]
  have sorted : (groupPoints points key).Pairwise fun a b => firstAddr a ≤ firstAddr b := sorted_groupPoints
  have ascending := Sweep.ascending_sweep sorted (fun pr _ => firstAddr_lt_lastAddr pr)
    (fun pr _ => lastAddr_le key.2 pr)
  apply ascending.imp_of_mem
  intro a b first second above _ _
  rw [startAddr_segmentOf first, startAddr_segmentOf second]
  exact above

theorem key_of_planGroup (planned : seg ∈ planGroup key (groupPoints points key)) : (seg.slave, seg.rt) = key := by
  obtain ⟨g, -, rfl⟩ := swept_of_planned planned
  rfl

theorem nodup_groupKeys : (groupKeys points).Nodup :=
  (List.perm_insertionSort _ _).nodup_iff.mpr (List.nodup_dedup _)

theorem ascending_buildSegments : (buildSegments points).Pairwise Segment.Follows := by
  rw [buildSegments, List.pairwise_flatMap]
  constructor
  · intro key _
    exact ascending_planGroup
  · apply nodup_groupKeys.imp
    intro k l apart a first b second slave rt
    -- two groups have no slave and type in common
    exact absurd ((key_of_planGroup first).symm.trans
      ((Prod.ext slave rt : (a.slave, a.rt) = (b.slave, b.rt)).trans (key_of_planGroup second))) apart

/-- The segments of a group hold its points. -/
theorem points_planGroup : (planGroup key points).flatMap (·.points) = points := by
  calc (planGroup key points).flatMap (·.points)
      = (Sweep.sweep firstAddr lastAddr (maxQty key.2) points).flatMap Sweep.Group.items := by
        rw [planGroup_eq_sweep, List.flatMap_map]
        rfl
    _ = points := Sweep.items_sweep firstAddr lastAddr (maxQty key.2) points

theorem assigned_buildSegments :
    ((buildSegments points).flatMap (·.points)).Perm (points.filter (·.enabled)) := by
  have grouped : (buildSegments points).flatMap (·.points) =
      (groupKeys points).flatMap fun key => groupPoints points key := by
    rw [buildSegments, List.flatMap_assoc]
    apply List.flatMap_congr
    intro key _
    exact points_planGroup
  have unsorted : ∀ key, (groupPoints points key).Perm
      ((points.filter (·.enabled)).filter fun pr => groupKey pr == key) := by
    intro key
    rw [List.filter_filter, groupPoints]
    apply (List.perm_insertionSort _ _).trans
    apply List.Perm.of_eq
    apply List.filter_congr
    intro pr _
    exact Bool.and_comm _ _
  rw [grouped]
  apply (List.Perm.flatMap_left _ fun key _ => unsorted key).trans
  apply perm_flatMap_filter groupKey nodup_groupKeys
  intro pr member
  obtain ⟨inside, enabled⟩ := List.mem_filter.mp member
  exact mem_groupKeys inside enabled

/-- A point that is held once in all is held by one segment only. -/
theorem once_of_assigned {segments : List (Segment K)} {pr : PointRuntime K}
    (assigned : (segments.flatMap (·.points)).Perm (points.filter (·.enabled))) (distinct : points.Nodup)
    (member : pr ∈ points) (enabled : pr.enabled = true) :
    ∃ seg before after, segments = before ++ seg :: after ∧ pr ∈ seg.points ∧
      ∀ other ∈ before ++ after, pr ∉ other.points := by
  have held : pr ∈ segments.flatMap (·.points) := assigned.mem_iff.mpr (List.mem_filter.mpr ⟨member, enabled⟩)
  obtain ⟨seg, inside, holds⟩ := List.mem_flatMap.mp held
  obtain ⟨before, after, rfl⟩ := List.append_of_mem inside
  have single := assigned.nodup_iff.mpr (distinct.filter _)
  have apart := (List.nodup_flatMap.mp single).2
  obtain ⟨-, behind, ahead⟩ := List.pairwise_append.mp apart
  refine ⟨seg, before, after, rfl, holds, ?_⟩
  intro other elsewhere also
  rcases List.mem_append.mp elsewhere with earlier | later
  · exact ahead other earlier seg List.mem_cons_self also holds
  · exact List.rel_of_pairwise_cons behind later holds also

/-- Every table is planned: each enabled point in one segment of its slave and type, no
segment longer than a request may be, and none reading an address that is not a point's. -/
theorem planned_buildSegments (points : List (PointRuntime K)) : Planned points (buildSegments points) where
  assigned := assigned_buildSegments
  once distinct _ member enabled := once_of_assigned assigned_buildSegments distinct member enabled
  reads _ planned _ holds := (reads_buildSegments planned holds).2
  size := by
    intro seg planned
    obtain ⟨key, -, planned⟩ := List.mem_flatMap.mp planned
    obtain ⟨g, swept, rfl⟩ := swept_of_planned planned
    have wide := first_lt_last_groupPoints swept
    have bounded := (fits_groupPoints swept).bounded
    rw [qty_segmentOf swept]
    change 1 ≤ g.last - g.first ∧ g.last - g.first ≤ maxQty key.2
    omega
  tight := by
    intro seg planned address low high
    obtain ⟨key, -, planned⟩ := List.mem_flatMap.mp planned
    obtain ⟨g, swept, rfl⟩ := swept_of_planned planned
    have wide := first_lt_last_groupPoints swept
    rw [startAddr_segmentOf swept] at low high
    rw [qty_segmentOf swept] at high
    exact Sweep.covered_sweep swept address low (by omega)
  ascending := ascending_buildSegments

end Plan

/-- A table that was loaded lists no point twice, so each of its enabled points is read by one segment. -/
theorem once_of_loaded {K : Type} {num : NumberReading K} {long : LongWidth} {file : PointFile K} {table : PointTable K}
    (loaded : loadFromJsonFile num long file = .ok table) {p : LoadedPoint K} (member : p ∈ table.allPoints)
    (enabled : p.enabled = true) :
    ∃ seg before after, buildSegments (table.allPoints.map (·.toPointRuntime)) = before ++ seg :: after ∧
      p.toPointRuntime ∈ seg.points ∧ ∀ other ∈ before ++ after, p.toPointRuntime ∉ other.points := by
  obtain ⟨points, -, here, -⟩ := exists_points loaded
  have distinct : (table.allPoints.map (·.toPointRuntime)).Nodup := by
    apply List.Nodup.of_map PointRuntime.pointId
    rw [List.map_map]
    exact here.nodup_pointIds
  exact once_of_assigned assigned_buildSegments distinct (List.mem_map_of_mem member) enabled

end EnerSentry.App
