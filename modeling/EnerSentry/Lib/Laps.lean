import Mathlib.Data.List.Basic
import Mathlib.Data.List.Infix
import Mathlib.Data.List.Nodup
import Mathlib.Data.List.TakeWhile
import Mathlib.Order.Lattice

/-!
Range queries over a cyclic array. A reader that walks the cells in cell order and wraps
sees whole laps; a query that skips what lies below a range and stops at the first thing
above it is right on a sorted list, and the last result says exactly when it is still
right on laps of a rotated one.
-/

namespace EnerSentry.Lib.Laps

variable {T K : Type*}

/-- Reading cell `i % c` for consecutive `i` reads whole laps and a last piece. -/
theorem map_range_mod (f : Nat → T) {c : Nat} (q r : Nat) :
    (List.range (q * c + r)).map (fun i => f (i % c)) =
      (List.replicate q ((List.range c).map f)).flatten ++ (List.range r).map (fun i => f (i % c)) := by
  induction q with
  | zero => simp
  | succ q ih =>
    have split : (q + 1) * c + r = c + (q * c + r) := by rw [Nat.succ_mul]; omega
    have first : (List.range c).map (fun i => f (i % c)) = (List.range c).map f := by
      apply List.map_congr_left
      intro i member
      rw [Nat.mod_eq_of_lt (List.mem_range.mp member)]
    have later : ((fun i => f (i % c)) ∘ fun i => c + i) = fun i => f (i % c) := by
      funext i
      simp
    rw [split, List.range_add, List.map_append, List.map_map, first, later, ih,
      List.replicate_succ, List.flatten_cons, List.append_assoc]

/-- A list put behind others starts as before if and only if it runs through them over and over. -/
theorem take_append_self_iff {front back : List T} :
    (front ++ back).take back.length = back ↔
      ∀ i < back.length, front ≠ [] → back[i]? = front[i % front.length]? := by
  constructor
  · intro same i inside some_
    have positive := List.length_pos_iff.mpr some_
    induction i using Nat.strongRecOn with
    | ind i ih =>
      have entry : back[i]? = (front ++ back)[i]? := by
        rw [← List.getElem?_take_of_lt inside (l := front ++ back), same]
      by_cases early : i < front.length
      · rw [entry, List.getElem?_append_left early, Nat.mod_eq_of_lt early]
      · rw [Nat.not_lt] at early
        rw [entry, List.getElem?_append_right early, ih (i - front.length) (by omega) (by omega),
          Nat.mod_eq_sub_mod early]
  · intro repeats
    apply List.ext_getElem?
    intro i
    by_cases inside : i < back.length
    · rw [List.getElem?_take_of_lt inside]
      by_cases early : i < front.length
      · have some_ : front ≠ [] := List.ne_nil_of_length_pos (by omega)
        rw [List.getElem?_append_left early, repeats i inside some_, Nat.mod_eq_of_lt early]
      · rw [Nat.not_lt] at early
        rw [List.getElem?_append_right early]
        by_cases none : front = []
        · rw [none, List.length_nil, Nat.sub_zero]
        · have positive := List.length_pos_iff.mpr none
          rw [repeats i inside none, repeats (i - front.length) (by omega) none, Nat.mod_eq_sub_mod early]
    · rw [Nat.not_lt] at inside
      rw [List.getElem?_eq_none inside, List.getElem?_eq_none]
      rw [List.length_take]
      omega

/-- A filtered rotation of a list that starts as the list does. -/
theorem take_filter_rotated {older newer : List T} {keep : T → Bool} {m : Nat}
    (inside : m ≤ (older ++ newer).length) (kept : ∀ x ∈ (older ++ newer).take m, keep x = true) :
    ((newer ++ older).filter keep).take m =
      (newer.filter keep ++ (older ++ newer).take m).take ((older ++ newer).take m).length := by
  have size : ((older ++ newer).take m).length = m := by
    rw [List.length_take, Nat.min_eq_left inside]
  rw [List.length_append] at inside
  have short : m - (newer.filter keep).length ≤ older.length := by
    by_cases early : m ≤ older.length
    · omega
    · have front : (newer.take (m - older.length)).filter keep = newer.take (m - older.length) := by
        apply List.filter_eq_self.mpr
        intro x member
        apply kept
        rw [List.take_append]
        exact List.mem_append_right _ member
      have part := ((List.take_sublist (m - older.length) newer).filter keep).length_le
      rw [front, List.length_take] at part
      omega
  have front : (older.take (m - (newer.filter keep).length)).filter keep =
      older.take (m - (newer.filter keep).length) := by
    apply List.filter_eq_self.mpr
    intro x member
    apply kept
    rw [List.take_append]
    apply List.mem_append_left
    exact (List.take_sublist_take_left (Nat.sub_le m _)).subset member
  have first : (older.filter keep).take (m - (newer.filter keep).length) =
      older.take (m - (newer.filter keep).length) := by
    calc
      _ = ((older.take (m - (newer.filter keep).length)).filter keep ++
            (older.drop (m - (newer.filter keep).length)).filter keep).take
          (m - (newer.filter keep).length) := by rw [← List.filter_append, List.take_append_drop]
      _ = _ := by
        rw [front, List.take_append_of_le_length, List.take_of_length_le]
        · rw [List.length_take]
          omega
        · rw [List.length_take]
          omega
  rw [size, List.filter_append, List.take_append, List.take_append, first, List.take_take,
    Nat.min_eq_left (Nat.sub_le m _), List.take_append_of_le_length short]

/-- A filtered rotation of a list starts as the list does if and only if nothing there is filtered
out and it runs through what is put in front over and over. -/
theorem take_filter_rotated_iff {older newer : List T} (keep : T → Bool) {m : Nat}
    (inside : m ≤ (older ++ newer).length) :
    ((newer ++ older).filter keep).take m = (older ++ newer).take m ↔
      (∀ x ∈ (older ++ newer).take m, keep x = true) ∧
        ∀ i < ((older ++ newer).take m).length, newer.filter keep ≠ [] →
          ((older ++ newer).take m)[i]? = (newer.filter keep)[i % (newer.filter keep).length]? := by
  constructor
  · intro same
    have kept : ∀ x ∈ (older ++ newer).take m, keep x = true := by
      intro x member
      rw [← same] at member
      exact (List.mem_filter.mp (List.mem_of_mem_take member)).2
    rw [take_filter_rotated inside kept] at same
    exact ⟨kept, take_append_self_iff.mp same⟩
  · rintro ⟨kept, repeats⟩
    rw [take_filter_rotated inside kept]
    exact take_append_self_iff.mpr repeats

section Query
variable [LinearOrder K] (key : T → K) (s e : K)

/-- What lies in the range, in list order. -/
def within (l : List T) : List T := l.filter (fun x => s ≤ key x ∧ key x ≤ e)

/-- What a reader collects that stops at the first element above the range. -/
def scanned (l : List T) : List T := (l.takeWhile (fun x => key x ≤ e)).filter (fun x => s ≤ key x)

variable {key s e} {l rest : List T}

@[simp] theorem within_nil : within key s e [] = [] := rfl

@[simp] theorem within_append : within key s e (l ++ rest) = within key s e l ++ within key s e rest :=
  List.filter_append ..

theorem mem_within {x : T} : x ∈ within key s e l ↔ x ∈ l ∧ s ≤ key x ∧ key x ≤ e := by
  simp [within]

theorem scanned_cons {x : T} : scanned key s e (x :: l) =
    if key x ≤ e then (if s ≤ key x then x :: scanned key s e l else scanned key s e l) else [] := by
  by_cases below : key x ≤ e
  · by_cases inside : s ≤ key x <;> simp [scanned, below, inside]
  · simp [scanned, below]

/-- Nothing above the range: the reader goes through. -/
theorem scanned_append (below : ∀ x ∈ l, key x ≤ e) :
    scanned key s e (l ++ rest) = within key s e l ++ scanned key s e rest := by
  have whole : l.takeWhile (fun x => key x ≤ e) = l := by
    rw [List.takeWhile_eq_self_iff]
    simpa using below
  rw [scanned, List.takeWhile_append, whole, if_pos rfl, List.filter_append]
  congr 1
  apply List.filter_congr
  intro x member
  simp [below x member]

/-- Something above the range: the reader never sees what comes after. -/
theorem scanned_append_stops (above : ∃ x ∈ l, e < key x) :
    scanned key s e (l ++ rest) = scanned key s e l := by
  obtain ⟨x, member, beyond⟩ := above
  have part : (l.takeWhile (fun x => key x ≤ e)).length ≠ l.length := by
    intro same
    have whole := (List.takeWhile_prefix (l := l) (fun x => key x ≤ e)).eq_of_length same
    have kept := List.takeWhile_eq_self_iff.mp whole x member
    exact absurd beyond (not_lt.mpr (by simpa using kept))
  rw [scanned, List.takeWhile_append, if_neg part, scanned]

theorem scanned_sorted (sorted : l.Pairwise (fun x y => key x ≤ key y)) :
    scanned key s e l = within key s e l := by
  induction l with
  | nil => rfl
  | cons x l ih =>
    obtain ⟨least, sorted⟩ := List.pairwise_cons.mp sorted
    by_cases below : key x ≤ e
    · have alone : ∀ y ∈ [x], key y ≤ e := by simpa using below
      rw [← List.singleton_append, scanned_append alone, ih sorted, ← within_append]
    · have none : within key s e (x :: l) = [] := by
        rw [within, List.filter_eq_nil_iff]
        intro y member
        have later : key x ≤ key y := by
          rcases List.mem_cons.mp member with rfl | behind
          · exact le_rfl
          · exact least y behind
        simp [not_le.mpr ((not_le.mp below).trans_le later)]
      rw [none, scanned, List.takeWhile_cons_of_neg (by simpa using below), List.filter_nil]

/-- Lists with different heads differ in every nonempty cut. -/
theorem take_ne {m : Nat} {xs ys : List T} (nonempty : m ≠ 0) (different : xs.head? ≠ ys.head?) :
    xs.take m ≠ ys.take m := by
  intro same
  have heads := congrArg List.head? same
  simp only [List.head?_take, if_neg nonempty] at heads
  exact different heads

theorem take_append_eq_iff {m : Nat} {xs ys : List T} (more : ys ≠ []) :
    (xs ++ ys).take m = xs.take m ↔ m ≤ xs.length := by
  constructor
  · intro same
    have lengths := congrArg List.length same
    have positive := List.length_pos_iff.mpr more
    simp only [List.length_take, List.length_append] at lengths
    omega
  · intro enough
    rw [List.take_append_of_le_length enough]

variable {newer older : List T} {m : Nat}

/-- The older matches come first in order, so a cut that starts with newer ones is wrong. -/
theorem rotated_ne (distinct : (older ++ newer).Nodup) (nonempty : m ≠ 0)
    (front : within key s e older ≠ []) {seen : List T} (early : ∀ x ∈ seen.head?, x ∈ newer) :
    seen.take m ≠ (within key s e (older ++ newer)).take m := by
  apply take_ne nonempty
  obtain ⟨x, tail, matched⟩ := List.exists_cons_of_ne_nil front
  have member : x ∈ older := (mem_within.mp (matched ▸ List.mem_cons_self)).1
  rw [within_append, matched, List.cons_append, List.head?_cons]
  intro same
  have late : x ∈ newer := early x same
  exact (List.nodup_append.mp distinct).2.2 x member x late rfl

/-- On a cycle that goes beyond the range the reader stops within the first lap. -/
theorem scanned_stopped_iff (sorted : (older ++ newer).Pairwise (fun x y => key x ≤ key y))
    (distinct : (older ++ newer).Nodup) (nonempty : m ≠ 0) (above : ∃ x ∈ older ++ newer, e < key x) :
    (scanned key s e (newer ++ (older ++ rest))).take m = (within key s e (older ++ newer)).take m ↔
      newer = [] ∨ within key s e older = [] := by
  obtain ⟨sortedOlder, sortedNewer, across⟩ := List.pairwise_append.mp sorted
  obtain ⟨x, member, beyond⟩ := above
  by_cases empty : newer = []
  · subst empty
    rw [List.append_nil] at member
    rw [List.nil_append, scanned_append_stops ⟨x, member, beyond⟩, scanned_sorted sortedOlder,
      List.append_nil]
    simp
  · have late : ∃ y ∈ newer, e < key y := by
      rcases List.mem_append.mp member with early | late
      · obtain ⟨y, held⟩ := List.exists_mem_of_ne_nil _ empty
        exact ⟨y, held, beyond.trans_le (across x early y held)⟩
      · exact ⟨x, late, beyond⟩
    rw [scanned_append_stops late, scanned_sorted sortedNewer]
    by_cases none : within key s e older = []
    · simp [none]
    · have early : ∀ y ∈ (within key s e newer).head?, y ∈ newer :=
        fun y held => (mem_within.mp (List.mem_of_mem_head? held)).1
      have wrong := rotated_ne distinct nonempty none early
      exact iff_of_false wrong (by simp [none, empty])

theorem scanned_unstopped (below : ∀ x ∈ older ++ newer, key x ≤ e)
    (inside : ∀ x ∈ rest, x ∈ older ++ newer) :
    scanned key s e (newer ++ (older ++ rest)) =
      within key s e newer ++ within key s e older ++ within key s e rest := by
  have last : scanned key s e (rest ++ []) = within key s e rest ++ scanned key s e [] :=
    scanned_append (fun x member => below x (inside x member))
  have nothing : scanned key s e ([] : List T) = [] := rfl
  rw [List.append_nil, nothing, List.append_nil] at last
  rw [scanned_append (fun x member => below x (List.mem_append_right _ member)),
    scanned_append (fun x member => below x (List.mem_append_left _ member)), last, List.append_assoc]

/-- A lap that finds something is not the last to find it. -/
theorem within_again (aligned : newer = [] ∨ within key s e older = [])
    (found : within key s e (older ++ newer) ≠ []) (againNewer : ∀ x ∈ newer, x ∈ rest)
    (againOlder : newer = [] → ∀ x ∈ older, x ∈ rest) : within key s e rest ≠ [] := by
  obtain ⟨x, matched⟩ := List.exists_mem_of_ne_nil _ found
  obtain ⟨member, range⟩ := mem_within.mp matched
  have again : x ∈ rest := by
    rcases List.mem_append.mp member with early | late
    · rcases aligned with empty | none
      · exact againOlder empty x early
      · exact absurd (mem_within.mpr ⟨early, range⟩) (by simp [none])
    · exact againNewer x late
  exact List.ne_nil_of_mem (mem_within.mpr ⟨again, range⟩)

/-- Where both parts of a sorted cycle lie in the range, the reader meets a newer item first. -/
theorem head_newer (sorted : (older ++ newer).Pairwise (fun x y => key x ≤ key y))
    (below : ∀ x ∈ older ++ newer, key x ≤ e) (nonempty : newer ≠ []) (front : within key s e older ≠ []) :
    ∀ w ∈ (within key s e newer ++ within key s e older ++ within key s e rest).head?, w ∈ newer := by
  obtain ⟨sortedOlder, sortedNewer, across⟩ := List.pairwise_append.mp sorted
  obtain ⟨x, matched⟩ := List.exists_mem_of_ne_nil _ front
  obtain ⟨y, newest⟩ := List.exists_mem_of_ne_nil _ nonempty
  obtain ⟨early, least, most⟩ := mem_within.mp matched
  have late : y ∈ within key s e newer := mem_within.mpr
    ⟨newest, least.trans (across x early y newest), below y (List.mem_append_right _ newest)⟩
  obtain ⟨z, tail, shape⟩ := List.exists_cons_of_ne_nil (List.ne_nil_of_mem late)
  have held : z ∈ newer := (mem_within.mp (shape ▸ List.mem_cons_self)).1
  intro w first
  rw [shape, List.cons_append, List.cons_append, List.head?_cons, Option.mem_some] at first
  exact first ▸ held

/-- On a cycle that stays below the range's end the reader goes round and round. -/
theorem scanned_unstopped_iff (sorted : (older ++ newer).Pairwise (fun x y => key x ≤ key y))
    (distinct : (older ++ newer).Nodup) (nonempty : m ≠ 0)
    (below : ∀ x ∈ older ++ newer, key x ≤ e) (found : within key s e (older ++ newer) ≠ [])
    (inside : ∀ x ∈ rest, x ∈ older ++ newer) (againNewer : ∀ x ∈ newer, x ∈ rest)
    (againOlder : newer = [] → ∀ x ∈ older, x ∈ rest) :
    (scanned key s e (newer ++ (older ++ rest))).take m = (within key s e (older ++ newer)).take m ↔
      (newer = [] ∨ within key s e older = []) ∧ m ≤ (within key s e (older ++ newer)).length := by
  rw [scanned_unstopped below inside]
  by_cases aligned : newer = [] ∨ within key s e older = []
  · have same : within key s e newer ++ within key s e older = within key s e (older ++ newer) := by
      rcases aligned with empty | none
      · simp [empty]
      · simp [none]
    rw [same, take_append_eq_iff (within_again aligned found againNewer againOlder)]
    simp [aligned]
  · obtain ⟨filled, front⟩ := not_or.mp aligned
    apply iff_of_false
    · exact rotated_ne distinct nonempty front (head_newer sorted below filled front)
    · intro holds
      exact aligned holds.1

/-- A reader that starts at the `newer` part of a sorted and duplicate-free cycle
`older ++ newer`, comes to the `older` part next and then meets the cycle again. -/
theorem scanned_rotated_iff (sorted : (older ++ newer).Pairwise (fun x y => key x ≤ key y))
    (distinct : (older ++ newer).Nodup)
    (inside : ∀ x ∈ rest, x ∈ older ++ newer) (againNewer : ∀ x ∈ newer, x ∈ rest)
    (againOlder : newer = [] → ∀ x ∈ older, x ∈ rest) :
    (scanned key s e (newer ++ (older ++ rest))).take m = (within key s e (older ++ newer)).take m ↔
      m = 0 ∨ within key s e (older ++ newer) = [] ∨
        ((newer = [] ∨ within key s e older = []) ∧
          ((∃ x ∈ older ++ newer, e < key x) ∨ m ≤ (within key s e (older ++ newer)).length)) := by
  by_cases none : m = 0
  · simp [none]
  by_cases above : ∃ x ∈ older ++ newer, e < key x
  · rw [scanned_stopped_iff sorted distinct none above]
    simp only [none, above, true_or, and_true, false_or]
    constructor
    · exact Or.inr
    · intro holds
      rcases holds with nothing | aligned
      · rw [within_append, List.append_eq_nil_iff] at nothing
        exact Or.inr nothing.1
      · exact aligned
  · have below : ∀ x ∈ older ++ newer, key x ≤ e := fun x member =>
      not_lt.mp (fun beyond => above ⟨x, member, beyond⟩)
    by_cases found : within key s e (older ++ newer) = []
    · have nothing : within key s e rest = [] := by
        rw [List.eq_nil_iff_forall_not_mem]
        intro x matched
        obtain ⟨member, range⟩ := mem_within.mp matched
        have again := mem_within.mpr ⟨inside x member, range⟩
        simp [found] at again
      have parts := found
      rw [within_append, List.append_eq_nil_iff] at parts
      rw [scanned_unstopped below inside, found, nothing, parts.1, parts.2]
      simp
    · rw [scanned_unstopped_iff sorted distinct none below found inside againNewer againOlder]
      simp only [none, above, found, false_or]

end Query
end EnerSentry.Lib.Laps
