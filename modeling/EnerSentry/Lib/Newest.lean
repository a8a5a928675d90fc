import Mathlib.Data.List.Sort

/-!
The newest items of a list by a key, newest first and no more than a limit. Of items with one key any may be
taken, so this is a relation. The newest of several lists are found among the newest of each.
-/

namespace EnerSentry.Lib

variable {α ι β : Type*} [LinearOrder β]

/-- The first items, as many as a limit allows. -/
def truncate : Option Nat → List α → List α
  | none, l => l
  | some n, l => l.take n

/-- A way to sort, newest first; nothing is said about items with one key. -/
structure NewestFirst (key : α → β) where
  sort : List α → List α
  perm : ∀ l, (sort l).Perm l
  descending : ∀ l, (sort l).Pairwise fun a b => key b ≤ key a

/-- Items are the newest of all: they are in order and as many as there may be, and no other is newer than one
of them. -/
structure Newest (key : α → β) (limit : Option Nat) (all out : List α) : Prop where
  descending : out.Pairwise fun a b => key b ≤ key a
  full : out.length = (truncate limit all).length
  rest : ∃ omitted, all.Perm (out ++ omitted) ∧ ∀ a ∈ omitted, ∀ b ∈ out, key a ≤ key b

variable {key : α → β} {limit : Option Nat} {n : Nat} {all all' out omitted visible hidden l : List α} {x : β}

theorem length_truncate_congr (same : all.length = all'.length) :
    (truncate limit all).length = (truncate limit all').length := by
  cases limit with
  | none => exact same
  | some n => rw [truncate, truncate, List.length_take, List.length_take, same]

theorem truncate_nil : truncate limit ([] : List α) = [] := by cases limit <;> simp [truncate]

theorem newest_truncate (sorted : l.Pairwise fun a b => key b ≤ key a) (perm : l.Perm all) :
    Newest key limit all (truncate limit l) := by
  cases limit with
  | none =>
    refine ⟨sorted, perm.length_eq, [], ?_, fun a none => (List.not_mem_nil none).elim⟩
    rw [List.append_nil]
    exact perm.symm
  | some n =>
    refine ⟨sorted.sublist (List.take_sublist ..), length_truncate_congr perm.length_eq, l.drop n, ?_, ?_⟩
    · rw [truncate, List.take_append_drop]
      exact perm.symm
    · intro a late b early
      rw [← List.take_append_drop n l, List.pairwise_append] at sorted
      exact sorted.2.2 b early a late

namespace Newest

theorem nil : Newest key limit [] [] :=
  ⟨.nil, by rw [truncate_nil], [], .refl _, fun _ none => (List.not_mem_nil none).elim⟩

theorem perm (newest : Newest key limit all out) (same : all.Perm all') : Newest key limit all' out := by
  obtain ⟨omitted, parts, older⟩ := newest.rest
  exact ⟨newest.descending, newest.full.trans (length_truncate_congr same.length_eq), omitted,
    same.symm.trans parts, older⟩

/-- Something is left out only if the limit is reached. -/
theorem limited (newest : Newest key limit all out) (parts : all.Perm (out ++ omitted)) (some_ : omitted ≠ []) :
    limit = some out.length := by
  have total := parts.length_eq
  have more := List.length_pos_of_ne_nil some_
  have full := newest.full
  rw [List.length_append] at total
  cases limit with
  | none =>
    rw [truncate] at full
    omega
  | some n =>
    rw [truncate, List.length_take] at full
    congr 1
    omega

/-- With as many items from a key on as the limit has, no older one is taken. -/
theorem above (newest : Newest key (some n) all out) (many : n ≤ all.countP fun a => x ≤ key a) :
    ∀ b ∈ out, x ≤ key b := by
  obtain ⟨omitted, parts, older⟩ := newest.rest
  intro b taken
  by_contra below
  have none : (omitted.countP fun a => x ≤ key a) = 0 := by
    apply List.countP_eq_zero.mpr
    intro a left
    have order := (older a left b taken).trans_lt (not_le.mp below)
    exact decide_eq_true_iff.not.mpr (not_le.mpr order)
  have size : out.length ≤ n := by
    rw [newest.full]
    exact List.length_take_le ..
  have counts : (out.countP fun a => x ≤ key a) = out.length := by
    apply le_antisymm List.countP_le_length
    rw [parts.countP_eq, List.countP_append, none] at many
    omega
  exact below (of_decide_eq_true (List.countP_eq_length.mp counts b taken))

/-- A part may be replaced by the newest of it. -/
theorem of_part {part part' : List α} (newest : Newest key limit part part')
    (whole : Newest key limit (part' ++ l) out) : Newest key limit (part ++ l) out := by
  obtain ⟨omitted, parts, older⟩ := newest.rest
  by_cases none : omitted = []
  · rw [none, List.append_nil] at parts
    exact whole.perm (parts.symm.append_right l)
  · have limited := newest.limited parts none
    subst limited
    obtain ⟨omitted', parts', older'⟩ := whole.rest
    refine ⟨whole.descending, ?_, omitted' ++ omitted, ?_, ?_⟩
    · have length := parts.length_eq
      rw [whole.full]
      simp only [truncate, List.length_take, List.length_append] at length ⊢
      omega
    · calc (part ++ l).Perm (part' ++ omitted ++ l) := parts.append_right l
        _ |>.Perm (part' ++ l ++ omitted) := by
          rw [List.append_assoc, List.append_assoc]
          exact List.perm_append_comm.append_left part'
        _ |>.Perm (out ++ (omitted' ++ omitted)) := by
          rw [← List.append_assoc]
          exact parts'.append_right omitted
    · intro a left b taken
      rcases List.mem_append.mp left with late | early
      · exact older' a late b taken
      · refine whole.above ?_ b taken
        have all_ : (part'.countP fun b => key a ≤ key b) = part'.length :=
          List.countP_eq_length.mpr fun b here => decide_eq_true (older a early b here)
        rw [List.countP_append, all_]
        exact Nat.le_add_right ..

/-- The newest of several parts are the newest of what is newest in each. -/
theorem of_parts {parts : List ι} {whole newest : ι → List α}
    (each : ∀ i ∈ parts, Newest key limit (whole i) (newest i)) (l : List α)
    (merged : Newest key limit (parts.flatMap newest ++ l) out) : Newest key limit (parts.flatMap whole ++ l) out := by
  induction parts generalizing l with
  | nil => exact merged
  | cons i parts ih =>
    rw [List.forall_mem_cons] at each
    rw [List.flatMap_cons, List.append_assoc] at merged ⊢
    have first := each.1.of_part merged
    have turned : Newest key limit (parts.flatMap newest ++ (l ++ whole i)) out :=
      first.perm (List.perm_append_comm.trans (List.append_assoc .. ▸ .refl _))
    exact (ih each.2 _ turned).perm ((List.append_assoc .. ▸ .refl _ : List.Perm _ _).trans List.perm_append_comm)

end Newest

/-- Whatever is hidden would not have been taken: the limit is reached by visible items that are as new. -/
def Filled (key : α → β) (limit : Option Nat) (visible hidden : List α) : Prop :=
  ∀ h ∈ hidden, ∃ n, limit = some n ∧ n ≤ visible.countP fun a => key h ≤ key a

/-- The newest of what is visible are the newest of all exactly when the limit is filled. -/
theorem Newest.append_iff (newest : Newest key limit visible out) :
    Newest key limit (visible ++ hidden) out ↔ Filled key limit visible hidden := by
  obtain ⟨omitted, parts, older⟩ := newest.rest
  constructor
  · intro both h member
    obtain ⟨left, parts', older'⟩ := both.rest
    have more : hidden ≠ [] := List.ne_nil_of_mem member
    have rests : (omitted ++ hidden).Perm left := by
      apply (List.perm_append_left_iff out).mp
      rw [← List.append_assoc]
      exact (parts.symm.append_right hidden).trans parts'
    have late : h ∈ left := rests.mem_iff.mp (List.mem_append_right _ member)
    refine ⟨out.length, both.limited parts' (List.ne_nil_of_mem late), ?_⟩
    rw [parts.countP_eq, List.countP_append]
    have all_ : (out.countP fun a => key h ≤ key a) = out.length :=
      List.countP_eq_length.mpr fun b taken => decide_eq_true (older' h late b taken)
    omega
  · intro filled
    by_cases none : hidden = []
    · rwa [none, List.append_nil]
    · obtain ⟨h, member⟩ := List.exists_mem_of_ne_nil _ none
      obtain ⟨n, rfl, enough⟩ := filled h member
      refine ⟨newest.descending, ?_, omitted ++ hidden, ?_, ?_⟩
      · have room := enough.trans List.countP_le_length
        rw [newest.full]
        simp only [truncate, List.length_take, List.length_append]
        omega
      · rw [← List.append_assoc]
        exact parts.append_right hidden
      · intro a left b taken
        rcases List.mem_append.mp left with late | unseen
        · exact older a late b taken
        · obtain ⟨m, same, many⟩ := filled a unseen
          cases same
          exact newest.above many b taken

def newer (key : α → β) (a b : α) : Bool := key b ≤ key a

theorem newer_trans (a b c : α) (first : newer key a b = true) (second : newer key b c = true) :
    newer key a c = true :=
  decide_eq_true ((of_decide_eq_true second).trans (of_decide_eq_true first))

theorem newer_total (a b : α) : (newer key a b || newer key b a) = true := by
  rw [Bool.or_eq_true, newer, newer, decide_eq_true_iff, decide_eq_true_iff]
  exact le_total (key b) (key a)

/-- Merge sort is a way to sort. -/
def NewestFirst.merge (key : α → β) : NewestFirst key where
  sort l := l.mergeSort (newer key)
  perm l := List.mergeSort_perm l _
  descending l := (List.pairwise_mergeSort newer_trans newer_total l).imp of_decide_eq_true

end EnerSentry.Lib
