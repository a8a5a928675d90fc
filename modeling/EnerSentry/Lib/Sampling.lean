import Mathlib.Algebra.GroupWithZero.Nat
import Mathlib.Data.List.Basic
import Mathlib.Data.List.Induction
import Mathlib.Data.List.Pairwise
import Mathlib.Tactic.Common

/-!
What a sampler of a list rests on: the last record of a list, the stretches of equal length
that a list is cut into, and the filling of a budget from shares that come one after the
other.
-/

namespace EnerSentry.Lib.Sampling

variable {α β : Type*}

/-- The element at this place beats all before it, and none behind beats it. -/
structure Record (better : α → α → Prop) (l : List α) (i : ℕ) (p : α) : Prop where
  here : l[i]? = some p
  before : ∀ j q, j < i → l[j]? = some q → better p q
  behind : ∀ j q, i < j → l[j]? = some q → ¬better q p

namespace Record
variable {better : α → α → Prop} {l : List α} {i j : ℕ} {p q : α}

/-- The first element is the record if nothing behind it beats it. -/
theorem head_iff : Record better (p :: l) 0 p ↔ ∀ q ∈ l, ¬better q p := by
  constructor
  · intro record q member
    obtain ⟨k, there⟩ := List.mem_iff_getElem?.mp member
    exact record.behind (k + 1) q (Nat.succ_pos k) there
  · intro best
    constructor
    · rfl
    · intro j q sooner
      exact absurd sooner (Nat.not_lt_zero j)
    · intro j q later there
      cases j with
      | zero => exact absurd later (Nat.lt_irrefl 0)
      | succ j => exact best q (List.mem_of_getElem? there)

theorem single (better : α → α → Prop) (p : α) : Record better [p] 0 p := head_iff.mpr (List.forall_mem_nil _)

theorem mem (record : Record better l i p) : p ∈ l := List.mem_of_getElem? record.here

theorem lt_length (record : Record better l i p) : i < l.length := (List.getElem?_eq_some_iff.mp record.here).1

/-- An element that does not beat the record leaves it. -/
theorem concat_keep (record : Record better l i p) (worse : ¬better q p) : Record better (l ++ [q]) i p := by
  have inside := record.lt_length
  constructor
  · rw [List.getElem?_append_left inside]
    exact record.here
  · intro j e sooner there
    rw [List.getElem?_append_left (by omega)] at there
    exact record.before j e sooner there
  · intro j e later there
    by_cases old : j < l.length
    · rw [List.getElem?_append_left old] at there
      exact record.behind j e later there
    · rw [List.getElem?_append_right (by omega)] at there
      rw [List.mem_singleton.mp (List.mem_of_getElem? there)]
      exact worse

/-- One that beats the record beats all before it. -/
theorem concat_take (record : Record better l i p) (trans : ∀ a b c, better a b → better b c → better a c)
    (cotrans : ∀ a b c, better a b → ¬better c b → better a c) (beats : better q p) :
    Record better (l ++ [q]) l.length q := by
  constructor
  · exact List.getElem?_concat_length
  · intro j e sooner there
    rw [List.getElem?_append_left sooner] at there
    rcases Nat.lt_trichotomy j i with earlier | same | later
    · exact trans q p e beats (record.before j e earlier there)
    · rw [same, record.here] at there
      exact Option.some.inj there ▸ beats
    · exact cotrans q p e beats (record.behind j e later there)
  · intro j e later there
    rw [List.getElem?_eq_none (by rw [List.length_append, List.length_singleton]; omega)] at there
    exact Option.noConfusion rfl (heq_of_eq there)

theorem eq_of_place {other : α → α → Prop} (first : Record better l i p) (second : Record other l j q) (place : i = j) :
    p = q := by
  have here := first.here
  rw [place, second.here] at here
  exact (Option.some.inj here).symm

/-- A list has one record. -/
theorem unique (first : Record better l i p) (second : Record better l j q) : i = j ∧ p = q := by
  have place : i = j := by
    rcases Nat.lt_trichotomy i j with earlier | same | later
    · exact absurd (second.before i p earlier first.here) (first.behind j q earlier second.here)
    · exact same
    · exact absurd (first.before j q later second.here) (second.behind i p later first.here)
  exact ⟨place, first.eq_of_place second place⟩

/-- A record is only at one element. -/
theorem exists_iff (record : Record better l i p) : (∃ j, Record better l j q) ↔ q = p := by
  constructor
  · intro another
    obtain ⟨j, there⟩ := another
    exact (there.unique record).2
  · intro same
    exact ⟨i, same ▸ record⟩

end Record

/-- The stretches of this size of a list, as many of them as given. -/
def stretches (size count : ℕ) (l : List α) : List (List α) :=
  (List.range count).map fun k => (l.drop (k * size)).take size

theorem flatten_stretches (size count : ℕ) (l : List α) : (stretches size count l).flatten = l.take (count * size) := by
  induction count with
  | zero =>
    rw [Nat.zero_mul, List.take_zero]
    rfl
  | succ count ih =>
    rw [stretches, List.range_succ, List.map_append, List.flatten_append, ← stretches, ih, Nat.succ_mul,
      List.take_add, List.map_singleton, List.flatten_singleton]

/-- Rounded up, the number of stretches is enough for the whole list. -/
theorem flatten_stretches_all {size : ℕ} (positive : 0 < size) (l : List α) :
    (stretches size ((l.length + size - 1) / size) l).flatten = l := by
  rw [flatten_stretches]
  apply List.take_of_length_le
  have rounded := Nat.div_add_mod (l.length + size - 1) size
  have rest := Nat.mod_lt (l.length + size - 1) positive
  rw [Nat.mul_comm] at rounded
  omega

theorem stretches_ne_nil {size : ℕ} {l s : List α} (positive : 0 < size)
    (member : s ∈ stretches size ((l.length + size - 1) / size) l) : s ≠ [] := by
  obtain ⟨k, within, rfl⟩ := List.mem_map.mp member
  have whole : (k + 1) * size ≤ l.length + size - 1 :=
    (Nat.le_div_iff_mul_le positive).mp (List.mem_range.mp within)
  rw [Nat.succ_mul] at whole
  apply List.ne_nil_of_length_pos
  rw [List.length_take, List.length_drop]
  omega

/-- The element at this place beats all before it in its stretch, and none behind it there beats it. -/
structure StretchRecord (better : α → α → Prop) (size : ℕ) (l : List α) (i : ℕ) (p : α) : Prop where
  here : l[i]? = some p
  before : ∀ j q, j / size = i / size → j < i → l[j]? = some q → better p q
  behind : ∀ j q, j / size = i / size → i < j → l[j]? = some q → ¬better q p

section Stretch
variable {better : α → α → Prop} {l : List α} {size k i : ℕ} {p : α}

theorem getElem?_stretch (l : List α) (size k i : ℕ) :
    ((l.drop (k * size)).take size)[i]? = if i < size then l[k * size + i]? else none := by
  rw [List.getElem?_take, List.getElem?_drop]

/-- A place of a stretch, counted from the start of the list. -/
theorem place_div (inside : i < size) : (k * size + i) / size = k := by
  rw [Nat.mul_comm, Nat.mul_add_div (Nat.zero_lt_of_lt inside), Nat.div_eq_of_lt inside, Nat.add_zero]

theorem stretchRecord_iff (inside : i < size) :
    StretchRecord better size l (k * size + i) p ↔ Record better ((l.drop (k * size)).take size) i p := by
  constructor
  · intro record
    constructor
    · rw [getElem?_stretch, if_pos inside]
      exact record.here
    · intro j q sooner there
      have within : j < size := Nat.lt_trans sooner inside
      rw [getElem?_stretch, if_pos within] at there
      exact record.before (k * size + j) q (by rw [place_div within, place_div inside]) (by omega) there
    · intro j q later there
      by_cases within : j < size
      · rw [getElem?_stretch, if_pos within] at there
        exact record.behind (k * size + j) q (by rw [place_div within, place_div inside]) (by omega) there
      · rw [getElem?_stretch, if_neg within] at there
        exact Option.noConfusion rfl (heq_of_eq there)
  · intro record
    have here := record.here
    rw [getElem?_stretch, if_pos inside] at here
    have places : ∀ j, j / size = (k * size + i) / size → j = k * size + j % size := by
      intro j same
      rw [place_div inside] at same
      rw [← same, Nat.mul_comm]
      exact (Nat.div_add_mod j size).symm
    have within : ∀ j, j % size < size := fun j => Nat.mod_lt j (Nat.zero_lt_of_lt inside)
    constructor
    · exact here
    · intro j q same sooner there
      have place := places j same
      apply record.before (j % size) q (by omega)
      rw [getElem?_stretch, if_pos (within j), ← place]
      exact there
    · intro j q same later there
      have place := places j same
      apply record.behind (j % size) q (by omega)
      rw [getElem?_stretch, if_pos (within j), ← place]
      exact there

/-- The records of a stretch are those of the list at its places. -/
theorem exists_record_iff (positive : 0 < size) :
    (∃ i, Record better ((l.drop (k * size)).take size) i p) ↔ ∃ i, i / size = k ∧ StretchRecord better size l i p := by
  constructor
  · intro ⟨i, record⟩
    have inside : i < size := by
      have short := record.lt_length
      rw [List.length_take] at short
      omega
    exact ⟨k * size + i, place_div inside, (stretchRecord_iff inside).mpr record⟩
  · intro ⟨i, place, record⟩
    have split : i = k * size + i % size := by
      rw [← place, Nat.mul_comm]
      exact (Nat.div_add_mod i size).symm
    rw [split] at record
    exact ⟨i % size, (stretchRecord_iff (Nat.mod_lt i positive)).mp record⟩

end Stretch

/-- Each element with what those before it weigh together. -/
def charges (weight : β → ℕ) : ℕ → List β → List (ℕ × β)
  | _, [] => []
  | used, b :: rest => (used, b) :: charges weight (used + weight b) rest

section Budget
variable {weight : β → ℕ} {share : β → List α} {bs : List β}

/-- Shares appended until the budget is spent, the last one cut, are a beginning of all of them. -/
theorem foldl_fill (share : β → List α) (budget : ℕ) (bs : List β) (out : List α) (within : out.length ≤ budget) :
    bs.foldl (fun out b => out ++ (share b).take (budget - out.length)) out =
      out ++ (bs.flatMap share).take (budget - out.length) := by
  induction bs generalizing out with
  | nil =>
    rw [List.flatMap_nil, List.take_nil, List.append_nil]
    rfl
  | cons b rest ih =>
    have spent : (out ++ (share b).take (budget - out.length)).length ≤ budget := by
      rw [List.length_append, List.length_take]
      omega
    have left : budget - (out ++ (share b).take (budget - out.length)).length =
        budget - out.length - (share b).length := by
      rw [List.length_append, List.length_take]
      omega
    rw [List.foldl_cons, ih _ spent, List.flatMap_cons, List.take_append, left, List.append_assoc]

theorem mem_charges {c : ℕ × β} {used : ℕ} (member : c ∈ charges weight used bs) : c.2 ∈ bs := by
  induction bs generalizing used with
  | nil => exact absurd member List.not_mem_nil
  | cons b rest ih =>
    cases List.mem_cons.mp member with
    | inl same =>
      rw [same]
      exact List.mem_cons_self
    | inr later => exact List.mem_cons_of_mem b (ih later)

theorem charges_append (used : ℕ) (bs more : List β) :
    charges weight used (bs ++ more) = charges weight used bs ++ charges weight (used + (bs.map weight).sum) more := by
  induction bs generalizing used with
  | nil => rfl
  | cons b rest ih =>
    rw [List.cons_append, charges, ih, charges, List.cons_append, List.map_cons, List.sum_cons, Nat.add_assoc]

theorem mem_charges_range {f : ℕ → β} {count : ℕ} {c : ℕ × β} :
    c ∈ charges weight 0 ((List.range count).map f) ↔
      ∃ k < count, c = (((List.range k).map fun j => weight (f j)).sum, f k) := by
  induction count with
  | zero =>
    constructor
    · intro member
      exact absurd member List.not_mem_nil
    · intro ⟨k, less, _⟩
      exact absurd less (Nat.not_lt_zero k)
  | succ count ih =>
    rw [List.range_succ, List.map_append, charges_append, List.mem_append, ih, List.map_map, Nat.zero_add,
      List.map_singleton, charges, charges, List.mem_singleton]
    constructor
    · rintro (⟨k, within, rfl⟩ | rfl)
      · exact ⟨k, Nat.lt_succ_of_lt within, rfl⟩
      · exact ⟨count, Nat.lt_succ_self count, rfl⟩
    · rintro ⟨k, within, rfl⟩
      rcases Nat.lt_succ_iff_lt_or_eq.mp within with sooner | rfl
      · exact Or.inl ⟨k, sooner, rfl⟩
      · exact Or.inr rfl

theorem length_fill (weighs : ∀ b ∈ bs, (share b).length = weight b) :
    (bs.flatMap share).length = (bs.map weight).sum := by
  rw [List.length_flatMap, List.map_congr_left weighs]

/-- What is taken from an element is its share, cut where the budget ends. -/
theorem mem_fill (weighs : ∀ b ∈ bs, (share b).length = weight b) (budget used : ℕ) {p : α} :
    p ∈ (bs.flatMap share).take (budget - used) ↔
      ∃ c ∈ charges weight used bs, p ∈ (share c.2).take (budget - c.1) := by
  induction bs generalizing used with
  | nil =>
    rw [List.flatMap_nil, List.take_nil, charges]
    exact ⟨fun taken => absurd taken List.not_mem_nil, fun ⟨c, charged, _⟩ => absurd charged List.not_mem_nil⟩
  | cons b rest ih =>
    rw [List.forall_mem_cons] at weighs
    rw [List.flatMap_cons, List.take_append, List.mem_append, Nat.sub_sub, weighs.1, ih weighs.2, charges,
      List.exists_mem_cons_iff]

/-- Shares that follow one another in order are in order together where each is. -/
theorem pairwise_fill {r : α → α → Prop} (weighs : ∀ b ∈ bs, (share b).length = weight b)
    (apart : bs.Pairwise fun a b => ∀ p ∈ share a, ∀ q ∈ share b, r p q) (budget used : ℕ) :
    ((bs.flatMap share).take (budget - used)).Pairwise r ↔
      ∀ c ∈ charges weight used bs, ((share c.2).take (budget - c.1)).Pairwise r := by
  induction bs generalizing used with
  | nil =>
    rw [List.flatMap_nil, List.take_nil, charges]
    exact ⟨fun _ c charged => absurd charged List.not_mem_nil, fun _ => List.Pairwise.nil⟩
  | cons b rest ih =>
    rw [List.forall_mem_cons] at weighs
    rw [List.pairwise_cons] at apart
    have across : ∀ p ∈ (share b).take (budget - used), ∀ q ∈ (rest.flatMap share).take (budget - (used + weight b)),
        r p q := by
      intro p first q second
      obtain ⟨c, member, among⟩ := List.mem_flatMap.mp (List.mem_of_mem_take second)
      exact apart.1 c member p (List.mem_of_mem_take first) q among
    rw [List.flatMap_cons, List.take_append, Nat.sub_sub, weighs.1, List.pairwise_append, ih weighs.2 apart.2,
      charges, List.forall_mem_cons, and_iff_left across]

end Budget
end EnerSentry.Lib.Sampling
