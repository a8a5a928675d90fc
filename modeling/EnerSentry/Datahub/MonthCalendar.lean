import Std.Data.String.ToNat
import EnerSentry.Datahub.AlarmTables
import EnerSentry.Lib.Gregorian

/-!
How a query goes through the months of its range. Times are unsigned numbers of 64 bits; the platform's
calendar has signed ones, and the loop compares the signed forms. A month is read over the part of the
range that lies in it. A month whose start is no signed number of 64 bits is an invalid date, and so is every
month after it.
-/

namespace EnerSentry.Datahub
open EnerSentry.Lib

/-- A time of the calendar as an unsigned number. -/
def unsigned (t : ℤ) : Nat := (t % 2 ^ 64).toNat

/-- An unsigned number as a time of the calendar. -/
def signed (x : Nat) : ℤ := if x < 2 ^ 63 then x else x - 2 ^ 64

/-- The calendar of the platform: the months follow each other, number 0 is January 1970, and the name of a
month stands for the month and can be read back. An invalid date has a time too. -/
structure MonthCalendar extends Calendar where
  months : Timeline
  invalid : ℤ
  invalid_early : invalid ≤ maxSaneTs
  short : ∀ i, months.start (i + 1) ≤ months.start i + 32 * 86400000
  february : 0 < months.start 1
  month_of_number : ∀ t u : Nat, months.number t = months.number u → month t = month u
  number_of_month : ∀ t u : Nat, t ≤ maxSaneTs → u ≤ maxSaneTs → month t = month u → months.number t = months.number u
  read_back : ∀ t : Nat, t ≤ maxSaneTs → monthStart (month t) = unsigned (months.start (months.number t))

theorem unsigned_of_nonneg {t : ℤ} (low : 0 ≤ t) (high : t < 2 ^ 64) : unsigned t = t.toNat := by
  unfold unsigned
  rw [Int.emod_eq_of_lt low high]

theorem unsigned_of_neg {t : ℤ} (low : -2 ^ 64 ≤ t) (high : t < 0) : (unsigned t : ℤ) = t + 2 ^ 64 := by
  unfold unsigned
  omega

theorem signed_of_lt {x : Nat} (low : x < 2 ^ 63) : signed x = x := if_pos low

theorem signed_of_ge {x : Nat} (high : 2 ^ 63 ≤ x) : signed x = x - 2 ^ 64 := if_neg (not_lt.mpr high)

theorem signed_lt {x : Nat} (word : x < 2 ^ 64) : signed x < 2 ^ 63 := by
  unfold signed
  split <;> omega

namespace MonthCalendar
section Range
variable (cal : MonthCalendar) (beginMs endMs : UInt64)

def Representable (i : ℤ) : Prop := -2 ^ 63 ≤ cal.months.start i ∧ cal.months.start i < 2 ^ 63

instance (i : ℤ) : Decidable (cal.Representable i) := inferInstanceAs (Decidable (_ ∧ _))

/-- The first of a month, if it is a valid date. -/
def firstOf (i : ℤ) : Option ℤ := if cal.Representable i then some i else none

def toMSecsSinceEpoch (cur : Option ℤ) : ℤ := cur.elim cal.invalid cal.months.start

/-- The next month. An invalid date stays invalid. -/
def addMonth (cur : Option ℤ) : Option ℤ := cur.bind fun i => cal.firstOf (i + 1)

def qBegin (cur : Option ℤ) : Nat := max beginMs.toNat (unsigned (cal.toMSecsSinceEpoch cur))

def qEnd (cur : Option ℤ) : Nat := min endMs.toNat (unsigned (cal.toMSecsSinceEpoch (cal.addMonth cur)))

/-- The month loop of a query, as long as the fuel lasts. -/
def throughMonths {α : Type*} (month : Option ℤ → List α) : Nat → Option ℤ → Option (List α)
  | 0, _ => none
  | fuel + 1, cur =>
    if cal.toMSecsSinceEpoch cur < signed endMs.toNat then
      (throughMonths month fuel (cal.addMonth cur)).map (month cur ++ ·)
    else some []

/-- Where the loop begins. -/
def firstMonth : Option ℤ := cal.firstOf (cal.months.number (signed beginMs.toNat))

/-- The last month that has a valid first day. -/
def lastMonth : ℤ := cal.months.number (2 ^ 63 - 1)

/-- The months the loop has to read. -/
def visited : List ℤ :=
  if cal.Representable (cal.months.number (signed beginMs.toNat)) then
    cal.months.periods (cal.months.number (signed beginMs.toNat)) (signed endMs.toNat)
  else []

/-- The range ends at a time that the months can come to: no later than the last of them begins, or than the
time of an invalid date if the first is none. -/
def Stops : Prop :=
  signed endMs.toNat ≤ if cal.Representable (cal.months.number (signed beginMs.toNat)) then
    cal.months.start cal.lastMonth else cal.invalid

end Range

variable {cal : MonthCalendar} {beginMs endMs : UInt64} {i : ℤ} {t : Nat}

/-- The start of a month as a time stamp names the month. -/
theorem month_start (begun : 0 ≤ cal.months.start (cal.months.number t)) (sane : t ≤ maxSaneTs) :
    (unsigned (cal.months.start (cal.months.number t)) : ℤ) = cal.months.start (cal.months.number t) ∧
      cal.month (unsigned (cal.months.start (cal.months.number t))) = cal.month t := by
  have started := cal.months.started t
  unfold maxSaneTs at sane
  have start : (unsigned (cal.months.start (cal.months.number t)) : ℤ) = cal.months.start (cal.months.number t) := by
    rw [unsigned_of_nonneg begun (by omega), Int.toNat_of_nonneg begun]
  refine ⟨start, cal.month_of_number _ _ ?_⟩
  rw [start, Timeline.number_start]

/-- The start of a month that is not after the epoch is no sane time stamp. -/
theorem unsigned_early (early : cal.months.start (cal.months.number t) ≤ 0) :
    unsigned (cal.months.start (cal.months.number t)) = 0 ∨
      maxSaneTs < unsigned (cal.months.start (cal.months.number t)) := by
  have running := cal.months.running t
  have length := cal.short (cal.months.number t)
  unfold maxSaneTs
  rcases early.lt_or_eq with negative | zero
  · have wrapped := unsigned_of_neg (by omega) negative
    omega
  · rw [zero]
    exact Or.inl rfl

theorem toMSecsSinceEpoch_some (i : ℤ) : cal.toMSecsSinceEpoch (some i) = cal.months.start i := rfl

theorem toMSecsSinceEpoch_none : cal.toMSecsSinceEpoch none = cal.invalid := rfl

theorem firstOf_eq (valid : cal.Representable i) : cal.firstOf i = some i := if_pos valid

theorem addMonth_eq (valid : cal.Representable (i + 1)) : cal.addMonth (some i) = some (i + 1) := firstOf_eq valid

theorem representable_iff (low : -2 ^ 63 ≤ cal.months.start i) : cal.Representable i ↔ i ≤ cal.lastMonth := by
  unfold Representable lastMonth
  rw [Timeline.le_number_iff]
  omega

theorem representable_of_nonneg {t : ℤ} (low : 0 ≤ t) (high : t < 2 ^ 63) :
    cal.Representable (cal.months.number t) := by
  have started := cal.months.started t
  have running := cal.months.running t
  have length := cal.short (cal.months.number t)
  unfold Representable
  omega

theorem mem_visited : i ∈ cal.visited beginMs endMs ↔ cal.Representable (cal.months.number (signed beginMs.toNat)) ∧
    cal.months.number (signed beginMs.toNat) ≤ i ∧ cal.months.start i < signed endMs.toNat := by
  unfold visited
  by_cases valid : cal.Representable (cal.months.number (signed beginMs.toNat))
  · rw [if_pos valid, Timeline.mem_periods]
    exact (and_iff_right valid).symm
  · rw [if_neg valid]
    exact ⟨fun none => (List.not_mem_nil none).elim, fun member => absurd member.1 valid⟩

theorem visited_ascending (cal : MonthCalendar) (beginMs endMs : UInt64) :
    (cal.visited beginMs endMs).Pairwise (· < ·) := by
  unfold visited
  split
  · exact cal.months.periods_ascending
  · exact .nil

/-- A month that is read has times which both forms agree on. -/
theorem starts_of_visited (member : i ∈ cal.visited beginMs endMs)
    (sane : unsigned (cal.months.start i) ≤ maxSaneTs) :
    endMs.toNat < 2 ^ 63 ∧ unsigned (cal.months.start i) = cal.months.start i ∧
      unsigned (cal.toMSecsSinceEpoch (cal.addMonth (some i))) = cal.months.start (i + 1) := by
  obtain ⟨valid, later, open_⟩ := mem_visited.mp member
  have grows := cal.months.increasing.monotone later
  have lowest := valid.1
  have highest := signed_lt endMs.toNat_lt
  have next : cal.months.start i < cal.months.start (i + 1) := cal.months.increasing (by omega)
  have longest := cal.short i
  unfold maxSaneTs at sane
  by_cases negative : cal.months.start i < 0
  · have wrapped := unsigned_of_neg (by omega) negative
    omega
  · rw [unsigned_of_nonneg (by omega) (by omega)] at sane ⊢
    rw [addMonth_eq ⟨by omega, by omega⟩, toMSecsSinceEpoch_some, unsigned_of_nonneg (by omega) (by omega)]
    refine ⟨?_, by omega, by omega⟩
    by_contra high
    rw [signed_of_ge (not_lt.mp high)] at open_
    have word := endMs.toNat_lt
    omega

/-- What is read of a month are the times of the range in it. -/
theorem between_iff (member : i ∈ cal.visited beginMs endMs) (sane : cal.qBegin beginMs i ≤ maxSaneTs) :
    cal.qBegin beginMs i ≤ t ∧ t < cal.qEnd endMs i ↔
      beginMs.toNat ≤ t ∧ t < endMs.toNat ∧ cal.months.number t = i := by
  obtain ⟨-, this, next⟩ := starts_of_visited member ((le_max_right _ _).trans sane)
  rw [Timeline.number_eq_iff, qBegin, qEnd, max_le_iff, lt_min_iff, toMSecsSinceEpoch_some]
  omega

/-- The months that are read: those whose table the clipped range names, if the range ends before the
signed times do. -/
theorem mem_visited_iff (here : beginMs.toNat ≤ t) (before : t < endMs.toNat) :
    cal.months.number t ∈ cal.visited beginMs endMs ∧ cal.qBegin beginMs (cal.months.number t) ≤ maxSaneTs ↔
      endMs.toNat < 2 ^ 63 ∧ beginMs.toNat ≤ maxSaneTs ∧ 0 ≤ cal.months.start (cal.months.number t) ∧
        cal.months.start (cal.months.number t) ≤ maxSaneTs := by
  have started := cal.months.started t
  constructor
  · rintro ⟨member, sane⟩
    obtain ⟨early, own⟩ := max_le_iff.mp sane
    obtain ⟨signed, this, -⟩ := starts_of_visited member own
    rw [toMSecsSinceEpoch_some] at own
    refine ⟨signed, early, ?_, ?_⟩ <;> omega
  · rintro ⟨low, early, positive, sane⟩
    unfold maxSaneTs at early sane
    have month : unsigned (cal.months.start (cal.months.number t)) = (cal.months.start (cal.months.number t)).toNat :=
      unsigned_of_nonneg positive (by omega)
    constructor
    · apply mem_visited.mpr
      rw [signed_of_lt low, signed_of_lt (by omega)]
      exact ⟨representable_of_nonneg (by omega) (by omega), cal.months.number_mono (by exact_mod_cast here), by omega⟩
    · rw [qBegin, toMSecsSinceEpoch_some, month, max_le_iff]
      unfold maxSaneTs
      omega

/-! The loop. -/

variable {α : Type*} {month : Option ℤ → List α} {cur : Option ℤ} {fuel : Nat} {out : List α}

/-- From dates which all come before the end the loop does not return. -/
theorem throughMonths_endless {D : Set (Option ℤ)} (next : ∀ cur ∈ D, cal.addMonth cur ∈ D)
    (before : ∀ cur ∈ D, cal.toMSecsSinceEpoch cur < signed endMs.toNat) :
    ∀ cur ∈ D, cal.throughMonths endMs month fuel cur = none := by
  induction fuel with
  | zero => exact fun _ _ => rfl
  | succ fuel ih =>
    intro cur here
    rw [throughMonths, if_pos (before cur here), ih _ (next cur here)]
    rfl

/-- What the loop returns does not depend on the fuel. -/
theorem throughMonths_unique {more : Nat} {other : List α}
    (first : cal.throughMonths endMs month fuel cur = some out)
    (second : cal.throughMonths endMs month more cur = some other) : out = other := by
  induction fuel generalizing more cur out other with
  | zero => cases first
  | succ fuel ih =>
    cases more with
    | zero => cases second
    | succ more =>
      unfold throughMonths at first second
      by_cases before : cal.toMSecsSinceEpoch cur < signed endMs.toNat
      · rw [if_pos before, Option.map_eq_some_iff] at first second
        obtain ⟨rest, first, rfl⟩ := first
        obtain ⟨rest', second, rfl⟩ := second
        rw [ih first second]
      · rw [if_neg before] at first second
        exact Option.some.inj (first.symm.trans second)

/-- The months up to the end are gone through, one after the other, if the last month begins no earlier. -/
theorem throughMonths_periods (low : -2 ^ 63 ≤ cal.months.start i)
    (reached : signed endMs.toNat ≤ cal.months.start cal.lastMonth) : ∃ fuel,
    cal.throughMonths endMs month fuel (some i) =
      some ((cal.months.periods i (signed endMs.toNat)).flatMap fun i => month (some i)) := by
  fun_induction cal.months.periods i (signed endMs.toNat) with
  | case1 i before ih =>
    have next : cal.months.start i < cal.months.start (i + 1) := cal.months.increasing (by omega)
    have earlier : i < cal.lastMonth := cal.months.increasing.lt_iff_lt.mp (before.trans_le reached)
    have valid : cal.Representable (i + 1) := (representable_iff (by omega)).mpr (by omega)
    obtain ⟨fuel, rest⟩ := ih (by omega)
    refine ⟨fuel + 1, ?_⟩
    rw [throughMonths, toMSecsSinceEpoch_some, if_pos before, addMonth_eq valid, rest]
    rfl
  | case2 i ended =>
    refine ⟨1, ?_⟩
    rw [throughMonths, toMSecsSinceEpoch_some, if_neg ended]
    rfl

/-- The last month is far beyond the sane time stamps. -/
theorem sane_lt_last (cal : MonthCalendar) : maxSaneTs < cal.months.start cal.lastMonth := by
  have running := cal.months.running (2 ^ 63 - 1)
  have length := cal.short cal.lastMonth
  unfold maxSaneTs
  unfold lastMonth at *
  omega

/-- No date comes later than the last month. -/
theorem toMSecsSinceEpoch_le_last (valid : ∀ i ∈ cur, cal.Representable i) :
    cal.toMSecsSinceEpoch cur ≤ cal.months.start cal.lastMonth := by
  cases cur with
  | none => exact cal.invalid_early.trans cal.sane_lt_last.le
  | some i =>
    have reached := valid i rfl
    exact cal.months.increasing.monotone ((representable_iff reached.1).mp reached)

theorem valid_firstOf : ∀ j ∈ cal.firstOf i, cal.Representable j := by
  intro j
  unfold firstOf
  split
  · rintro ⟨⟩
    assumption
  · rintro ⟨⟩

/-- The loop returns if the range ends where the months come to. -/
theorem throughMonths_of_stops (stops : cal.Stops beginMs endMs) : ∃ fuel, cal.throughMonths endMs month fuel
    (cal.firstMonth beginMs) = some ((cal.visited beginMs endMs).flatMap fun i => month (some i)) := by
  unfold Stops at stops
  unfold visited firstMonth
  by_cases valid : cal.Representable (cal.months.number (signed beginMs.toNat))
  · rw [if_pos valid] at stops ⊢
    rw [firstOf_eq valid]
    exact throughMonths_periods valid.1 stops
  · rw [if_neg valid] at stops ⊢
    refine ⟨1, ?_⟩
    rw [firstOf, if_neg valid, throughMonths, toMSecsSinceEpoch_none, if_neg (not_lt.mpr stops)]
    rfl

theorem stops_of_sane (early : beginMs.toNat < 2 ^ 63) (sane : endMs.toNat ≤ maxSaneTs) :
    cal.Stops beginMs endMs := by
  have last := cal.sane_lt_last
  unfold maxSaneTs at sane last
  rw [Stops, signed_of_lt early, signed_of_lt (by omega),
    if_pos (representable_of_nonneg (by omega) (by exact_mod_cast early))]
  omega

/-- It does not return if the range ends later. -/
theorem throughMonths_beyond (beyond : ¬cal.Stops beginMs endMs) :
    cal.throughMonths endMs month fuel (cal.firstMonth beginMs) = none := by
  unfold Stops at beyond
  rw [not_le] at beyond
  by_cases valid : cal.Representable (cal.months.number (signed beginMs.toNat))
  · rw [if_pos valid] at beyond
    apply throughMonths_endless (D := {cur | ∀ i ∈ cur, cal.Representable i})
    · intro cur _ j next
      obtain ⟨i, -, named⟩ := Option.bind_eq_some_iff.mp next
      exact valid_firstOf j named
    · intro cur here
      exact (toMSecsSinceEpoch_le_last here).trans_lt beyond
    · exact valid_firstOf
  · rw [if_neg valid] at beyond
    have start : cal.firstMonth beginMs = none := if_neg valid
    rw [start]
    apply throughMonths_endless (D := {none})
    · rintro cur rfl
      rfl
    · rintro cur rfl
      exact beyond
    · rfl

/-- The loop returns exactly when the range ends where the months come to, with what the months have. -/
theorem throughMonths_iff : (∃ fuel, cal.throughMonths endMs month fuel (cal.firstMonth beginMs) = some out) ↔
    cal.Stops beginMs endMs ∧ out = (cal.visited beginMs endMs).flatMap fun i => month (some i) := by
  constructor
  · rintro ⟨fuel, returned⟩
    have stops : cal.Stops beginMs endMs := by
      by_contra beyond
      rw [throughMonths_beyond beyond] at returned
      cases returned
    obtain ⟨more, visited⟩ : ∃ more, cal.throughMonths endMs month more (cal.firstMonth beginMs) =
        some ((cal.visited beginMs endMs).flatMap fun i => month (some i)) := throughMonths_of_stops stops
    exact ⟨stops, throughMonths_unique returned visited⟩
  · rintro ⟨stops, rfl⟩
    exact throughMonths_of_stops stops

end MonthCalendar

section Universal
open Gregorian

/-- The calendar of a station that keeps universal time. -/
noncomputable def universalTime : MonthCalendar where
  month t := (name (months.number t).toNat).repr
  monthStart s := match s.toNat? with
    | some k => if 1 ≤ k % 100 ∧ k % 100 ≤ 12 then unsigned (start (12 * (k / 100 - 1970) + k % 100 - 1)) else 0
    | none => 0
  months := months
  short i := by
    have days := (start_succ i).2
    unfold millisPerDay at days
    change start (i + 1) ≤ start i + _
    omega
  invalid := 0
  invalid_early := by decide
  february := by decide
  month_of_number _ _ same := by rw [same]
  number_of_month t u _ _ same := by
    have names := name_injective (Nat.repr_injective same)
    have first := number_nonneg t
    have second := number_nonneg u
    omega
  read_back t _ := by
    obtain ⟨month, year⟩ := name_parts (months.number t).toNat
    have nonneg := number_nonneg t
    have number : 12 * ((name (months.number t).toNat : ℤ) / 100 - 1970) +
        (name (months.number t).toNat : ℤ) % 100 - 1 = months.number t := by omega
    simp only [Nat.toNat?_repr]
    rw [if_pos (by omega), number]
    rfl

/-- The last month of universal time with a valid first day is August 292278994. -/
example : universalTime.months.start universalTime.lastMonth = 9223372035446400000 := by
  have august : universalTime.months.start 3507324295 = 9223372035446400000 := by decide
  have september : universalTime.months.start (3507324295 + 1) = 9223372038124800000 := by decide
  have last : universalTime.lastMonth = 3507324295 := by
    rw [MonthCalendar.lastMonth, Timeline.number_eq_iff, august, september]
    omega
  rw [last, august]

end Universal
end EnerSentry.Datahub
