import Mathlib.Order.SuccPred.Archimedean
import Mathlib.Tactic.IntervalCases
import EnerSentry.Lib.Timeline

/-!
The months of the Gregorian calendar as a time line in milliseconds. Month 0 is January 1970, whose first
day is day 0.
-/

namespace EnerSentry.Lib.Gregorian

def leap (year : ℤ) : Prop := year % 4 = 0 ∧ (year % 100 ≠ 0 ∨ year % 400 = 0)

instance : DecidablePred leap := fun year => by
  unfold leap
  infer_instance

/-- How many leap years there are up to a year. -/
def leapYears (year : ℤ) : ℤ := year / 4 - year / 100 + year / 400

def newYearsDay (year : ℤ) : ℤ := 365 * (year - 1970) + leapYears (year - 1) - leapYears 1969

/-- The days of a year that are over when a month begins, in years without a leap day. -/
def daysBefore (month : ℤ) : ℤ := [0, 31, 59, 90, 120, 151, 181, 212, 243, 273, 304, 334].getD month.toNat 0

def firstDay (n : ℤ) : ℤ :=
  newYearsDay (1970 + n / 12) + daysBefore (n % 12) + if leap (1970 + n / 12) ∧ 2 ≤ n % 12 then 1 else 0

def millisPerDay : ℤ := 86400000

def start (n : ℤ) : ℤ := millisPerDay * firstDay n

theorem newYearsDay_succ (year : ℤ) :
    newYearsDay (year + 1) = newYearsDay year + 365 + if leap year then 1 else 0 := by
  unfold newYearsDay leapYears
  by_cases long : leap year
  · rw [if_pos long]
    unfold leap at long
    omega
  · rw [if_neg long]
    unfold leap at long
    omega

theorem firstDay_eq {year month : ℤ} (low : 0 ≤ month) (high : month < 12) : firstDay (12 * year + month) =
    newYearsDay (1970 + year) + daysBefore month + if leap (1970 + year) ∧ 2 ≤ month then 1 else 0 := by
  have split : (12 * year + month) / 12 = year ∧ (12 * year + month) % 12 = month := by omega
  rw [firstDay, split.1, split.2]

/-- A month has 28 to 31 days. -/
theorem firstDay_succ (n : ℤ) : firstDay n + 28 ≤ firstDay (n + 1) ∧ firstDay (n + 1) ≤ firstDay n + 31 := by
  obtain ⟨year, month, low, high, rfl⟩ : ∃ year month : ℤ, 0 ≤ month ∧ month < 12 ∧ n = 12 * year + month :=
    ⟨n / 12, n % 12, by omega, by omega, by omega⟩
  rw [firstDay_eq low high]
  by_cases last : month = 11
  · subst last
    have next := newYearsDay_succ (1970 + year)
    have january : 12 * year + 11 + 1 = 12 * (year + 1) + 0 := by omega
    rw [january, firstDay_eq le_rfl (by omega), ← add_assoc, next]
    by_cases long : leap (1970 + year) <;> simp [daysBefore, long] <;> omega
  · rw [add_assoc (12 * year), firstDay_eq (by omega) (by omega)]
    by_cases long : leap (1970 + year)
    all_goals interval_cases month <;> simp [daysBefore, long] at last ⊢ <;> omega

theorem start_succ (n : ℤ) :
    start n + 28 * millisPerDay ≤ start (n + 1) ∧ start (n + 1) ≤ start n + 31 * millisPerDay := by
  have days := firstDay_succ n
  unfold start millisPerDay
  omega

theorem start_strictMono : StrictMono start := by
  apply strictMono_int_of_lt_succ
  intro n
  have next := (start_succ n).1
  unfold millisPerDay at next
  omega

/-- The months, in universal time. -/
noncomputable def months : Timeline := Timeline.ofStarts start start_strictMono

theorem number_nonneg (t : Nat) : 0 ≤ months.number t := by
  apply months.le_number_iff.mpr
  have epoch : months.start 0 = 0 := by
    change start 0 = 0
    decide
  omega

/-- The name of a month by its year and its number in the year. -/
def name (n : Nat) : Nat := 100 * (1970 + n / 12) + n % 12 + 1

theorem name_parts (n : Nat) : name n % 100 = n % 12 + 1 ∧ name n / 100 = 1970 + n / 12 := by
  unfold name
  omega

theorem name_injective : Function.Injective name := by
  intro n m same
  unfold name at same
  omega

example : start 649 = 1706745600000 := by decide

end EnerSentry.Lib.Gregorian
