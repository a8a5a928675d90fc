import Mathlib.Algebra.Order.Field.Basic

/-!
Floating-point values with their special ones: two infinities and the value that is no number.
The special values follow the rules of floating-point arithmetic, and the arithmetic on
numbers is exact. There is one zero only.
-/

namespace EnerSentry.Lib

inductive Floating (K : Type*) where
  | num (x : K)
  | infinity
  | negInfinity
  | nan
  deriving DecidableEq, Repr

namespace Floating

variable {K : Type*}

def Finite : Floating K → Prop
  | num _ => True
  | _ => False

theorem exists_num {x : Floating K} (finite : x.Finite) : ∃ a, x = num a := by
  cases x with
  | num a => exact ⟨a, rfl⟩
  | infinity => exact finite.elim
  | negInfinity => exact finite.elim
  | nan => exact finite.elim

section Order

/-- No value is in order with one that is no number. -/
def less [LT K] : Floating K → Floating K → Prop
  | num a, num b => a < b
  | num _, infinity => True
  | negInfinity, num _ => True
  | negInfinity, infinity => True
  | _, _ => False

instance [LT K] : LT (Floating K) := ⟨less⟩

instance [LT K] [DecidableLT K] : DecidableLT (Floating K)
  | num a, num b => inferInstanceAs (Decidable (a < b))
  | num _, infinity => isTrue trivial
  | num _, negInfinity => isFalse id
  | num _, nan => isFalse id
  | infinity, _ => isFalse id
  | negInfinity, num _ => isTrue trivial
  | negInfinity, infinity => isTrue trivial
  | negInfinity, negInfinity => isFalse id
  | negInfinity, nan => isFalse id
  | nan, _ => isFalse id

end Order

theorem num_lt [LT K] {a b : K} : num a < num b ↔ a < b := Iff.rfl

section Arithmetic
variable [Field K]

instance : Zero (Floating K) := ⟨num 0⟩

instance : IntCast (Floating K) := ⟨fun n => num n⟩

def neg : Floating K → Floating K
  | num a => num (-a)
  | infinity => negInfinity
  | negInfinity => infinity
  | nan => nan

def add : Floating K → Floating K → Floating K
  | num a, num b => num (a + b)
  | num _, y => y
  | x, num _ => x
  | infinity, infinity => infinity
  | negInfinity, negInfinity => negInfinity
  | _, _ => nan

instance : Neg (Floating K) := ⟨neg⟩
instance : Add (Floating K) := ⟨add⟩
instance : Sub (Floating K) := ⟨fun x y => x + -y⟩

variable {a b : K}

theorem num_neg : -num a = num (-a) := rfl

theorem num_add : num a + num b = num (a + b) := rfl

theorem num_sub : num a - num b = num (a - b) := by
  calc num a - num b = num (a + -b) := rfl
    _ = num (a - b) := by rw [sub_eq_add_neg]

/-- A difference is finite only between finite values. -/
theorem not_finite_sub {x y : Floating K} (special : ¬x.Finite ∨ ¬y.Finite) : ¬(x - y).Finite := by
  cases x with
  | num a =>
    have other : ¬y.Finite := special.resolve_left fun special => special trivial
    cases y with
    | num b => exact absurd trivial other
    | infinity => exact id
    | negInfinity => exact id
    | nan => exact id
  | infinity => cases y <;> exact id
  | negInfinity => cases y <;> exact id
  | nan => cases y <;> exact id

variable [LinearOrder K]

/-- The infinity on the side of a number; there is none on the side of zero. -/
def towards (a : K) : Floating K := if 0 < a then infinity else if a < 0 then negInfinity else nan

def mul : Floating K → Floating K → Floating K
  | nan, _ => nan
  | _, nan => nan
  | num a, num b => num (a * b)
  | num a, infinity => towards a
  | num a, negInfinity => neg (towards a)
  | infinity, num b => towards b
  | negInfinity, num b => neg (towards b)
  | infinity, infinity => infinity
  | negInfinity, negInfinity => infinity
  | _, _ => negInfinity

def div : Floating K → Floating K → Floating K
  | nan, _ => nan
  | _, nan => nan
  | num a, num b => if b = 0 then towards a else num (a / b)
  | num _, _ => num 0
  | infinity, num b => if b < 0 then negInfinity else infinity
  | negInfinity, num b => if b < 0 then infinity else negInfinity
  | _, _ => nan

instance : Mul (Floating K) := ⟨mul⟩
instance : Div (Floating K) := ⟨div⟩

theorem num_mul : num a * num b = num (a * b) := rfl

theorem num_div (nonzero : b ≠ 0) : num a / num b = num (a / b) := if_neg nonzero

theorem infinity_mul (positive : 0 < a) : infinity * num a = infinity := if_pos positive

/-- How far a value is from zero. -/
def magnitude (x : Floating K) : Floating K := if x < 0 then -x else x

theorem magnitude_num [IsStrictOrderedRing K] (a : K) : (num a).magnitude = num |a| := by
  by_cases negative : a < 0
  · calc (num a).magnitude = -num a := if_pos negative
      _ = num |a| := by rw [num_neg, abs_of_neg negative]
  · calc (num a).magnitude = num a := if_neg negative
      _ = num |a| := by rw [abs_of_nonneg (not_lt.mp negative)]

/-- What is at least zero is a number or infinite. -/
theorem finite_or_infinity {x : Floating K} (forward : x = 0 ∨ 0 < x) : (∃ r, x = .num r) ∨ x = .infinity := by
  rcases forward with rfl | onward
  · exact Or.inl ⟨0, rfl⟩
  · cases x with
    | num r => exact Or.inl ⟨r, rfl⟩
    | infinity => exact Or.inr rfl
    | negInfinity => exact onward.elim
    | nan => exact onward.elim

theorem magnitude_not_lt {x : Floating K} (special : ¬x.Finite) : ¬x.magnitude < num a := by
  cases x with
  | num b => exact absurd trivial special
  | infinity => exact id
  | negInfinity => exact id
  | nan => exact id

end Arithmetic

end Floating
end EnerSentry.Lib
