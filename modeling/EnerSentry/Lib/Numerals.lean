import Mathlib.Algebra.Group.Int.Defs
import Mathlib.Algebra.Group.Nat.Defs
import Mathlib.Data.Char
import Mathlib.Data.Int.Notation
import Mathlib.Data.List.TakeWhile

/-!
Numerals in texts, and the conversion of a text to an unsigned machine word as the standard
library of the language has it: blanks and a sign may come first, digits are read as far as
they go, and a negative number is reduced to the width of the word.
-/

namespace EnerSentry.Lib.Numerals

def digitOf (c : Char) : Option Nat :=
  if '0' ≤ c ∧ c ≤ '9' then some (c.toNat - '0'.toNat)
  else if 'a' ≤ c ∧ c ≤ 'z' then some (c.toNat - 'a'.toNat + 10)
  else if 'A' ≤ c ∧ c ≤ 'Z' then some (c.toNat - 'A'.toNat + 10)
  else none

def isDigit (base : Nat) (c : Char) : Bool := (digitOf c).any (· < base)

def ofDigits (base : Nat) (digits : List Char) : Nat :=
  digits.foldl (fun n c => n * base + (digitOf c).getD 0) 0

def isSpace (c : Char) : Bool := c == ' ' || ('\t' ≤ c && c ≤ '\r')

/-- Whether a minus sign comes first, and the text behind the sign. -/
def splitSign : List Char → Bool × List Char
  | [] => (false, [])
  | c :: text => if c = '-' then (true, text) else if c = '+' then (false, text) else (false, c :: text)

def hexPrefix : List Char → Bool
  | a :: b :: _ => a == '0' && (b == 'x' || b == 'X')
  | _ => false

/-- A prefix that announces hexadecimal digits counts only where one follows. -/
def dropHexPrefix (text : List Char) : List Char :=
  if hexPrefix text && (text.drop 2).head?.any (isDigit 16) then text.drop 2 else text

/-- The conversion to a word of so many bits. -/
def stoul (bits base : Nat) (text : List Char) : Except String Nat :=
  let (negative, body) := splitSign (text.dropWhile isSpace)
  let run := (if base = 16 then dropHexPrefix body else body).takeWhile (isDigit base)
  if run.isEmpty then .error "stoul"
  else if 2 ^ bits ≤ ofDigits base run then .error "stoul"
  else .ok (if negative then (2 ^ bits - ofDigits base run) % 2 ^ bits else ofDigits base run)

/-- The number of a text of digits. -/
def unsigned (base : Nat) (text : List Char) : Option Nat :=
  if !text.isEmpty && text.all (isDigit base) then some (ofDigits base text) else none

/-- The number a text is: hexadecimal digits behind their prefix, or decimal ones with or
without a sign, and nothing else. -/
def numeral (text : List Char) : Option Int :=
  if hexPrefix text then (unsigned 16 (text.drop 2)).map fun n : Nat => (n : Int)
  else (unsigned 10 (splitSign text).2).map fun n : Nat => if (splitSign text).1 then -(n : Int) else n

section Rules
variable {bits base n : Nat} {text : List Char} {c : Char} {z : Int}

theorem unsigned_eq_some (found : unsigned base text = some n) :
    text ≠ [] ∧ (∀ c ∈ text, isDigit base c = true) ∧ ofDigits base text = n := by
  unfold unsigned at found
  split at found
  · rename_i digits
    rw [Bool.and_eq_true, Bool.not_eq_true', List.isEmpty_eq_false_iff, List.all_eq_true] at digits
    exact ⟨digits.1, digits.2, Option.some.inj found⟩
  · cases found

/-- A digit is no blank. -/
theorem isSpace_of_isDigit (digit : isDigit base c = true) : isSpace c = false := by
  by_contra blank
  rw [Bool.not_eq_false] at blank
  have none : digitOf c = none := by
    have small : c ≤ ' ' := by
      simp only [isSpace, Bool.or_eq_true, beq_iff_eq, Bool.and_eq_true, decide_eq_true_eq] at blank
      rcases blank with rfl | ⟨-, high⟩
      · exact le_refl _
      · exact high.trans (by decide)
    have below : ∀ d, ' ' < d → ¬ d ≤ c := fun d above le => absurd (above.trans_le (le.trans small)) (lt_irrefl _)
    rw [digitOf, if_neg fun h => below _ (by decide) h.1, if_neg fun h => below _ (by decide) h.1,
      if_neg fun h => below _ (by decide) h.1]
  rw [isDigit, none] at digit
  cases digit

theorem dropWhile_isSpace_cons (visible : isSpace c = false) :
    (c :: text).dropWhile isSpace = c :: text := by
  rw [List.dropWhile_cons, visible, if_neg Bool.false_ne_true]

theorem takeWhile_digits (digits : ∀ c ∈ text, isDigit base c = true) : text.takeWhile (isDigit base) = text :=
  List.takeWhile_eq_self_iff.mpr digits

theorem eq_cons_of_hexPrefix (announced : hexPrefix text = true) :
    ∃ x ds, text = '0' :: x :: ds := by
  unfold hexPrefix at announced
  split at announced
  · rename_i a b ds
    rw [Bool.and_eq_true, beq_iff_eq] at announced
    exact ⟨b, ds, announced.1 ▸ rfl⟩
  · cases announced

/-- A hexadecimal numeral that fits is converted to its number. -/
theorem stoul_hex (announced : hexPrefix text = true) (number : unsigned 16 (text.drop 2) = some n)
    (fits : n < 2 ^ bits) : stoul bits 16 text = .ok n := by
  obtain ⟨x, ds, rfl⟩ := eq_cons_of_hexPrefix announced
  obtain ⟨some, digits, rfl⟩ := unsigned_eq_some number
  rw [List.drop_succ_cons, List.drop_succ_cons, List.drop_zero] at some digits fits
  have follows : ds.head?.any (isDigit 16) = true := by
    cases ds with
    | nil => exact absurd rfl some
    | cons d ds => exact digits d List.mem_cons_self
  have body : dropHexPrefix ('0' :: x :: ds) = ds := by
    rw [dropHexPrefix, announced, List.drop_succ_cons, List.drop_succ_cons, List.drop_zero, follows]
    rfl
  have sign : splitSign ('0' :: x :: ds) = (false, '0' :: x :: ds) := rfl
  rw [stoul, dropWhile_isSpace_cons rfl, sign]
  simp only [↓reduceIte, body, takeWhile_digits digits, List.isEmpty_eq_false_iff.mpr some, Bool.false_eq_true,
    Nat.not_le.mpr fits, List.drop_succ_cons, List.drop_zero]

/-- A text of digits has neither a sign nor a prefix. -/
theorem splitSign_digits (digits : ∀ c ∈ text, isDigit base c = true) : splitSign text = (false, text) := by
  cases text with
  | nil => rfl
  | cons c rest =>
    have first := digits c List.mem_cons_self
    have minus : c ≠ '-' := by
      rintro rfl
      cases first
    have plus : c ≠ '+' := by
      rintro rfl
      cases first
    rw [splitSign, if_neg minus, if_neg plus]

theorem dropHexPrefix_digits (digits : ∀ c ∈ text, isDigit 16 c = true) : dropHexPrefix text = text := by
  rw [dropHexPrefix, if_neg]
  intro announced
  obtain ⟨prefixed, -⟩ := (Bool.and_eq_true _ _).mp announced
  unfold hexPrefix at prefixed
  split at prefixed
  · rename_i a b rest
    have second := digits b (List.mem_cons_of_mem a List.mem_cons_self)
    rw [Bool.and_eq_true, Bool.or_eq_true, beq_iff_eq, beq_iff_eq, beq_iff_eq] at prefixed
    rcases prefixed.2 with rfl | rfl <;> cases second
  · cases prefixed

/-- Hexadecimal digits mean the same with their prefix and without. -/
theorem stoul_prefixed (announced : hexPrefix text = true) (number : unsigned 16 (text.drop 2) = some n) :
    stoul bits 16 text = stoul bits 16 (text.drop 2) := by
  obtain ⟨x, ds, rfl⟩ := eq_cons_of_hexPrefix announced
  obtain ⟨some, digits, rfl⟩ := unsigned_eq_some number
  rw [List.drop_succ_cons, List.drop_succ_cons, List.drop_zero] at some digits ⊢
  have follows : ds.head?.any (isDigit 16) = true := by
    cases ds with
    | nil => exact absurd rfl some
    | cons d ds => exact digits d List.mem_cons_self
  have body : dropHexPrefix ('0' :: x :: ds) = ds := by
    rw [dropHexPrefix, announced, List.drop_succ_cons, List.drop_succ_cons, List.drop_zero, follows]
    rfl
  have visible : ds.dropWhile isSpace = ds := by
    cases ds with
    | nil => rfl
    | cons d ds => exact dropWhile_isSpace_cons (isSpace_of_isDigit (digits d List.mem_cons_self))
  have sign : splitSign ('0' :: x :: ds) = (false, '0' :: x :: ds) := rfl
  rw [stoul, stoul, dropWhile_isSpace_cons rfl, sign, visible, splitSign_digits digits]
  simp only [↓reduceIte, body, dropHexPrefix_digits digits]

/-- A decimal numeral that fits and is not negative is converted to its number. -/
theorem stoul_decimal (number : unsigned 10 (splitSign text).2 = some n) (fits : n < 2 ^ bits)
    (positive : (splitSign text).1 = true → n = 0) : stoul bits 10 text = .ok n := by
  obtain ⟨some, digits, rfl⟩ := unsigned_eq_some number
  have visible : text.dropWhile isSpace = text := by
    cases text with
    | nil => rfl
    | cons c rest =>
      apply dropWhile_isSpace_cons
      by_cases minus : c = '-'
      · exact minus ▸ rfl
      by_cases plus : c = '+'
      · exact plus ▸ rfl
      · have first : c ∈ (splitSign (c :: rest)).2 := by
          rw [splitSign, if_neg minus, if_neg plus]
          exact List.mem_cons_self
        exact isSpace_of_isDigit (digits c first)
  rw [stoul, visible]
  simp only [Nat.reduceEqDiff, ↓reduceIte, takeWhile_digits digits, List.isEmpty_eq_false_iff.mpr some,
    Bool.false_eq_true, Nat.not_le.mpr fits]
  split
  · rename_i minus
    rw [positive minus, Nat.sub_zero, Nat.mod_self]
  · rfl

/-- A text that is a number is converted to it, if the number is one of the word. -/
theorem stoul_of_numeral (number : numeral text = some z) (positive : 0 ≤ z) (fits : z < 2 ^ bits) :
    stoul bits (if hexPrefix text then 16 else 10) text = .ok z.toNat := by
  unfold numeral at number
  split at number
  · rename_i announced
    obtain ⟨n, found, rfl⟩ := Option.map_eq_some_iff.mp number
    rw [if_pos announced]
    exact stoul_hex announced found (by exact_mod_cast fits)
  · rename_i plain
    obtain ⟨n, found, same⟩ := Option.map_eq_some_iff.mp number
    rw [if_neg plain]
    cases minus : (splitSign text).1 with
    | true =>
      rw [minus, if_pos rfl] at same
      obtain rfl : n = 0 := by omega
      rw [← same]
      exact stoul_decimal found (Nat.two_pow_pos bits) fun _ => rfl
    | false =>
      rw [minus, if_neg Bool.false_ne_true] at same
      rw [← same, Int.toNat_natCast]
      apply stoul_decimal found
      · rw [← same] at fits
        exact_mod_cast fits
      · intro negative
        rw [minus] at negative
        cases negative

end Rules

end EnerSentry.Lib.Numerals
