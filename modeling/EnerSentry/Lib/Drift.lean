import Mathlib.Algebra.Order.Field.Basic
import Mathlib.Logic.Function.Iterate
import Mathlib.Tactic.Linarith
import Mathlib.Tactic.Ring

/-!
Two values that move step by step: one by the same distance each time, kept between two bounds, and one
that loses a fixed part of its distance to a level of rest. Where they are after any number of steps, in
closed form.
-/

namespace EnerSentry.Lib.Drift

section Clip
variable {K : Type*} [LinearOrder K]

/-- A value kept between two bounds. -/
def clip (lo hi x : K) : K := if x < lo then lo else if hi < x then hi else x

variable {lo hi x y : K}

theorem clip_mem (order : lo ≤ hi) (x : K) : lo ≤ clip lo hi x ∧ clip lo hi x ≤ hi := by
  unfold clip
  split
  · exact ⟨le_refl lo, order⟩
  · rename_i above
    split
    · exact ⟨order, le_refl hi⟩
    · rename_i below
      exact ⟨not_lt.mp above, not_lt.mp below⟩

theorem clip_self (low : lo ≤ x) (high : x ≤ hi) : clip lo hi x = x := by
  rw [clip, if_neg (not_lt.mpr low), if_neg (not_lt.mpr high)]

theorem clip_mono (order : lo ≤ hi) (less : x ≤ y) : clip lo hi x ≤ clip lo hi y := by
  by_cases low : x < lo
  · rw [clip, if_pos low]
    exact (clip_mem order y).1
  · by_cases high : hi < y
    · have above : ¬y < lo := not_lt.mpr (order.trans high.le)
      have top : clip lo hi y = hi := by rw [clip, if_neg above, if_pos high]
      rw [top]
      exact (clip_mem order x).2
    · rwa [clip_self (not_lt.mp low) (less.trans (not_lt.mp high)),
        clip_self ((not_lt.mp low).trans less) (not_lt.mp high)]

end Clip

section Steps
variable {K : Type*} [Field K] [LinearOrder K] [IsStrictOrderedRing K] {lo hi x d : K}

/-- After a way upwards, one more step upwards need not look back at the bound that was met. -/
theorem clip_clip_up {way : K} (inside : lo ≤ x) (order : lo ≤ hi) (up : 0 ≤ d) (done : 0 ≤ way) :
    clip lo hi (clip lo hi (x + way) + d) = clip lo hi (x + way + d) := by
  by_cases high : hi < x + way
  · have top : clip lo hi (x + way) = hi := by rw [clip, if_neg (by linarith), if_pos high]
    have beyond : hi < x + way + d := by linarith
    have bound : clip lo hi (x + way + d) = hi := by rw [clip, if_neg (by linarith), if_pos beyond]
    rw [top, bound]
    rcases up.eq_or_lt with still | moves
    · rw [← still, add_zero, clip_self order (le_refl hi)]
    · rw [clip, if_neg (by linarith), if_pos (by linarith)]
  · rw [clip_self (by linarith) (not_lt.mp high)]

theorem clip_clip_down {way : K} (inside : x ≤ hi) (order : lo ≤ hi) (down : d ≤ 0) (done : way ≤ 0) :
    clip lo hi (clip lo hi (x + way) + d) = clip lo hi (x + way + d) := by
  by_cases low : x + way < lo
  · have bottom : clip lo hi (x + way) = lo := by rw [clip, if_pos low]
    have bound : clip lo hi (x + way + d) = lo := by rw [clip, if_pos (by linarith)]
    rw [bottom, bound]
    rcases down.eq_or_lt with still | moves
    · rw [still, add_zero, clip_self (le_refl lo) order]
    · rw [clip, if_pos (by linarith)]
  · rw [clip_self (not_lt.mp low) (by linarith)]

/-- Steps of one size, each kept between the bounds, come to where one step of the whole way comes to. -/
theorem iterate_clip (low : lo ≤ x) (high : x ≤ hi) (n : Nat) :
    (fun y => clip lo hi (y + d))^[n] x = clip lo hi (x + n * d) := by
  have order := low.trans high
  induction n with
  | zero => rw [Function.iterate_zero, id, Nat.cast_zero, zero_mul, add_zero, clip_self low high]
  | succ n ih =>
    have way : x + ((n + 1 : Nat) : K) * d = x + n * d + d := by
      rw [Nat.cast_add_one]
      ring
    rw [Function.iterate_succ_apply', ih, way]
    have steps : (0 : K) ≤ n := Nat.cast_nonneg n
    rcases le_total 0 d with up | down
    · exact clip_clip_up low order up (mul_nonneg steps up)
    · exact clip_clip_down high order down (mul_nonpos_of_nonneg_of_nonpos steps down)

end Steps

section Relaxation
variable {K : Type*} [Field K] {level x r : K}

/-- One step towards the level of rest, which keeps the part `r` of the distance. -/
def relax (level r x : K) : K := level + r * (x - level)

theorem iterate_relax (n : Nat) : (relax level r)^[n] x = level + r ^ n * (x - level) := by
  induction n with
  | zero =>
    rw [Function.iterate_zero, id, pow_zero]
    ring
  | succ n ih =>
    rw [Function.iterate_succ_apply', ih, relax]
    ring

end Relaxation

end EnerSentry.Lib.Drift
