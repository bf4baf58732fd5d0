import Mathlib.Algebra.Order.Group.Unbundled.Int
import Mathlib.Tactic.Linarith
import Mathlib.Tactic.Ring

set_option autoImplicit false

/-!
# Weights in fixed point

A weight counts parts of a positive whole `q`. Scaling and blending divide by
`q` and round down, so what holds of the exact value holds of the rounded one
wherever its bounds are whole numbers.
-/

namespace FixedPoint

def scale (q x g : Int) : Int := x * g / q

def blend (q x y a : Int) : Int := (x * (q - a) + y * a) / q

section

variable {q : Int} (positive : 0 < q)

include positive

theorem blend_between {x y a : Int} (low : 0 ≤ a) (high : a ≤ q) :
    min x y ≤ blend q x y a ∧ blend q x y a ≤ max x y := by
  have rest : 0 ≤ q - a := by omega
  constructor
  next =>
    rw [blend, Int.le_ediv_iff_mul_le positive]
    have first := mul_le_mul_of_nonneg_right (min_le_left x y) rest
    have second := mul_le_mul_of_nonneg_right (min_le_right x y) low
    linarith
  next =>
    apply Int.ediv_le_of_le_mul positive
    have first := mul_le_mul_of_nonneg_right (le_max_left x y) rest
    have second := mul_le_mul_of_nonneg_right (le_max_right x y) low
    linarith

-- A weight of at most one part in `d` moves at most that part of the way, and rounding one more.
theorem blend_step {x y a d : Int} (low : 0 ≤ a) (split : 0 < d) (part : a * d ≤ q) :
    |blend q x y a - x| ≤ |y - x| / d + 1 := by
  have moved : blend q x y a - x = (y - x) * a / q := by
    have exact : x * (q - a) + y * a = (y - x) * a + x * q := by ring
    rw [blend, exact, Int.add_mul_ediv_right _ _ positive.ne']
    omega
  have far : |y - x| * a * d ≤ |y - x| * q := by
    rw [Int.mul_assoc]
    exact mul_le_mul_of_nonneg_left part (abs_nonneg _)
  have reach : |y - x| * a / q ≤ |y - x| / d := by
    rw [Int.le_ediv_iff_mul_le split]
    have floor := Int.ediv_mul_le (|y - x| * a) positive.ne'
    apply le_of_mul_le_mul_right _ positive
    calc |y - x| * a / q * d * q = |y - x| * a / q * q * d := by ring
      _ ≤ |y - x| * a * d := mul_le_mul_of_nonneg_right floor split.le
      _ ≤ |y - x| * q := far
  rw [moved]
  rcases abs_cases (y - x) with ⟨size, _⟩ | ⟨size, _⟩
  next =>
    rw [size] at reach ⊢
    have up : 0 ≤ (y - x) * a / q := Int.ediv_nonneg (mul_nonneg (by omega) low) positive.le
    rw [abs_of_nonneg up]
    omega
  next =>
    rw [size, neg_mul] at reach
    rw [size]
    have above := Int.lt_ediv_add_one_mul_self (-((y - x) * a)) positive
    have bottom : -(-((y - x) * a) / q + 1) ≤ (y - x) * a / q := by
      rw [Int.le_ediv_iff_mul_le positive]
      linarith
    have down : (y - x) * a / q ≤ 0 := by
      apply Int.ediv_le_of_le_mul positive
      rw [zero_mul]
      exact mul_nonpos_of_nonpos_of_nonneg (by omega) low
    rw [abs_of_nonpos down]
    omega

-- Towards zero a smaller weight never gives more: up for negative values, down for the others.
theorem scale_antitone {x g h : Int} (less : h ≤ g) :
    (0 ≤ x → scale q x h ≤ scale q x g) ∧ (x ≤ 0 → scale q x g ≤ scale q x h) :=
  ⟨fun sign => Int.ediv_le_ediv positive (mul_le_mul_of_nonneg_left less sign),
    fun sign => Int.ediv_le_ediv positive (mul_le_mul_of_nonpos_left less sign)⟩

theorem scale_whole (x : Int) : scale q x q = x := Int.mul_ediv_cancel x positive.ne'

omit positive in
theorem scale_none (x : Int) : scale q x 0 = 0 := by simp [scale]

theorem scale_sign {x g : Int} (low : 0 ≤ g) :
    (0 ≤ x → 0 ≤ scale q x g) ∧ (x ≤ 0 → scale q x g ≤ 0) := by
  simpa [scale_none] using scale_antitone positive (x := x) low

theorem scale_abs {x g h : Int} (low : 0 ≤ h) (less : h ≤ g) : |scale q x h| ≤ |scale q x g| := by
  rcases le_total 0 x with sign | sign
  next =>
    rw [abs_of_nonneg ((scale_sign positive low).1 sign),
      abs_of_nonneg ((scale_sign positive (low.trans less)).1 sign)]
    exact (scale_antitone positive less).1 sign
  next =>
    rw [abs_of_nonpos ((scale_sign positive low).2 sign),
      abs_of_nonpos ((scale_sign positive (low.trans less)).2 sign)]
    exact neg_le_neg ((scale_antitone positive less).2 sign)

end

end FixedPoint
