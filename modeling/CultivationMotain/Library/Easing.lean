import Mathlib.Algebra.Order.Field.Basic
import Mathlib.Algebra.Order.Ring.Pow
import Mathlib.LinearAlgebra.AffineSpace.Ordered
import Mathlib.Tactic.Linarith
import Mathlib.Tactic.Ring

set_option autoImplicit false

namespace Easing

universe u

variable {K : Type u} [Field K]

-- A parabola that is one at both ends and falls below one between them.
def arc (depth left right t : K) : K := 1 - depth * ((t - left) * (right - t))

@[simp] theorem arc_left (depth left right : K) : arc depth left right left = 1 := by
  rw [arc, sub_self, zero_mul, mul_zero, sub_zero]

@[simp] theorem arc_right (depth left right : K) : arc depth left right right = 1 := by
  rw [arc, sub_self, mul_zero, mul_zero, sub_zero]

variable [LinearOrder K] [IsStrictOrderedRing K]

-- The parabola is lowest halfway, where it has fallen by a quarter of its depth
-- times the square of its width.
theorem arc_within (depth left right t : K) (nonneg : 0 ≤ depth) (shallow : depth * (right - left) ^ 2 ≤ 4)
    (after : left ≤ t) (before : t ≤ right) : 0 ≤ arc depth left right t ∧ arc depth left right t ≤ 1 := by
  have product : 0 ≤ (t - left) * (right - t) := mul_nonneg (sub_nonneg.mpr after) (sub_nonneg.mpr before)
  have halfway : 4 * ((t - left) * (right - t)) ≤ (right - left) ^ 2 := by
    have squares := four_mul_le_sq_add (t - left) (right - t)
    have width : t - left + (right - t) = right - left := by ring
    rwa [width, mul_assoc] at squares
  have fallen := mul_le_mul_of_nonneg_left halfway nonneg
  have fall := mul_nonneg nonneg product
  rw [arc]
  constructor <;> linarith

theorem line_between (start target t : K) (least : 0 ≤ t) (most : t ≤ 1) :
    min start target ≤ (target - start) * t + start ∧ (target - start) * t + start ≤ max start target := by
  rw [mul_comm, ← AffineMap.lineMap_apply_ring']
  constructor
  · have low := lineMap_mono_endpoints (min_le_left start target) (min_le_right start target) least most
    rwa [AffineMap.lineMap_same_apply] at low
  · have high := lineMap_mono_endpoints (le_max_left start target) (le_max_right start target) least most
    rwa [AffineMap.lineMap_same_apply] at high

end Easing
