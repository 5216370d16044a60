import Mathlib.Algebra.Order.Monoid.Defs
import Mathlib.Order.Lattice

set_option autoImplicit false

namespace Dealing

universe u

variable {α : Type u}

-- Items are dealt in turn onto a number of columns; the height of one of them
-- after the first items.
def total [AddCommMonoid α] (heights : Nat → α) (columns column : Nat) : Nat → α
  | 0 => 0
  | count + 1 => total heights columns column count + if count % columns = column then heights count else 0

structure Tallest [AddCommMonoid α] [LE α] (heights : Nat → α) (columns count : Nat) (height : α) : Prop where
  reached : ∃ column, column < columns ∧ total heights columns column count = height
  bound : ∀ column, column < columns → total heights columns column count ≤ height

section Totals

variable [AddCommMonoid α] (heights : Nat → α) (columns column : Nat)

theorem total_dealt (count : Nat) :
    total heights columns (count % columns) (count + 1) =
      total heights columns (count % columns) count + heights count := by
  rw [total, if_pos rfl]

theorem total_other (count : Nat) (other : count % columns ≠ column) :
    total heights columns column (count + 1) = total heights columns column count := by
  rw [total, if_neg other, add_zero]

theorem total_congr (others : Nat → α) (count : Nat) (same : ∀ item, item < count → heights item = others item) :
    total heights columns column count = total others columns column count := by
  induction count with
  | zero => rfl
  | succ count ih =>
      rw [total, total, ih fun item before => same item (Nat.lt_succ_of_lt before), same count (Nat.lt_succ_self count)]

end Totals

section Order

variable [AddCommMonoid α] [PartialOrder α] (heights : Nat → α) (columns column : Nat)

theorem tallest_zero (positive : 0 < columns) : Tallest heights columns 0 0 :=
  ⟨⟨0, positive, rfl⟩, fun _ _ => le_refl _⟩

theorem tallest_unique (count : Nat) (first second : α) (one : Tallest heights columns count first)
    (other : Tallest heights columns count second) : first = second := by
  obtain ⟨column, below, reached⟩ := one.reached
  obtain ⟨column', below', reached'⟩ := other.reached
  exact le_antisymm (reached ▸ other.bound column below) (reached' ▸ one.bound column' below')

end Order

section Nonnegative

variable [AddCommMonoid α] [LinearOrder α] [IsOrderedAddMonoid α] (heights : Nat → α) (columns column : Nat)
  (nonneg : ∀ item, 0 ≤ heights item)
include nonneg

theorem total_le_succ (count : Nat) :
    total heights columns column count ≤ total heights columns column (count + 1) := by
  by_cases dealt : count % columns = column
  · rw [← dealt, total_dealt]
    exact le_add_of_nonneg_right (nonneg count)
  · rw [total_other heights columns column count dealt]

theorem total_mono (first second : Nat) (before : first ≤ second) :
    total heights columns column first ≤ total heights columns column second := by
  induction before with
  | refl => exact le_refl _
  | step _ ih => exact ih.trans (total_le_succ heights columns column nonneg _)

theorem total_nonneg (count : Nat) : 0 ≤ total heights columns column count :=
  total_mono heights columns column nonneg 0 count (Nat.zero_le count)

theorem total_before (first second : Nat) (before : first < second) :
    total heights columns (first % columns) first + heights first ≤ total heights columns (first % columns) second := by
  rw [← total_dealt]
  exact total_mono heights columns _ nonneg (first + 1) second before

theorem tallest_succ (count : Nat) (height : α) (positive : 0 < columns)
    (tallest : Tallest heights columns count height) :
    Tallest heights columns (count + 1)
      (max height (total heights columns (count % columns) count + heights count)) := by
  rw [← total_dealt]
  constructor
  · rcases le_total height (total heights columns (count % columns) (count + 1)) with grown | same
    · exact ⟨count % columns, Nat.mod_lt count positive, (max_eq_right grown).symm⟩
    · obtain ⟨column, below, reached⟩ := tallest.reached
      refine ⟨column, below, ?_⟩
      rw [max_eq_left same]
      by_cases dealt : count % columns = column
      · have grown := total_le_succ heights columns column nonneg count
        rw [reached] at grown
        exact le_antisymm (dealt ▸ same) grown
      · rw [total_other heights columns column count dealt, reached]
  · intro column below
    by_cases dealt : count % columns = column
    · exact dealt ▸ le_max_right _ _
    · rw [total_other heights columns column count dealt]
      exact (tallest.bound column below).trans (le_max_left _ _)

end Nonnegative

end Dealing
