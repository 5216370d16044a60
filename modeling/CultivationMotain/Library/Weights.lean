import Mathlib.Algebra.BigOperators.Group.List.Basic
import Mathlib.Algebra.Order.BigOperators.Group.List
import Mathlib.Algebra.Order.Ring.Nat

set_option autoImplicit false

namespace Weights

universe u

variable {π : Type u}

def weigh (weight : π → Nat) (items : List π) : Nat := (items.map weight).sum

theorem weigh_set (weight : π → Nat) (items : List π) (index : Nat) (point moved : π)
    (found : items[index]? = some point) :
    weigh weight (items.set index moved) + weight point = weigh weight items + weight moved := by
  induction items generalizing index with
  | nil => cases found
  | cons head rest ih =>
      cases index with
      | zero =>
          cases Option.some.inj found
          simp only [weigh, List.set_cons_zero, List.map_cons, List.sum_cons]
          omega
      | succ index =>
          have later := ih index found
          simp only [weigh, List.set_cons_succ, List.map_cons, List.sum_cons] at later ⊢
          omega

theorem weigh_same (weight : π → Nat) (items : List π) (index : Nat) (point moved : π)
    (found : items[index]? = some point) (same : weight moved = weight point) :
    weigh weight (items.set index moved) = weigh weight items := by
  have moves := weigh_set weight items index point moved found
  omega

-- What the other items weigh.
theorem weigh_erase (weight : π → Nat) (items : List π) (index : Nat) (point : π)
    (found : items[index]? = some point) :
    weigh weight (items.eraseIdx index) + weight point = weigh weight items := by
  induction items generalizing index with
  | nil => cases found
  | cons head rest ih =>
      cases index with
      | zero =>
          cases Option.some.inj found
          simp only [weigh, List.eraseIdx_cons_zero, List.map_cons, List.sum_cons]
          omega
      | succ index =>
          have later := ih index found
          simp only [weigh, List.eraseIdx_cons_succ, List.map_cons, List.sum_cons] at later ⊢
          omega

theorem weight_le_weigh (weight : π → Nat) (items : List π) (point : π) (member : point ∈ items) :
    weight point ≤ weigh weight items :=
  List.single_le_sum (fun _ _ => Nat.zero_le _) _ (List.mem_map_of_mem member)

theorem weigh_eq_zero_iff (weight : π → Nat) (items : List π) :
    weigh weight items = 0 ↔ ∀ point ∈ items, weight point = 0 := by
  rw [weigh, List.sum_eq_zero_iff]
  exact List.forall_mem_map

theorem exists_of_weigh_pos (weight : π → Nat) (items : List π) (positive : 0 < weigh weight items) :
    ∃ point ∈ items, weight point ≠ 0 := by
  by_contra nobody
  push Not at nobody
  exact positive.ne' ((weigh_eq_zero_iff weight items).mpr nobody)

theorem weigh_mono (light heavy : π → Nat) (items : List π) (less : ∀ point, light point ≤ heavy point) :
    weigh light items ≤ weigh heavy items := by
  induction items with
  | nil => exact Nat.le_refl 0
  | cons point rest ih =>
      have here := less point
      simp only [weigh, List.map_cons, List.sum_cons] at ih ⊢
      omega

theorem weigh_replicate (weight : π → Nat) (count : Nat) (point : π) :
    weigh weight (List.replicate count point) = count * weight point := by
  rw [weigh, List.map_replicate, List.sum_replicate, Nat.nsmul_eq_mul]

theorem weigh_le_mul (weight : π → Nat) (items : List π) (most : Nat) (small : ∀ point, weight point ≤ most) :
    weigh weight items ≤ items.length * most := by
  have bound := List.sum_le_card_nsmul (items.map weight) most fun value member => by
    obtain ⟨point, -, rfl⟩ := List.mem_map.mp member
    exact small point
  rwa [List.length_map, Nat.nsmul_eq_mul] at bound

theorem weigh_le_length (weight : π → Nat) (items : List π) (small : ∀ point, weight point ≤ 1) :
    weigh weight items ≤ items.length := by
  have bound := weigh_le_mul weight items 1 small
  rwa [Nat.mul_one] at bound

end Weights
