import Mathlib.Tactic.Common

set_option autoImplicit false

namespace Doubles

open Float.Model

theorem ordered_same (m n : Nat) (e f : Int) (same : (compare e f).then (compare m n) = .eq) : m = n ∧ e = f := by
  obtain ⟨exponents, mantissas⟩ := Ordering.then_eq_eq.mp same
  exact ⟨Nat.compare_eq_eq.mp mantissas, Std.LawfulEqCmp.eq_of_compare exponents⟩

-- Numbers that compare as equal are the same, but for the two zeros.
theorem compare_same (x y : UnpackedFloat) (same : x.compare y = some .eq) :
    x = y ∨ ∃ s t, x = .zero s ∧ y = .zero t := by
  cases x with
  | notANumber => cases same
  | infinity s =>
      cases y with
      | notANumber => cases same
      | infinity t => cases s <;> cases t <;> first | exact Or.inl rfl | cases same
      | zero t => cases s <;> cases same
      | finite t n f positive => cases s <;> cases same
  | zero s =>
      cases y with
      | notANumber => cases same
      | infinity t => cases t <;> cases same
      | zero t => exact Or.inr ⟨s, t, rfl, rfl⟩
      | finite t n f positive => cases t <;> cases same
  | finite s m e above =>
      cases y with
      | notANumber => cases same
      | infinity t => cases s <;> cases t <;> cases same
      | zero t => cases s <;> cases same
      | finite t n f positive =>
          cases s with
          | negative =>
              cases t with
              | negative =>
                  have equal := Option.some.inj same
                  obtain ⟨rfl, rfl⟩ := ordered_same m n e f (Ordering.swap_eq_eq.mp equal)
                  exact Or.inl rfl
              | positive => cases same
          | positive =>
              cases t with
              | negative => cases same
              | positive =>
                  obtain ⟨rfl, rfl⟩ := ordered_same m n e f (Option.some.inj same)
                  exact Or.inl rfl

theorem beq_compare (a b : Float) (same : (a == b) = true) :
    a.toModel.unpack.compare b.toModel.unpack = some .eq :=
  eq_of_beq same

-- What is finite and no zero.
def Proper (c : Float) : Prop := ∃ s m e above, c.toModel.unpack = .finite s m e above

theorem add_same (a b c : Float) (proper : Proper c) (same : (a == b) = true) : a + c = b + c := by
  obtain ⟨s, m, e, above, unpacked⟩ := proper
  have sums : UnpackedFloat.add Format.binary64 a.toModel.unpack c.toModel.unpack =
      UnpackedFloat.add Format.binary64 b.toModel.unpack c.toModel.unpack := by
    rcases compare_same _ _ (beq_compare a b same) with equal | ⟨t, u, first, second⟩
    · rw [equal]
    · rw [first, second, unpacked]
      rfl
  exact congrArg (fun sum => Float.ofModel (pack sum)) sums

theorem sub_same (a b c : Float) (proper : Proper c) (same : (a == b) = true) : a - c = b - c := by
  obtain ⟨s, m, e, above, unpacked⟩ := proper
  have differences : UnpackedFloat.sub Format.binary64 a.toModel.unpack c.toModel.unpack =
      UnpackedFloat.sub Format.binary64 b.toModel.unpack c.toModel.unpack := by
    rcases compare_same _ _ (beq_compare a b same) with equal | ⟨t, u, first, second⟩
    · rw [equal]
    · rw [first, second, unpacked]
      rfl
  exact congrArg (fun difference => Float.ofModel (pack difference)) differences

theorem compare_self (x : UnpackedFloat) (number : x ≠ .notANumber) : x.compare x = some .eq := by
  cases x with
  | notANumber => exact absurd rfl number
  | infinity s => cases s <;> rfl
  | zero s => rfl
  | finite s m e above =>
      have exponents : compare e e = .eq := Std.ReflCmp.compare_self
      have mantissas : compare m m = .eq := Std.ReflCmp.compare_self
      cases s with
      | negative =>
          change some ((compare e e).then (compare m m)).swap = some .eq
          rw [exponents, mantissas]
          rfl
      | positive =>
          change some ((compare e e).then (compare m m)) = some .eq
          rw [exponents, mantissas]
          rfl

theorem nan_unpacked : (pack .notANumber).unpack = .notANumber := rfl

theorem self_of_number (a : Float) (number : a.toModel.unpack ≠ .notANumber) : (a == a) = true := by
  change (a.toModel.unpack.compare a.toModel.unpack == some .eq) = true
  rw [compare_self _ number]
  rfl

-- What a sum or difference that is a number was made from is one.
theorem self_of_add (a c : Float) (same : (a + c == a + c) = true) : (a == a) = true := by
  refine self_of_number a fun nan => ?_
  have compared := beq_compare (a + c) (a + c) same
  have sum : (a + c).toModel.unpack = .notANumber := by
    change (pack (UnpackedFloat.add Format.binary64 a.toModel.unpack c.toModel.unpack)).unpack = _
    rw [nan]
    exact nan_unpacked
  rw [sum] at compared
  cases compared

theorem self_of_sub (a b c : Float) (same : (a - c == b) = true) : (a == a) = true := by
  refine self_of_number a fun nan => ?_
  have compared := beq_compare (a - c) b same
  have difference : (a - c).toModel.unpack = .notANumber := by
    change (pack (UnpackedFloat.sub Format.binary64 a.toModel.unpack c.toModel.unpack)).unpack = _
    rw [nan]
    exact nan_unpacked
  rw [difference] at compared
  cases compared

end Doubles
