import Mathlib.Algebra.Order.Field.Rat
import Mathlib.Data.Nat.Log
import Mathlib.Tactic.Positivity
import Mathlib.Tactic.Ring

set_option autoImplicit false

namespace Rounding

-- A format has the multiples of 2^-low whose digits, from the first that is not
-- zero, are at most precision many, and which are below 2^(top - low).
structure Format where
  precision : Nat
  low : Nat
  top : Nat
  some_digits : 0 < precision

def units (format : Format) (x : Rat) : Nat := (x * 2 ^ format.low).num.natAbs

-- How many of the last digits have to be zero.
def exponent (format : Format) (count : Nat) : Nat := Nat.log2 count + 1 - format.precision

structure Representable (format : Format) (x : Rat) : Prop where
  whole : (x * 2 ^ format.low).den = 1
  rounded : 2 ^ exponent format (units format x) ∣ units format x
  bounded : units format x < 2 ^ format.top

-- To the nearest, and to the even one of two.
def divideEven (a b : Nat) : Nat :=
  if 2 * (a % b) < b then a / b else if b < 2 * (a % b) then a / b + 1 else a / b + a / b % 2

def nearestUnits (format : Format) (x : Rat) : Nat :=
  let scaled := x.num.natAbs * 2 ^ format.low
  let digits := exponent format (scaled / x.den)
  divideEven scaled (x.den * 2 ^ digits) * 2 ^ digits

-- none: an infinity.
def nearest (format : Format) (x : Rat) : Option Rat :=
  if nearestUnits format x < 2 ^ format.top then some (x.num.sign * nearestUnits format x / 2 ^ format.low) else none

theorem divide_even_le (a b most : Nat) (fits : a < b * most) : divideEven a b ≤ most := by
  have quotient : a / b < most := Nat.div_lt_of_lt_mul fits
  have odd := Nat.mod_lt (a / b) Nat.two_pos
  unfold divideEven
  split_ifs <;> omega

theorem divide_even_exact (a b : Nat) (positive : 0 < b) : divideEven (a * b) b = a := by
  rw [divideEven, Nat.mul_mod_left, if_pos (by omega), Nat.mul_div_cancel a positive]

theorem exponent_bound (format : Format) (count : Nat) : count < 2 ^ (format.precision + exponent format count) := by
  refine Nat.lt_of_lt_of_le (Nat.lt_log2_self (n := count)) (Nat.pow_le_pow_right Nat.two_pos ?_)
  rw [exponent]
  omega

-- The carry into one more digit leaves a power of two.
theorem multiple_rounded (format : Format) (count digits : Nat) (few : count ≤ 2 ^ format.precision) :
    2 ^ exponent format (count * 2 ^ digits) ∣ count * 2 ^ digits := by
  rcases Nat.eq_or_lt_of_le few with carried | less
  · rw [carried, ← Nat.pow_add]
    refine Nat.pow_dvd_pow 2 ?_
    rw [exponent, Nat.log2_two_pow]
    have some_digits := format.some_digits
    omega
  · refine Nat.dvd_mul_left_of_dvd (Nat.pow_dvd_pow 2 ?_) count
    rw [exponent]
    by_cases none : count * 2 ^ digits = 0
    · rw [none, Nat.log2_zero]
      have some_digits := format.some_digits
      omega
    · have bound : count * 2 ^ digits < 2 ^ (format.precision + digits) := by
        rw [Nat.pow_add]
        exact Nat.mul_lt_mul_of_pos_right less (Nat.two_pow_pos digits)
      have log := (Nat.log2_lt none).mpr bound
      omega

theorem units_of_sign (format : Format) (sign : Int) (count : Nat) (unit_sign : sign.natAbs = 1 ∨ count = 0) :
    ((sign * count / 2 ^ format.low : Rat) * 2 ^ format.low).den = 1 ∧
      units format (sign * count / 2 ^ format.low) = count := by
  have scaled : (sign * count / 2 ^ format.low : Rat) * 2 ^ format.low = ((sign * count : Int) : Rat) := by
    rw [div_mul_cancel₀ _ (pow_ne_zero _ two_ne_zero), Int.cast_mul, Int.cast_natCast]
  rw [units, scaled, Rat.den_intCast, Rat.num_intCast, Int.natAbs_mul, Int.natAbs_natCast]
  refine ⟨rfl, ?_⟩
  rcases unit_sign with one | none
  · rw [one, Nat.one_mul]
  · rw [none, Nat.mul_zero]

theorem nearest_units_few (format : Format) (x : Rat) :
    ∃ count digits, count ≤ 2 ^ format.precision ∧ nearestUnits format x = count * 2 ^ digits := by
  refine ⟨_, _, divide_even_le _ _ _ ?_, rfl⟩
  have bound := exponent_bound format (x.num.natAbs * 2 ^ format.low / x.den)
  rw [Nat.div_lt_iff_lt_mul x.den_pos] at bound
  rw [Nat.mul_assoc, ← Nat.pow_add, Nat.mul_comm x.den, Nat.add_comm]
  exact bound

theorem nearest_units_zero (format : Format) : nearestUnits format 0 = 0 := by
  simp [nearestUnits, divideEven]

theorem nearest_representable (format : Format) (x y : Rat) (rounds : nearest format x = some y) :
    Representable format y := by
  obtain ⟨count, digits, few, multiple⟩ := nearest_units_few format x
  rw [nearest] at rounds
  by_cases fits : nearestUnits format x < 2 ^ format.top
  · rw [if_pos fits] at rounds
    have signs : x.num.sign.natAbs = 1 ∨ nearestUnits format x = 0 := by
      by_cases zero : x = 0
      · exact Or.inr (zero ▸ nearest_units_zero format)
      · exact Or.inl (Int.natAbs_sign_of_ne_zero (Rat.num_ne_zero.mpr zero))
    obtain ⟨whole, same⟩ := units_of_sign format x.num.sign (nearestUnits format x) signs
    cases Option.some.inj rounds
    refine ⟨whole, ?_, by rw [same]; exact fits⟩
    rw [same, multiple]
    exact multiple_rounded format count digits few
  · rw [if_neg fits] at rounds
    cases rounds

theorem scaled_num (format : Format) (x : Rat) (whole : (x * 2 ^ format.low).den = 1) :
    (x * 2 ^ format.low).num * x.den = x.num * 2 ^ format.low := by
  have integer : ((x * 2 ^ format.low).num : Rat) = x * 2 ^ format.low := (Rat.den_eq_one_iff _).mp whole
  have cast : (((x * 2 ^ format.low).num * x.den : Int) : Rat) = ((x.num * 2 ^ format.low : Int) : Rat) := by
    push_cast
    rw [integer, mul_right_comm, Rat.mul_den_eq_num]
  exact_mod_cast cast

theorem signed_units (format : Format) (x : Rat) (whole : (x * 2 ^ format.low).den = 1) :
    (x.num.sign * units format x / 2 ^ format.low : Rat) = x := by
  have integer : ((x * 2 ^ format.low).num : Rat) = x * 2 ^ format.low := (Rat.den_eq_one_iff _).mp whole
  have signs := congrArg Int.sign (scaled_num format x whole)
  have power : ((2 : Int) ^ format.low).sign = 1 := Int.sign_eq_one_of_pos (by positivity)
  rw [Int.sign_mul, Int.sign_mul, Int.sign_natCast_of_ne_zero x.den_nz, power, Int.mul_one, Int.mul_one] at signs
  have product : x.num.sign * (units format x : Int) = (x * 2 ^ format.low).num := by
    rw [← signs, units, Int.sign_mul_natAbs]
  have cast : (x.num.sign * units format x : Rat) = ((x * 2 ^ format.low).num : Rat) := by
    rw [← product]
    push_cast
    rfl
  rw [cast, integer, mul_div_cancel_right₀ _ (pow_ne_zero _ two_ne_zero)]

theorem nearest_of_representable (format : Format) (x : Rat) (fits : Representable format x) :
    nearest format x = some x := by
  have scaled : x.num.natAbs * 2 ^ format.low = units format x * x.den := by
    have sizes := congrArg Int.natAbs (scaled_num format x fits.whole)
    rw [Int.natAbs_mul, Int.natAbs_mul, Int.natAbs_natCast, Int.natAbs_pow] at sizes
    exact sizes.symm
  have whole : x.num.natAbs * 2 ^ format.low / x.den = units format x := by
    rw [scaled, Nat.mul_div_cancel _ x.den_pos]
  obtain ⟨count, multiple⟩ := fits.rounded
  have product : x.num.natAbs * 2 ^ format.low = count * (x.den * 2 ^ exponent format (units format x)) := by
    calc x.num.natAbs * 2 ^ format.low = 2 ^ exponent format (units format x) * count * x.den := by
          rw [scaled]
          exact congrArg (· * x.den) multiple
      _ = count * (x.den * 2 ^ exponent format (units format x)) := by ring
  have same : nearestUnits format x = units format x := by
    rw [nearestUnits, whole, product, divide_even_exact _ _ (Nat.mul_pos x.den_pos (Nat.two_pow_pos _))]
    exact (Nat.mul_comm _ _).trans multiple.symm
  rw [nearest, same, if_pos fits.bounded, signed_units format x fits.whole]

inductive Value (format : Format) where
  | number (value : Rat) (fits : Representable format value)
  | infinity (negative : Bool)
deriving DecidableEq, Repr

def Value.value? {format : Format} : Value format → Option Rat
  | .number value _ => some value
  | .infinity _ => none

def convert (format : Format) (x : Rat) : Value format :=
  match rounds : nearest format x with
  | some value => .number value (nearest_representable format x value rounds)
  | none => .infinity (decide (x < 0))

theorem convert_representable (format : Format) (x : Rat) (fits : Representable format x) :
    convert format x = .number x fits := by
  have rounds := nearest_of_representable format x fits
  unfold convert
  split
  · next value found =>
      cases rounds.symm.trans found
      rfl
  · next found => cases rounds.symm.trans found

end Rounding
