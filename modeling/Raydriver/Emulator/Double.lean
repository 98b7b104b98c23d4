import Raydriver.Emulator.Words
import Raydriver.Grbl.Numerals
import Mathlib.Data.Int.Log

/-!
# The emulator on rounded floats

Most of what is proved of the emulator holds over any type of floats.  Where rounding matters,
the floats are rationals of which every operation keeps 53 binary digits, rounded to the nearest
and to the even one of two.  That is what doubles do between the smallest normal number and the
largest; there is no infinity and no signed zero.

## Main definitions

* `round53` — a rational with 53 binary digits.
* `Double` — the floats whose operations round.
* `Values` — the rationals that floats stand for.

## Main results

* `abs_round53_sub_le` — the error of one rounding.
-/

namespace Raydriver.Emulator

/-- The nearest rational with 53 binary digits. -/
def round53 (v : ℚ) : ℚ :=
  let ulp : ℚ := 2 ^ (Int.log 2 |v| - 52)
  roundHalfEven (v / ulp) * ulp

/-- **The error of one rounding** is at most half a unit of the last digit. -/
theorem abs_round53_sub_le (v : ℚ) : |round53 v - v| ≤ |v| / 2 ^ 53 := by
  by_cases hv : v = 0
  · subst hv
    have hzero : round53 0 = 0 := by decide +kernel
    rw [hzero]
    simp
  · have hpos : 0 < |v| := abs_pos.mpr hv
    have hlog : (2 : ℚ) ^ Int.log 2 |v| ≤ |v| := by
      exact_mod_cast Int.zpow_log_le_self Nat.one_lt_two hpos
    set ulp : ℚ := 2 ^ (Int.log 2 |v| - 52) with hulp
    have hulp0 : 0 < ulp := zpow_pos two_pos _
    have hsize : ulp * 2 ^ 52 = 2 ^ Int.log 2 |v| := by
      rw [hulp, ← zpow_natCast, ← zpow_add₀ two_ne_zero]
      norm_num
    have herror : round53 v - v = (roundHalfEven (v / ulp) - v / ulp) * ulp := by
      rw [sub_mul, div_mul_cancel₀ v hulp0.ne']
      rfl
    rw [herror, abs_mul, abs_of_pos hulp0]
    calc |(roundHalfEven (v / ulp) : ℚ) - v / ulp| * ulp ≤ 1 / 2 * ulp :=
          mul_le_mul_of_nonneg_right (abs_roundHalfEven_sub_le _) hulp0.le
      _ = 2 ^ Int.log 2 |v| / 2 ^ 53 := by rw [← hsize]; ring
      _ ≤ |v| / 2 ^ 53 := div_le_div_of_nonneg_right hlog (by positivity)

/-- A float by its value. -/
structure Double where
  value : ℚ
  deriving DecidableEq, Repr

/-- The result of an operation. -/
def Double.rounded (v : ℚ) : Double := ⟨round53 v⟩

/-- Every operation that yields a float rounds the exact result. -/
instance : PyFloat Double where
  add a b := .rounded (a.value + b.value)
  sub a b := .rounded (a.value - b.value)
  mul a b := .rounded (a.value * b.value)
  div a b := .rounded (a.value / b.value)
  lt a b := decide (a.value < b.value)
  eq a b := decide (a.value = b.value)
  ofInt v := .rounded v
  decimal t := .rounded (decimalValue t)
  parse t := (PyFloat.parse t : Option ℚ).map .rounded
  trunc v := PyFloat.trunc v.value
  round v := PyFloat.round v.value
  dist x y z := .rounded (PyFloat.dist x.value y.value z.value)
  fixed n v := fixedDecimal n v.value

/-- The rationals that floats stand for: a float is printed as the nearest decimal. -/
structure Values (F : Type) [PyFloat F] where
  value : F → ℚ
  fixed : ∀ n v, PyFloat.fixed n v = fixedDecimal n (value v)

/-- Exact decimals stand for themselves. -/
def Values.exact : Values ℚ := ⟨id, fun _ _ => rfl⟩

/-- A double stands for its exact value. -/
def Values.double : Values Double := ⟨Double.value, fun _ _ => rfl⟩

/-- 0.3 and 0.1 are not in the format, and neither is their difference. -/
example : (PyFloat.sub (PyFloat.lit "0.3") (PyFloat.lit "0.1") : Double) ≠ PyFloat.lit "0.2" := by
  decide +kernel

example : (PyFloat.sub (PyFloat.lit "1") (PyFloat.lit "10000000000000000") : Double) =
    PyFloat.lit "-10000000000000000" := by decide +kernel

end Raydriver.Emulator
