import Mathlib.Data.Rat.Floor
import Mathlib.Tactic.Linarith

/-!
# Dividing by a quotient

`a / b` rounded down, and then `a` divided by it in an ordered field.  The second
division undoes the first one up to the remainder that was dropped.

* `le_div_ediv`: the result is never below `b`.
* `div_ediv_lt_succ_iff`: it stays below `b + 1` when the remainder is smaller than
  the quotient, and only then.
* `div_ediv_lt_twice`: it never reaches `2 * b`.
-/

namespace VermouthGateway
namespace NestedDivision

variable {K : Type*} [Field K] [LinearOrder K] [IsStrictOrderedRing K] {a b : Int}

theorem ediv_pos_of_le (hb : 0 < b) (hle : b ≤ a) : 0 < a / b := by
  have hone : 1 ≤ a / b := (Int.le_ediv_iff_mul_le hb).mpr (by omega)
  omega

theorem le_div_ediv (hb : 0 < b) (hle : b ≤ a) : (b : K) ≤ a / (a / b : Int) := by
  have hquot : (0 : K) < (a / b : Int) := by exact_mod_cast ediv_pos_of_le hb hle
  rw [le_div_iff₀ hquot]
  exact_mod_cast Int.mul_ediv_self_le hb.ne'

theorem div_ediv_lt_succ_iff (hb : 0 < b) (hle : b ≤ a) :
    (a : K) / (a / b : Int) < b + 1 ↔ a % b < a / b := by
  have hquot : (0 : K) < (a / b : Int) := by exact_mod_cast ediv_pos_of_le hb hle
  have hsplit : b * (a / b) + a % b = a := Int.mul_ediv_add_emod a b
  have hprod : (b + 1) * (a / b) = b * (a / b) + a / b := by rw [add_mul, one_mul]
  rw [div_lt_iff₀ hquot]
  constructor
  · intro h
    have hint : a < (b + 1) * (a / b) := by exact_mod_cast h
    omega
  · intro h
    have hint : a < (b + 1) * (a / b) := by omega
    exact_mod_cast hint

theorem div_ediv_lt_twice (hb : 0 < b) (hle : b ≤ a) : (a : K) / (a / b : Int) < 2 * b := by
  have hquot : 0 < a / b := ediv_pos_of_le hb hle
  have hsplit : b * (a / b) + a % b = a := Int.mul_ediv_add_emod a b
  have hrem : a % b < b := Int.emod_lt_of_pos a hb
  -- the quotient is at least one, so the remainder is below their product
  have hprod : b ≤ b * (a / b) := le_mul_of_one_le_right hb.le hquot
  have hint : a < 2 * b * (a / b) := by
    rw [mul_assoc]
    omega
  rw [div_lt_iff₀ (by exact_mod_cast hquot)]
  exact_mod_cast hint

/-- Below the square root the remainder is always smaller than the quotient. -/
theorem emod_lt_ediv_of_sq_le (hb : 0 < b) (hsq : b * b ≤ a) : a % b < a / b := by
  have hrem : a % b < b := Int.emod_lt_of_pos a hb
  have hquot : b ≤ a / b := (Int.le_ediv_iff_mul_le hb).mpr hsq
  omega

end NestedDivision
end VermouthGateway
