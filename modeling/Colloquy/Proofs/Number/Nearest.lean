import Colloquy.Proofs.Number
import Mathlib.Algebra.Order.Field.Basic
import Mathlib.Tactic.Linarith
import Mathlib.Tactic.NormNum.Abs

/-!
Rounding to the nearest integer, as the integer that it finds.
-/

namespace Colloquy

/-- The integer nearest to a quantity; of two that are equally near, the even one. -/
def IsNearest (n : ℕ) (x : ℚ) : Prop :=
  |(n : ℚ) - x| < 1 / 2 ∨ |(n : ℚ) - x| = 1 / 2 ∧ n % 2 = 0

section

variable {num den n m : ℕ} {x : ℚ}

theorem IsNearest.unique (one : IsNearest n x) (other : IsNearest m x) : n = m := by
  have near : |(n : ℚ) - m| ≤ |(n : ℚ) - x| + |(m : ℚ) - x| := by
    rw [abs_sub_comm (m : ℚ)]
    exact abs_sub_le _ _ _
  by_contra apart
  have far : (1 : ℚ) ≤ |(n : ℚ) - m| := by
    have gap : (1 : ℤ) ≤ |(n : ℤ) - m| := Int.one_le_abs (by omega)
    exact_mod_cast gap
  rcases one with close | ⟨half, even⟩
  · rcases other with closeToo | ⟨halfToo, -⟩ <;> linarith
  · rcases other with closeToo | ⟨halfToo, evenToo⟩
    · linarith
    · have unit : |(n : ℤ) - m| = 1 := by
        have step : |(n : ℚ) - m| = 1 := le_antisymm (by linarith) far
        exact_mod_cast step
      rcases (abs_eq zero_le_one).mp unit with up | down <;> omega

theorem nearest_isNearest (num : ℕ) (positive : 0 < den) :
    IsNearest (nearest .toEven num den) (num / den) := by
  have denominator : (0 : ℚ) < den := by exact_mod_cast positive
  set quotient := num / den with divided
  set rest := num % den with left
  have division : (num / den : ℚ) = quotient + rest / den := by
    have whole : num = den * quotient + rest := (Nat.div_add_mod num den).symm
    rw [whole]
    push_cast
    field_simp
  have small : (rest / den : ℚ) < 1 := by
    rw [div_lt_one denominator]
    exact_mod_cast Nat.mod_lt num positive
  have nonnegative : (0 : ℚ) ≤ rest / den := by positivity
  rw [nearest.eq_def, division, IsNearest]
  simp only [← divided, ← left]
  split
  · rename_i low
    left
    have half : (rest / den : ℚ) < 1 / 2 := by
      rw [div_lt_div_iff₀ denominator two_pos]
      exact_mod_cast (by omega : rest * 2 < 1 * den)
    rw [sub_add_cancel_left, abs_neg, abs_of_nonneg nonnegative]
    exact half
  · split
    · rename_i high
      left
      have half : (1 / 2 : ℚ) < rest / den := by
        rw [div_lt_div_iff₀ two_pos denominator]
        exact_mod_cast (by omega : 1 * den < rest * 2)
      push_cast
      rw [abs_lt]
      constructor <;> linarith
    · right
      have half : (rest / den : ℚ) = 1 / 2 := by
        rw [div_eq_div_iff denominator.ne' two_ne_zero]
        exact_mod_cast (by omega : rest * 2 = 1 * den)
      rw [half]
      refine ⟨?_, by omega⟩
      rcases Nat.mod_two_eq_zero_or_one quotient with even | odd
      · rw [even]
        norm_num [abs_of_pos]
      · rw [odd]
        push_cast
        rw [add_sub_add_left_eq_sub]
        norm_num [abs_of_pos]

theorem nearest_eq_iff (positive : 0 < den) :
    nearest .toEven num den = n ↔ IsNearest n (num / den) := by
  constructor
  · rintro rfl
    exact nearest_isNearest num positive
  · exact (nearest_isNearest num positive).unique

theorem isNearest_zero_iff (nonnegative : 0 ≤ x) : IsNearest 0 x ↔ x ≤ 1 / 2 := by
  rw [IsNearest, Nat.cast_zero, zero_sub, abs_neg, abs_of_nonneg nonnegative, le_iff_lt_or_eq]
  simp

end

end Colloquy
