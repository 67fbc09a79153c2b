import Colloquy.Json.Basic
import Mathlib.Data.Rat.Lemmas
import Mathlib.Tactic.FieldSimp
import Mathlib.Tactic.Positivity

/-!
What numbers are worth, as rationals.
-/

namespace Colloquy

def Dyadic.size (d : Dyadic) : ℚ := d.significand * 2 ^ d.exponent

def Dyadic.value (d : Dyadic) : ℚ := (if d.negative then -1 else 1) * d.size

def Number.value : Number → ℚ
  | .int n => n
  | .float d => d.value

/-- Of the two natural powers that make up an integral one, at least one is trivial. -/
theorem zpow_eq_div (b : ℕ) (e : ℤ) :
    (b : ℚ) ^ e = (b ^ e.toNat : ℕ) / (b ^ (-e).toNat : ℕ) := by
  rcases Int.le_total 0 e with up | down
  · obtain ⟨k, rfl⟩ := Int.eq_ofNat_of_zero_le up
    simp
  · obtain ⟨k, same⟩ := Int.eq_ofNat_of_zero_le (Int.neg_nonneg_of_nonpos down)
    obtain rfl : e = -k := by omega
    simp

theorem scaleByTwo_value (n : Nat) (e : Int) :
    ((scaleByTwo n e).1 : ℚ) / (scaleByTwo n e).2 = n * 2 ^ e := by
  have power := zpow_eq_div 2 e
  simp only [scaleByTwo, Nat.pow_eq]
  rw [Nat.cast_ofNat] at power
  rw [power, Nat.cast_mul, mul_div_assoc]

theorem scaleByTwo_pos (n : Nat) (e : Int) : 0 < (scaleByTwo n e).2 :=
  Nat.pow_pos Nat.two_pos

theorem exists_int_iff_dvd (num : Nat) {den : Nat} (positive : 0 < den) :
    (∃ k : ℤ, (num / den : ℚ) = k) ↔ den ∣ num := by
  have nonzero : (den : ℚ) ≠ 0 := by positivity
  constructor
  · rintro ⟨k, same⟩
    have product : (num : ℤ) = k * den := by
      rw [div_eq_iff nonzero] at same
      exact_mod_cast same
    exact Int.natCast_dvd_natCast.mp ⟨k, by rw [product, mul_comm]⟩
  · rintro ⟨k, rfl⟩
    exact ⟨k, by push_cast; field_simp⟩

namespace Dyadic

theorem isWhole_iff (d : Dyadic) : d.isWhole = true ↔ ∃ k : ℤ, d.value = k := by
  have whole := exists_int_iff_dvd d.magnitude.1 (scaleByTwo_pos d.significand d.exponent)
  rw [isWhole, beq_iff_eq, ← Nat.dvd_iff_mod_eq_zero, magnitude] at *
  rw [← whole, scaleByTwo_value, value, size]
  cases d.negative with
  | false => simp
  | true =>
    constructor
    · rintro ⟨k, same⟩
      exact ⟨-k, by simp [same]⟩
    · rintro ⟨k, same⟩
      exact ⟨-k, by simpa [neg_eq_iff_eq_neg] using same⟩

end Dyadic

theorem Number.isWhole_iff (n : Number) : n.isWhole = true ↔ ∃ k : ℤ, n.value = k := by
  cases n with
  | int n => exact ⟨fun _ => ⟨n, rfl⟩, fun _ => rfl⟩
  | float d => exact d.isWhole_iff

end Colloquy
