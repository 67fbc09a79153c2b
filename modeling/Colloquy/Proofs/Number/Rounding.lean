import Colloquy.Number.Scaled
import Colloquy.Proofs.Number.Shortest

/-!
Numbers that come from rounding have the form of their format.
-/

namespace Colloquy

section

variable {num den : ℕ}

theorem scaled_lt_iff (c : ℕ) (positive : 0 < den) (unit : ℤ) :
    num * 2 ^ (-unit).toNat < c * (den * 2 ^ unit.toNat) ↔ (num / den : ℚ) < c * 2 ^ unit := by
  have power := zpow_eq_div 2 unit
  have denominator : (0 : ℚ) < den := by exact_mod_cast positive
  push_cast at power
  rw [power, div_lt_iff₀ denominator, ← mul_div_assoc, div_mul_eq_mul_div,
    lt_div_iff₀ (by positivity), ← Nat.cast_lt (α := ℚ)]
  push_cast
  ring_nf

/-- The estimate from the lengths is right or one too great. -/
theorem floorLogTwo_bounds (positive : 0 < num) (positiveToo : 0 < den) :
    (2 : ℚ) ^ floorLogTwo num den ≤ num / den ∧
      (num / den : ℚ) < 2 ^ (floorLogTwo num den + 1) := by
  have denominator : (0 : ℚ) < den := by exact_mod_cast positiveToo
  set estimate : ℤ := num.log2 - den.log2 with lengths
  have below : (2 : ℚ) ^ (estimate - 1) ≤ num / den := by
    have low : (2 : ℚ) ^ (num.log2 : ℤ) ≤ num := by exact_mod_cast Nat.log2_self_le positive.ne'
    have high : (den : ℚ) < 2 ^ (den.log2 + 1 : ℤ) := by exact_mod_cast Nat.lt_log2_self
    rw [le_div_iff₀ denominator]
    calc (2 : ℚ) ^ (estimate - 1) * den ≤ 2 ^ (estimate - 1) * 2 ^ (den.log2 + 1 : ℤ) := by gcongr
      _ = 2 ^ (num.log2 : ℤ) := by rw [← zpow_add₀ (by norm_num)]; congr 1; omega
      _ ≤ num := low
  have above : (num / den : ℚ) < 2 ^ (estimate + 1) := by
    have high : (num : ℚ) < 2 ^ (num.log2 + 1 : ℤ) := by exact_mod_cast Nat.lt_log2_self
    have low : (2 : ℚ) ^ (den.log2 : ℤ) ≤ den := by exact_mod_cast Nat.log2_self_le positiveToo.ne'
    rw [div_lt_iff₀ denominator]
    calc (num : ℚ) < 2 ^ (num.log2 + 1 : ℤ) := high
      _ = 2 ^ (estimate + 1) * 2 ^ (den.log2 : ℤ) := by
        rw [← zpow_add₀ (by norm_num)]
        congr 1
        omega
      _ ≤ 2 ^ (estimate + 1) * den := by gcongr
  have test := @scaled_lt_iff num den 1 positiveToo estimate
  rw [one_mul, Nat.cast_one, one_mul] at test
  rw [floorLogTwo]
  simp only [Nat.pow_eq, ← lengths, test]
  split
  · rename_i less
    exact ⟨below, by rwa [sub_add_cancel]⟩
  · exact ⟨not_lt.mp ‹_›, above⟩

end

namespace FloatFormat

variable {format : FloatFormat} {d : Dyadic}

theorem zero_holds (range : format.least ≤ format.greatest) (negative : Bool) :
    format.Holds (format.zero negative) :=
  ⟨Nat.pow_pos Nat.two_pos, le_refl _, range, fun less => absurd less (lt_irrefl _)⟩

/-- The significand before it is carried: at most one too many, and with all its bits unless the
exponent is the least. -/
theorem significand_bounds (precise : 0 < format.precision) {num den : ℕ} (nonzero : 0 < num)
    (positive : 0 < den) {unit : ℤ}
    (chosen : unit = max format.least (floorLogTwo num den + 1 - format.precision)) (tie : Tie) :
    nearest tie (num * 2 ^ (-unit).toNat) (den * 2 ^ unit.toNat) ≤ 2 ^ format.precision ∧
      (format.least < unit → 2 ^ (format.precision - 1) ≤
        nearest tie (num * 2 ^ (-unit).toNat) (den * 2 ^ unit.toNat)) := by
  obtain ⟨low, high⟩ := floorLogTwo_bounds nonzero positive
  have denominator : 0 < den * 2 ^ unit.toNat := Nat.mul_pos positive (Nat.pow_pos Nat.two_pos)
  have quotient := nearest_eq tie (num * 2 ^ (-unit).toNat) (den * 2 ^ unit.toNat)
  constructor
  · have fits : num * 2 ^ (-unit).toNat / (den * 2 ^ unit.toNat) < 2 ^ format.precision := by
      rw [Nat.div_lt_iff_lt_mul denominator, scaled_lt_iff _ positive]
      calc (num / den : ℚ) < 2 ^ (floorLogTwo num den + 1) := high
        _ ≤ 2 ^ (format.precision + unit : ℤ) := zpow_le_zpow_right₀ (by norm_num) (by omega)
        _ = (2 ^ format.precision : ℕ) * 2 ^ unit := by
          rw [zpow_add₀ (by norm_num), zpow_natCast]
          push_cast
          rfl
    omega
  · intro coarse
    have full : 2 ^ (format.precision - 1) ≤ num * 2 ^ (-unit).toNat / (den * 2 ^ unit.toNat) := by
      rw [Nat.le_div_iff_mul_le denominator, ← Nat.not_lt, scaled_lt_iff _ positive, not_lt]
      calc ((2 ^ (format.precision - 1) : ℕ) : ℚ) * 2 ^ unit
          = 2 ^ ((format.precision - 1 : ℕ) + unit : ℤ) := by
            rw [zpow_add₀ (by norm_num), zpow_natCast]
            push_cast
            rfl
        _ = 2 ^ floorLogTwo num den := by congr 1; omega
        _ ≤ num / den := low
    omega

/-- What is finite is the rounded quotient, or half of it where it has carried over. -/
theorem round_cases {negative : Bool} {num den : ℕ} (nonzero : num ≠ 0)
    (rounded : format.round negative num den = .finite d) : ∃ unit significand,
      unit = max format.least (floorLogTwo num den + 1 - format.precision) ∧
      significand = nearest .toEven (num * 2 ^ (-unit).toNat) (den * 2 ^ unit.toNat) ∧
      d.exponent ≤ format.greatest ∧
      (significand = 2 ^ format.precision ∧ d = ⟨negative, significand / 2, unit + 1⟩ ∨
        significand ≠ 2 ^ format.precision ∧ d = ⟨negative, significand, unit⟩) := by
  rw [round, if_neg nonzero] at rounded
  dsimp only at rounded
  refine ⟨_, _, rfl, rfl, ?_⟩
  generalize max format.least (floorLogTwo num den + 1 - format.precision) = unit at rounded ⊢
  simp only [Nat.pow_eq] at rounded
  generalize nearest .toEven (num * 2 ^ (-unit).toNat) (den * 2 ^ unit.toNat) = significand
    at rounded ⊢
  by_cases carried : significand = 2 ^ format.precision
  · simp only [if_pos carried] at rounded
    split at rounded
    · cases rounded
    · cases rounded
      exact ⟨not_lt.mp ‹_›, .inl ⟨carried, rfl⟩⟩
  · simp only [if_neg carried] at rounded
    split at rounded
    · cases rounded
    · cases rounded
      exact ⟨not_lt.mp ‹_›, .inr ⟨carried, rfl⟩⟩

theorem round_holds (precise : 0 < format.precision) (range : format.least ≤ format.greatest)
    {negative : Bool} {num den : ℕ} (positive : 0 < den)
    (rounded : format.round negative num den = .finite d) : format.Holds d := by
  by_cases nonzero : num = 0
  · rw [round, if_pos nonzero] at rounded
    cases rounded
    exact zero_holds range negative
  · obtain ⟨unit, significand, chosen, same, reach, result⟩ := round_cases nonzero rounded
    obtain ⟨fits, full⟩ := significand_bounds precise (Nat.pos_of_ne_zero nonzero) positive chosen
      .toEven
    rw [← same] at fits full
    have least : format.least ≤ unit := chosen ▸ le_max_left _ _
    rcases result with ⟨carried, rfl⟩ | ⟨whole, rfl⟩
    · have half : significand / 2 = 2 ^ (format.precision - 1) := by
        rw [carried, Nat.two_pow_pred_mul_two precise |>.symm, Nat.mul_div_cancel _ Nat.two_pos]
      have lead : 0 < 2 ^ (format.precision - 1) := Nat.pow_pos Nat.two_pos
      exact ⟨by dsimp only; omega, Int.le_add_one least, reach, fun _ => half.ge⟩
    · exact ⟨lt_of_le_of_ne fits whole, least, reach, full⟩

theorem le_exponent_of_round {negative : Bool} {num den : ℕ} (nonzero : num ≠ 0)
    (rounded : format.round negative num den = .finite d) :
    floorLogTwo num den + 1 - format.precision ≤ d.exponent := by
  obtain ⟨unit, _, rfl, -, -, result⟩ := round_cases nonzero rounded
  rcases result with ⟨-, rfl⟩ | ⟨-, rfl⟩ <;> dsimp only <;> omega

end FloatFormat

/-! ### Doubles scaled by powers of ten -/

theorem Floating.finite?_eq_some_iff {value : Floating} {d : Dyadic} :
    value.finite? = some d ↔ value = .finite d := by
  cases value <;> simp [finite?]

namespace Dyadic

open FloatFormat (double)

variable {a b d : Dyadic}

theorem double_round_holds {negative : Bool} {num den : ℕ} (positive : 0 < den)
    (rounded : (double.round negative num den).finite? = some d) : double.Holds d :=
  FloatFormat.round_holds (by decide) (by decide) positive (Floating.finite?_eq_some_iff.mp rounded)

theorem times?_holds (product : a.times? double b = some d) : double.Holds d := by
  refine double_round_holds ?_ product
  exact Nat.mul_pos (scaleByTwo_pos a.significand _) (scaleByTwo_pos b.significand _)

theorem over?_holds (positive : 0 < b.significand) (quotient : a.over? double b = some d) :
    double.Holds d := by
  refine double_round_holds (Nat.mul_pos (scaleByTwo_pos a.significand _) ?_) quotient
  exact Nat.mul_pos positive (Nat.pow_pos Nat.two_pos)

/-- A power of ten is too great to lose its first bit. -/
theorem powerOfTen?_pos {n : ℕ} (power : powerOfTen? n = some d) : 0 < d.significand := by
  rw [powerOfTen?] at power
  split at power
  · have positive : 0 < Nat.pow 10 n := Nat.pow_pos (by decide)
    have holds := double_round_holds Nat.one_pos power
    have reach := FloatFormat.le_exponent_of_round positive.ne'
      (Floating.finite?_eq_some_iff.mp power)
    have whole : 0 ≤ floorLogTwo (Nat.pow 10 n) 1 := by
      by_contra fraction
      have small : (2 : ℚ) ^ (floorLogTwo (Nat.pow 10 n) 1 + 1) ≤ 1 :=
        zpow_le_one_of_nonpos₀ (by norm_num) (by omega)
      have large : (1 : ℚ) ≤ Nat.pow 10 n := by exact_mod_cast positive
      have high := (floorLogTwo_bounds positive Nat.one_pos).2
      rw [Nat.cast_one, div_one] at high
      linarith
    have coarse : double.least < d.exponent := by
      change floorLogTwo (Nat.pow 10 n) 1 + 1 - 53 ≤ d.exponent at reach
      change -1074 < d.exponent
      omega
    have normal := holds.normal coarse
    exact Nat.lt_of_lt_of_le (Nat.pow_pos Nat.two_pos) normal
  · cases power

theorem scaleByTen?_holds {exponent : ℤ} (holds : double.Holds a)
    (scaled : a.scaleByTen? exponent = some d) : double.Holds d := by
  rw [scaleByTen?] at scaled
  dsimp only at scaled
  split at scaled
  · simp only [Option.bind_eq_bind, Option.bind_eq_some_iff] at scaled
    obtain ⟨small, -, power, table, quotient⟩ := scaled
    exact over?_holds (powerOfTen?_pos table) quotient
  · split at scaled
    · exact times?_holds scaled
    · split at scaled
      · cases scaled
        exact holds
      · cases scaled

end Dyadic

theorem Decimal.scaled?_holds {decimal : Decimal} {d : Dyadic} (read : decimal.scaled? = some d) :
    FloatFormat.double.Holds d := by
  simp only [scaled?, Option.bind_eq_bind, Option.bind_eq_some_iff] at read
  obtain ⟨whole, rounded, scaled, result, ⟨⟩⟩ := read
  have holds := Dyadic.double_round_holds Nat.one_pos rounded
  obtain ⟨bounded, least, greatest, normal⟩ := Dyadic.scaleByTen?_holds holds result
  exact ⟨bounded, least, greatest, normal⟩

end Colloquy
