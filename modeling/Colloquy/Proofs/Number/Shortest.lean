import Colloquy.Number.Shortest
import Colloquy.Proofs.Number
import Mathlib.Algebra.Order.Field.Power
import Mathlib.Data.Nat.Cast.Order.Field
import Mathlib.Tactic.Linarith
import Mathlib.Tactic.Ring

/-!
Shortest decimals. Around every number of a format lie the decimals that round to it, and no decimal
rounds to two numbers of different size. With seventeen digits one of them is always found.
-/

namespace Colloquy

/-- The form of a number of the format: its exponent is as small as precision and range allow. -/
structure FloatFormat.Holds (format : FloatFormat) (d : Dyadic) : Prop where
  bounded : d.significand < 2 ^ format.precision
  least : format.least ≤ d.exponent
  greatest : d.exponent ≤ format.greatest
  normal : format.least < d.exponent → 2 ^ (format.precision - 1) ≤ d.significand

theorem comparePowers_eq (a : ℕ) (p : ℤ) (b : ℕ) (q : ℤ) :
    comparePowers a p b q = compare ((a : ℚ) * 2 ^ p) (b * 10 ^ q) := by
  have two := zpow_eq_div 2 p
  have ten := zpow_eq_div 10 q
  have lower : (0 : ℚ) < (2 ^ (-p).toNat : ℕ) := by positivity
  have lowerToo : (0 : ℚ) < (10 ^ (-q).toNat : ℕ) := by positivity
  push_cast at two ten lower lowerToo
  rw [two, ten, ← mul_div_assoc, ← mul_div_assoc, comparePowers]
  simp only [Nat.pow_eq]
  rcases lt_trichotomy (a * 2 ^ p.toNat * 10 ^ (-q).toNat) (b * 10 ^ q.toNat * 2 ^ (-p).toNat) with
    less | same | more
  · rw [compare_lt_iff_lt.mpr less, eq_comm, compare_lt_iff_lt, div_lt_div_iff₀ lower lowerToo]
    exact_mod_cast less
  · rw [compare_eq_iff_eq.mpr same, eq_comm, compare_eq_iff_eq,
      div_eq_div_iff lower.ne' lowerToo.ne']
    exact_mod_cast same
  · rw [compare_gt_iff_gt.mpr more, eq_comm, compare_gt_iff_gt,
      div_lt_div_iff₀ lowerToo lower]
    exact_mod_cast more

theorem nearest_eq (tie : Tie) (num den : ℕ) :
    nearest tie num den = num / den ∨ nearest tie num den = num / den + 1 := by
  rw [nearest.eq_def]
  dsimp only
  split
  · exact .inl rfl
  · split
    · exact .inr rfl
    · cases tie with
      | toEven =>
        change num / den + num / den % 2 = _ ∨ num / den + num / den % 2 = _
        omega
      | up => exact .inr rfl

namespace Dyadic

variable {format : FloatFormat} {d e : Dyadic} {x y : ℚ}

/-! ### Claims -/

def quarter (d : Dyadic) : ℚ := 2 ^ (d.exponent - 2)

theorem quarter_pos (d : Dyadic) : 0 < d.quarter := by
  unfold quarter
  positivity

theorem size_eq (d : Dyadic) : d.size = 4 * d.significand * d.quarter := by
  rw [size, quarter, zpow_sub₀ (by norm_num)]
  ring

def low (format : FloatFormat) (d : Dyadic) : ℕ :=
  4 * d.significand -
    if d.significand = 2 ^ (format.precision - 1) ∧ format.least < d.exponent then 1 else 2

def high (d : Dyadic) : ℕ := 4 * d.significand + 2

def Claims (format : FloatFormat) (d : Dyadic) (x : ℚ) : Prop :=
  (d.low format * d.quarter < x ∨ d.significand % 2 = 0 ∧ d.low format * d.quarter = x) ∧
    (x < d.high * d.quarter ∨ d.significand % 2 = 0 ∧ x = d.high * d.quarter)

theorem claims_iff {coefficient : ℕ} {exponent : ℤ} :
    d.claims format coefficient exponent = true ↔
      d.Claims format (coefficient * 10 ^ exponent) := by
  simp only [claims, Claims, low, high, quarter, comparePowers_eq, Nat.pow_eq, Bool.and_eq_true,
    Bool.or_eq_true, beq_iff_eq, compare_lt_iff_lt, compare_eq_iff_eq, compare_gt_iff_gt]
  tauto

/-! ### Order -/

theorem scale_up {n : ℕ} {a b : ℤ} (le : a ≤ b) :
    (n : ℚ) * 2 ^ b = (n * 2 ^ (b - a).toNat : ℕ) * 2 ^ a := by
  obtain ⟨j, rfl⟩ := Int.le.dest le
  rw [zpow_add₀ (by norm_num), show a + (j : ℤ) - a = j by omega]
  simp
  ring

theorem lt_twice (precise : 0 < format.precision) (holds : format.Holds d) :
    d.significand < 2 * 2 ^ (format.precision - 1) := by
  have power : 2 * 2 ^ (format.precision - 1) = 2 ^ format.precision := by
    rw [← Nat.pow_succ', Nat.succ_eq_add_one, Nat.sub_add_cancel precise]
  exact power ▸ holds.bounded

theorem two_le_pow {n : ℕ} (positive : 0 < n) : 2 ≤ 2 ^ n := Nat.le_self_pow positive.ne' 2

theorem exponent_le_of_size_le (precise : 0 < format.precision) (small : format.Holds d)
    (great : format.Holds e) (le : d.size ≤ e.size) : d.exponent ≤ e.exponent := by
  by_contra more
  have scaled : d.significand * 2 ^ (d.exponent - e.exponent).toNat ≤ e.significand := by
    rw [size, size, scale_up (by omega : e.exponent ≤ d.exponent),
      mul_le_mul_iff_left₀ (by positivity)] at le
    exact_mod_cast le
  have normal := small.normal (lt_of_le_of_lt great.least (by omega))
  have grown := Nat.mul_le_mul normal (two_le_pow (n := (d.exponent - e.exponent).toNat) (by omega))
  have bounded := lt_twice precise great
  omega

theorem eq_of_size_eq (precise : 0 < format.precision) (one : format.Holds d)
    (other : format.Holds e) (sign : d.negative = e.negative) (same : d.size = e.size) : d = e := by
  have exponent := le_antisymm (exponent_le_of_size_le precise one other same.le)
    (exponent_le_of_size_le precise other one same.ge)
  rw [size, size, exponent, mul_left_inj' (by positivity)] at same
  obtain ⟨negative, significand, unit⟩ := d
  simp_all

/-- The midpoints around two numbers are in order, and where they are the same one of the two does
not claim it. -/
theorem high_le_low (precise : 0 < format.precision) (small : format.Holds d)
    (great : format.Holds e) (less : d.size < e.size) :
    d.high * d.quarter < e.low format * e.quarter ∨
      d.high * d.quarter = e.low format * e.quarter ∧
        (d.significand % 2 = 1 ∨ e.significand % 2 = 1) := by
  have le := exponent_le_of_size_le precise small great less.le
  set j := (e.exponent - d.exponent).toNat with steps
  have order : d.significand < e.significand * 2 ^ j := by
    rw [size, size, scale_up le, mul_lt_mul_iff_left₀ (by positivity)] at less
    exact_mod_cast less
  have midpoints : d.high < e.low format * 2 ^ j ∨ d.high = e.low format * 2 ^ j ∧
      (d.significand % 2 = 1 ∨ e.significand % 2 = 1) := by
    rw [high]
    rcases Nat.eq_zero_or_pos j with level | up
    · rw [level, pow_zero, mul_one] at order ⊢
      rw [low]
      split <;> omega
    · -- The greater number is normal, and unless it is the first of its exponent there is room.
      have coarse : format.least < e.exponent := lt_of_le_of_lt small.least (by omega)
      have normal := great.normal coarse
      have bounded := lt_twice precise small
      have grown := Nat.mul_le_mul_left (e.low format) (two_le_pow up)
      have below : e.low format = 4 * e.significand - 1 ∨
          2 ^ (format.precision - 1) < e.significand ∧ e.low format = 4 * e.significand - 2 := by
        rw [low]
        split <;> omega
      omega
  have scaled : (e.low format : ℚ) * e.quarter = (e.low format * 2 ^ j : ℕ) * d.quarter := by
    rw [quarter, scale_up (by omega : d.exponent - 2 ≤ e.exponent - 2), quarter, steps,
      show e.exponent - 2 - (d.exponent - 2) = e.exponent - d.exponent by omega]
  rw [scaled, mul_lt_mul_iff_left₀ d.quarter_pos, mul_left_inj' d.quarter_pos.ne', Nat.cast_lt,
    Nat.cast_inj]
  exact midpoints

theorem claims_lt (precise : 0 < format.precision) (small : format.Holds d)
    (great : format.Holds e) (less : d.size < e.size) (claim : d.Claims format x)
    (claimToo : e.Claims format y) : x < y := by
  obtain ⟨-, below⟩ := claim
  obtain ⟨above, -⟩ := claimToo
  rcases high_le_low precise small great less with apart | ⟨touch, odd⟩
  · rcases below with below | ⟨-, below⟩ <;> rcases above with above | ⟨-, above⟩ <;> linarith
  · rcases below with below | ⟨even, below⟩
    · rcases above with above | ⟨-, above⟩ <;> linarith
    · rcases above with above | ⟨evenToo, -⟩
      · linarith
      · omega

theorem size_eq_of_claims (precise : 0 < format.precision) (one : format.Holds d)
    (other : format.Holds e) (claim : d.Claims format x) (claimToo : e.Claims format x) :
    d.size = e.size := by
  rcases lt_trichotomy d.size e.size with less | same | more
  · exact absurd (claims_lt precise one other less claim claimToo) (lt_irrefl x)
  · exact same
  · exact absurd (claims_lt precise other one more claimToo claim) (lt_irrefl x)

/-! ### Grids -/

theorem pow_floorLogTen_le {num den : ℕ} (positive : 0 < num) (positiveToo : 0 < den) :
    (10 : ℚ) ^ floorLogTen num den ≤ num / den := by
  have counts : ∀ n k : ℕ, 0 < k → (digitCount n ≤ k ↔ n < 10 ^ k) := fun n k =>
    Nat.length_toDigits_le_iff (by omega)
  rw [floorLogTen]
  split
  · rename_i le
    have quotient : 10 ^ (digitCount (num / den) - 1) ≤ num / den := by
      rcases Nat.eq_zero_or_pos (digitCount (num / den) - 1) with single | more
      · rw [single]
        exact Nat.div_pos le positiveToo
      · have long := (counts (num / den) _ more).not.mp (by omega)
        omega
    have count : 0 < digitCount (num / den) := Nat.length_toDigits_pos
    have power : (digitCount (num / den) : ℤ) - 1 = (digitCount (num / den) - 1 : ℕ) := by omega
    rw [power, zpow_natCast]
    calc (10 : ℚ) ^ (digitCount (num / den) - 1) ≤ (num / den : ℕ) := by exact_mod_cast quotient
      _ ≤ num / den := Nat.cast_div_le
  · set k := digitCount ((den - 1) / num) with digits
    have fits : (den - 1) / num < 10 ^ k := (counts _ k Nat.length_toDigits_pos).mp digits.ge
    have enough : den ≤ num * 10 ^ k := by
      have := (Nat.div_lt_iff_lt_mul positive).mp fits
      rw [mul_comm]
      omega
    rw [zpow_neg, zpow_natCast, le_div_iff₀ (by exact_mod_cast positiveToo),
      inv_mul_le_iff₀ (by positivity), mul_comm]
    exact_mod_cast enough

theorem scaled_magnitude (d : Dyadic) (exponent : ℤ) :
    ((d.magnitude.1 * 10 ^ (-exponent).toNat : ℕ) : ℚ) / (d.magnitude.2 * 10 ^ exponent.toNat : ℕ) *
      10 ^ exponent = d.size := by
  have denominator : (d.magnitude.2 : ℚ) ≠ 0 := by
    exact_mod_cast (scaleByTwo_pos d.significand d.exponent).ne'
  have power := zpow_eq_div 10 exponent
  have fraction : d.size = d.magnitude.1 / d.magnitude.2 := (scaleByTwo_value _ _).symm
  push_cast at power ⊢
  rw [power, fraction]
  field_simp

theorem grid_neighbours (d : Dyadic) (exponent : ℤ) {below : ℕ} (same : below =
      d.magnitude.1 * 10 ^ (-exponent).toNat / (d.magnitude.2 * 10 ^ exponent.toNat)) :
    (below : ℚ) * 10 ^ exponent ≤ d.size ∧ d.size < (below + 1 : ℕ) * 10 ^ exponent := by
  have grid : (0 : ℚ) < 10 ^ exponent := by positivity
  have denominator : 0 < d.magnitude.2 * 10 ^ exponent.toNat :=
    Nat.mul_pos (scaleByTwo_pos d.significand d.exponent) (by positivity)
  rw [← d.scaled_magnitude exponent, mul_le_mul_iff_left₀ grid, mul_lt_mul_iff_left₀ grid, same]
  refine ⟨Nat.cast_div_le, ?_⟩
  rw [div_lt_iff₀ (by exact_mod_cast denominator), ← Nat.cast_mul, Nat.cast_lt, mul_comm (_ + 1)]
  exact Nat.lt_mul_div_succ _ denominator

theorem claims_of_onGrid {tie : Tie} {exponent : ℤ} {coefficient : ℕ}
    (found : d.onGrid? format tie exponent = some coefficient) :
    d.claims format coefficient exponent = true := by
  rw [onGrid?] at found
  simp only at found
  split at found
  · rename_i below above
    cases found
    rcases nearest_eq tie _ _ with same | same <;> rw [same] <;> assumption
  · cases found; assumption
  · cases found; assumption
  · cases found

theorem size_between (format : FloatFormat) (positive : 0 < d.significand) :
    d.low format * d.quarter < d.size ∧ d.size < d.high * d.quarter := by
  have low : d.low format < 4 * d.significand := by
    rw [Dyadic.low]
    split <;> omega
  rw [size_eq, mul_lt_mul_iff_left₀ d.quarter_pos, mul_lt_mul_iff_left₀ d.quarter_pos, high]
  exact ⟨by exact_mod_cast low, by push_cast; linarith⟩

theorem onGrid_ne_none {tie : Tie} {exponent : ℤ} (positive : 0 < d.significand)
    (fine : (10 : ℚ) ^ exponent < d.high * d.quarter - d.low format * d.quarter) :
    d.onGrid? format tie exponent ≠ none := by
  intro none
  rw [onGrid?] at none
  simp only [Nat.pow_eq] at none
  split at none
  all_goals try cases none
  rename_i below above
  obtain ⟨under, beyond⟩ := d.grid_neighbours exponent rfl
  obtain ⟨inside, insideToo⟩ := size_between format positive
  have missed := fun claim => Bool.false_ne_true (below.symm.trans (claims_iff.mpr claim))
  have missedToo := fun claim => Bool.false_ne_true (above.symm.trans (claims_iff.mpr claim))
  have low := not_lt.mp fun less => missed ⟨.inl less, .inl (lt_of_le_of_lt under insideToo)⟩
  have high := not_lt.mp fun less => missedToo ⟨.inl (lt_trans inside beyond), .inl less⟩
  push_cast at high
  linarith

/-- Seventeen digits leave less between them than a double claims. -/
theorem width_of_double {exponent : ℤ} (holds : FloatFormat.double.Holds d)
    (positive : 0 < d.significand) (fine : (10 : ℚ) ^ exponent * 10 ^ 16 ≤ d.size) :
    (10 : ℚ) ^ exponent < d.high * d.quarter - d.low .double * d.quarter := by
  have width : d.significand = 2 ^ 52 ∧ d.high = d.low .double + 3 ∨
      d.high = d.low .double + 4 := by
    rw [high, low, show FloatFormat.double.precision - 1 = 52 from rfl]
    split <;> omega
  have quarter := d.quarter_pos
  rw [size_eq] at fine
  rcases width with ⟨first, width⟩ | width
  · rw [first] at fine
    rw [width]
    push_cast at fine ⊢
    linarith
  · have bounded : (d.significand : ℚ) < 2 ^ 53 := by exact_mod_cast holds.bounded
    have small := mul_lt_mul_of_pos_right bounded quarter
    rw [width]
    push_cast
    linarith

theorem exists_grid_of_shortest (tie : Tie) (holds : FloatFormat.double.Holds d)
    (positive : 0 < d.significand) :
    ∃ coefficient exponent, d.shortest .double tie = ⟨coefficient, exponent⟩ ∧
      d.onGrid? .double tie exponent = some coefficient := by
  have positiveMagnitude : 0 < d.magnitude.1 := Nat.mul_pos positive (Nat.pow_pos Nat.two_pos)
  have finest :
      d.onGrid? .double tie (floorLogTen d.magnitude.1 d.magnitude.2 - (16 : ℕ)) ≠ none := by
    refine onGrid_ne_none positive (width_of_double holds positive ?_)
    have size : d.size = d.magnitude.1 / d.magnitude.2 := (scaleByTwo_value _ _).symm
    rw [size, ← zpow_natCast, ← zpow_add₀ (by norm_num), sub_add_cancel]
    exact pow_floorLogTen_le positiveMagnitude (scaleByTwo_pos d.significand d.exponent)
  rw [shortest]
  dsimp only
  cases found : List.findSome? _ _ with
  | none =>
    have missed := List.findSome?_eq_none_iff.mp found 16 (List.mem_range.mpr (by decide))
    exact absurd (Option.map_eq_none_iff.mp missed) finest
  | some short =>
    obtain ⟨n, -, given⟩ := List.exists_of_findSome?_eq_some found
    obtain ⟨coefficient, claimed, rfl⟩ := Option.map_eq_some_iff.mp given
    exact ⟨coefficient, _, rfl, claimed⟩

theorem shortest_claims (tie : Tie) (holds : FloatFormat.double.Holds d)
    (positive : 0 < d.significand) :
    d.Claims .double
      ((d.shortest .double tie).coefficient * 10 ^ (d.shortest .double tie).exponent) := by
  obtain ⟨coefficient, exponent, short, given⟩ := exists_grid_of_shortest tie holds positive
  rw [short]
  exact claims_iff.mp (claims_of_onGrid given)

end Dyadic

end Colloquy
