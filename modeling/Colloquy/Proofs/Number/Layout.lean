import Colloquy.Number.Layout
import Colloquy.Proofs.Number.Shortest

/-!
Numerals read back: however the digits are laid out, what stands there is worth what the shortest
decimal is. So doubles that are written the same are the same.
-/

namespace Colloquy

def spanFraction : List Char → List Char × List Char
  | '.' :: rest => spanDigits rest
  | rest => ([], rest)

/-- What a numeral without a sign is worth. -/
def worth (cs : List Char) : ℚ :=
  let (whole, rest) := spanDigits cs
  let (fraction, rest) := spanFraction rest
  digitsValue (whole ++ fraction) * 10 ^ ((exponent? rest).getD 0 - fraction.length)

abbrev AllDigits (cs : List Char) : Prop := ∀ c ∈ cs, c.isDigit = true

section

variable {digits rest : List Char} {exponent : ℤ}

theorem digitsValue_append (xs ys : List Char) :
    digitsValue (xs ++ ys) = 10 ^ ys.length * digitsValue xs + digitsValue ys := by
  have append : digitsValue (xs ++ ys) = Nat.ofDigitChars 10 ys (digitsValue xs) :=
    Nat.ofDigitChars_append 0
  rw [append, Nat.ofDigitChars_eq_ofDigitChars_zero]
  rfl

theorem digitsValue_zeros (n : ℕ) : digitsValue (zeros n) = 0 := by
  have value : digitsValue (zeros n) = 10 ^ n * 0 := Nat.ofDigitChars_replicate_zero
  rw [value, Nat.mul_zero]

theorem digitsValue_toDigits (n : ℕ) : digitsValue (Nat.toDigits 10 n) = n :=
  Nat.ofDigitChars_toDigits (by omega) (by omega)

theorem allDigits_toDigits (n : ℕ) : AllDigits (Nat.toDigits 10 n) := fun _ member =>
  Nat.isDigit_of_mem_toDigits (by omega) (by omega) member

theorem allDigits_zeros (n : ℕ) : AllDigits (zeros n) := by
  intro c member
  rw [List.eq_of_mem_replicate member]
  rfl

theorem allDigits_nought : AllDigits ['0'] := allDigits_zeros 1

theorem AllDigits.append {whole fraction : List Char} (all : AllDigits whole)
    (allToo : AllDigits fraction) : AllDigits (whole ++ fraction) :=
  List.forall_mem_append.mpr ⟨all, allToo⟩

theorem spanDigits_append (all : AllDigits digits)
    (stops : ∀ c ∈ rest.head?, c.isDigit = false) :
    spanDigits (digits ++ rest) = (digits, rest) := by
  rw [spanDigits, List.span_eq_takeWhile_dropWhile, List.takeWhile_append_of_pos all,
    List.dropWhile_append_of_pos all]
  cases rest with
  | nil => simp
  | cons c rest => simp [stops c rfl]

theorem worth_point {whole fraction : List Char} (all : AllDigits whole)
    (allToo : AllDigits fraction) (stops : ∀ c ∈ rest.head?, c.isDigit = false)
    (power : exponent? rest = some exponent) :
    worth (whole ++ '.' :: (fraction ++ rest)) =
      digitsValue (whole ++ fraction) * 10 ^ (exponent - fraction.length) := by
  rw [worth, spanDigits_append all (by simp)]
  simp only [spanFraction, spanDigits_append allToo stops, power, Option.getD_some]

theorem worth_whole {whole : List Char} (all : AllDigits whole)
    (stops : ∀ c ∈ rest.head?, c.isDigit = false) (pointless : spanFraction rest = ([], rest))
    (power : exponent? rest = some exponent) :
    worth (whole ++ rest) = digitsValue whole * 10 ^ exponent := by
  rw [worth, spanDigits_append all stops]
  simp [pointless, power]

/-! ### Layouts -/

theorem worth_plain_point (whole fraction : List Char) (all : AllDigits whole)
    (allToo : AllDigits fraction) : worth (whole ++ '.' :: fraction) =
      digitsValue (whole ++ fraction) * 10 ^ (-fraction.length : ℤ) := by
  have none : exponent? [] = some 0 := rfl
  have read := worth_point all allToo (by simp) none
  rwa [List.append_nil, zero_sub] at read

theorem worth_positionalDigits (all : AllDigits digits) (first : ℤ) :
    worth (positionalDigits true digits first) =
      digitsValue digits * 10 ^ (first + 1 - digits.length) := by
  rw [positionalDigits]
  split
  · have value : digitsValue (['0'] ++ (zeros (-first - 1).toNat ++ digits)) =
        digitsValue digits := by
      rw [digitsValue_append, digitsValue_append, digitsValue_zeros,
        show digitsValue ['0'] = 0 from rfl]
      omega
    have read := worth_plain_point ['0'] _ allDigits_nought
      ((allDigits_zeros (-first - 1).toNat).append all)
    rw [value, List.length_append, zeros, List.length_replicate] at read
    rw [show first + 1 - digits.length = -((-first - 1).toNat + digits.length : ℕ) by omega]
    exact read
  · dsimp only
    rcases Nat.lt_or_ge (first.toNat + 1) digits.length with long | short
    · have nonempty : (digits.drop (first.toNat + 1)).isEmpty = false := by
        rw [List.isEmpty_eq_false_iff, ← List.length_pos_iff, List.length_drop]
        omega
      have read := worth_plain_point _ _
        (fun c member => all c (List.mem_of_mem_take (i := first.toNat + 1) member))
        (fun c member => all c (List.mem_of_mem_drop (i := first.toNat + 1) member))
      rw [List.take_append_drop, List.length_drop] at read
      rw [nonempty, Nat.sub_eq_zero_of_le long.le,
        show first + 1 - digits.length = -(digits.length - (first.toNat + 1) : ℕ) by omega, ← read]
      simp [zeros]
    · have read := worth_plain_point _ ['0']
        (all.append (allDigits_zeros (first.toNat + 1 - digits.length))) allDigits_nought
      rw [digitsValue_append, digitsValue_append, digitsValue_zeros,
        show digitsValue ['0'] = 0 from rfl, zeros, List.length_replicate] at read
      rw [List.drop_eq_nil_of_le short, List.take_of_length_le short,
        show first + 1 - digits.length = (first.toNat + 1 - digits.length : ℕ) by omega]
      refine Eq.trans (by simp [zeros]) (read.trans ?_)
      rw [zpow_natCast]
      push_cast
      simp
      ring

theorem exponent_scientific (first : ℤ) :
    exponent? ('e' :: (if first < 0 then '-' else '+') :: Nat.toDigits 10 first.natAbs) =
      some first := by
  have digits : spanDigits (Nat.toDigits 10 first.natAbs) = (Nat.toDigits 10 first.natAbs, []) := by
    have none : ∀ c ∈ ([] : List Char).head?, c.isDigit = false := by simp
    have read := spanDigits_append (allDigits_toDigits first.natAbs) none
    rwa [List.append_nil] at read
  have nonempty : (Nat.toDigits 10 first.natAbs).isEmpty = false := by simp
  split
  · simp [exponent?, takeSign, digits, nonempty, digitsValue_toDigits, -Nat.cast_natAbs]
    omega
  · simp [exponent?, takeSign, digits, nonempty, digitsValue_toDigits, -Nat.cast_natAbs]
    omega

theorem worth_scientificDigits (all : AllDigits digits) (first : ℤ) :
    worth (scientificDigits digits first) =
      digitsValue digits * 10 ^ (first + 1 - digits.length) := by
  have power := exponent_scientific first
  have stops : ∀ c ∈ ('e' :: (if first < 0 then '-' else '+') ::
      Nat.toDigits 10 first.natAbs).head?, c.isDigit = false := by simp
  rw [scientificDigits.eq_def]
  simp only
  split
  · rename_i lead next rest
    have single : AllDigits [lead] := fun c member => all c (by simp_all)
    have read := worth_point single
      (fun c member => all c (List.mem_cons_of_mem lead member)) stops power
    refine Eq.trans (by simp) (read.trans ?_)
    simp only [List.singleton_append, List.length_cons]
    congr 2
    push_cast
    ring
  · rename_i short
    have read := worth_whole all stops rfl power
    refine Eq.trans (by simp) (read.trans ?_)
    cases digits with
    | nil => simp [show digitsValue [] = 0 from rfl]
    | cons lead rest =>
      cases rest with
      | nil => simp
      | cons next rest => exact absurd rfl (short lead next rest)

theorem significantDigits_append (n : ℕ) :
    ∃ k, significantDigits n ++ zeros k = Nat.toDigits 10 n := by
  set backwards := (Nat.toDigits 10 n).reverse with same
  have trailing : backwards.takeWhile (· == '0') =
      zeros (backwards.takeWhile (· == '0')).length := by
    refine List.eq_replicate_of_mem fun c member => ?_
    simpa using List.all_eq_true.mp List.all_takeWhile c member
  refine ⟨(backwards.takeWhile (· == '0')).length, ?_⟩
  have palindrome : (zeros (backwards.takeWhile (· == '0')).length).reverse = zeros _ :=
    List.reverse_replicate
  rw [significantDigits, ← palindrome, ← trailing, ← List.reverse_append,
    List.takeWhile_append_dropWhile, same, List.reverse_reverse]

theorem digitsValue_significantDigits (n : ℕ) :
    (digitsValue (significantDigits n) : ℚ) *
      10 ^ ((digitCount n : ℤ) - (significantDigits n).length) = n := by
  obtain ⟨k, same⟩ := significantDigits_append n
  have value := digitsValue_toDigits n
  rw [← same, digitsValue_append, digitsValue_zeros, zeros, List.length_replicate] at value
  have count : digitCount n = (significantDigits n).length + k := by
    rw [digitCount, ← same, List.length_append, zeros, List.length_replicate]
  have power : (digitCount n : ℤ) - (significantDigits n).length = (k : ℕ) := by omega
  rw [power, zpow_natCast, mul_comm]
  exact_mod_cast value

theorem allDigits_significantDigits (n : ℕ) : AllDigits (significantDigits n) := by
  obtain ⟨k, same⟩ := significantDigits_append n
  intro c member
  exact allDigits_toDigits n c (same ▸ List.mem_append_left _ member)

end

namespace Dyadic

variable {d e : Dyadic}

theorem worth_digits (c : ℕ) (exponent : ℤ) :
    (digitsValue (significantDigits c) : ℚ) *
      10 ^ (exponent + digitCount c - 1 + 1 - (significantDigits c).length) =
        c * 10 ^ exponent := by
  have value := digitsValue_significantDigits c
  rw [show exponent + digitCount c - 1 + 1 - (significantDigits c).length =
    digitCount c - (significantDigits c).length + exponent by ring, zpow_add₀ (by norm_num),
    ← mul_assoc, value]

theorem magnitude_cases (positive : 0 < d.significand) :
    ∃ c exponent, d.shortest .double .toEven = ⟨c, exponent⟩ ∧
      (Layout.data.magnitude d =
          positionalDigits true (significantDigits c) (exponent + digitCount c - 1) ∨
        Layout.data.magnitude d =
          scientificDigits (significantDigits c) (exponent + digitCount c - 1)) := by
  refine ⟨_, _, rfl, ?_⟩
  rw [Layout.magnitude, if_neg (by simp [isZero, positive.ne'])]
  dsimp only
  split
  · exact .inl rfl
  · exact .inr rfl

theorem worth_magnitude (positive : 0 < d.significand) :
    worth (Layout.data.magnitude d) =
      (d.shortest .double .toEven).coefficient * 10 ^ (d.shortest .double .toEven).exponent := by
  obtain ⟨c, exponent, short, layout⟩ := magnitude_cases positive
  have digits := allDigits_significantDigits c
  rw [short]
  dsimp only
  rw [← worth_digits]
  rcases layout with layout | layout
  · rw [layout, worth_positionalDigits digits]
  · rw [layout, worth_scientificDigits digits]

theorem magnitude_zero (zero : d.significand = 0) : Layout.data.magnitude d = ['0', '.', '0'] := by
  simp [Layout.magnitude, isZero, zero, Layout.data]

theorem worth_magnitude_zero (zero : d.significand = 0) : worth (Layout.data.magnitude d) = 0 := by
  have read := worth_plain_point ['0'] ['0'] allDigits_nought allDigits_nought
  rw [show digitsValue (['0'] ++ ['0']) = 0 from rfl, Nat.cast_zero, zero_mul] at read
  rw [magnitude_zero zero]
  exact read

theorem worth_magnitude_pos (holds : FloatFormat.double.Holds d) (positive : 0 < d.significand) :
    0 < worth (Layout.data.magnitude d) := by
  have claims := shortest_claims .toEven holds positive
  have quarter := d.quarter_pos
  have low : 0 < d.low .double := by
    rw [Dyadic.low]
    split <;> omega
  have bound : 0 < (d.low .double : ℚ) * d.quarter := mul_pos (by exact_mod_cast low) quarter
  rw [worth_magnitude positive]
  rcases claims.1 with less | ⟨-, same⟩ <;> linarith

theorem size_eq_of_magnitude_eq (one : FloatFormat.double.Holds d)
    (other : FloatFormat.double.Holds e)
    (same : Layout.data.magnitude d = Layout.data.magnitude e) : d.size = e.size := by
  rcases Nat.eq_zero_or_pos d.significand with nothing | positive
  · rcases Nat.eq_zero_or_pos e.significand with nothingToo | positiveToo
    · simp [size, nothing, nothingToo]
    · have worthy := worth_magnitude_pos other positiveToo
      rw [← same, worth_magnitude_zero nothing] at worthy
      exact absurd worthy (lt_irrefl 0)
  · rcases Nat.eq_zero_or_pos e.significand with nothing | positiveToo
    · have worthy := worth_magnitude_pos one positive
      rw [same, worth_magnitude_zero nothing] at worthy
      exact absurd worthy (lt_irrefl 0)
    · have claims := shortest_claims .toEven one positive
      have claimsToo := shortest_claims .toEven other positiveToo
      rw [← worth_magnitude positive, same] at claims
      rw [← worth_magnitude positiveToo] at claimsToo
      exact size_eq_of_claims (by decide) one other claims claimsToo

theorem magnitude_ne_minus (holds : FloatFormat.double.Holds d) (rest : List Char) :
    Layout.data.magnitude d ≠ '-' :: rest := by
  intro same
  rcases Nat.eq_zero_or_pos d.significand with nothing | positive
  · rw [magnitude_zero nothing] at same
    cases same
  · have worthy := worth_magnitude_pos holds positive
    rw [same, worth, show spanDigits ('-' :: rest) = ([], '-' :: rest) from rfl] at worthy
    simp [spanFraction, show digitsValue [] = 0 from rfl] at worthy

theorem write_injective (one : FloatFormat.double.Holds d) (other : FloatFormat.double.Holds e)
    (same : d.write .data = e.write .data) : d = e := by
  rw [write, write, String.ofList_inj] at same
  have parts : d.negative = e.negative ∧
      Layout.data.magnitude d = Layout.data.magnitude e := by
    cases sign : d.negative <;> cases signToo : e.negative <;> simp [sign, signToo] at same
    · exact ⟨rfl, same⟩
    · exact absurd same (magnitude_ne_minus one _)
    · exact absurd same.symm (magnitude_ne_minus other _)
    · exact ⟨rfl, same⟩
  exact eq_of_size_eq (by decide) one other parts.1 (size_eq_of_magnitude_eq one other parts.2)

end Dyadic

end Colloquy
