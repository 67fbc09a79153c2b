import Colloquy.Json.Printer
import Colloquy.Json.Token
import Colloquy.Proofs.Number.Layout

/-!
Texts and numbers as they are written. The scanner reads a text in quotation marks back, whatever
follows it, and a number ends where no character of a number follows.
-/

namespace Colloquy

namespace Json

/-! ### Texts -/

section

variable {read : List Char} {c d : Char} {rest : List Char}

theorem scanText_plain (quote : c ≠ '"') (escape : c ≠ '\\') (printable : ¬ c.toNat < 0x20) :
    scanText (some read) (c :: rest) = scanText (some (c :: read)) rest := by
  rw [scanText.eq_def]
  split <;> simp_all [pushChar]

theorem scanText_simpleEscape (stands : simpleEscape? c = some d) :
    scanText (some read) ('\\' :: c :: rest) = scanText (some (d :: read)) rest := by
  have other : c ≠ 'u' := by
    rintro rfl
    cases stands
  rw [scanText]
  · simp [stands, pushChar]
  · simp_all
  · simp_all

/-- Nothing depends on whether another escape follows, since no control character is half a pair. -/
theorem scanText_unit {h i j k : Char} {unit : Nat} (digits : hexUnit? h i j k = some unit)
    (control : unit < 0x20) :
    scanText (some read) ('\\' :: 'u' :: h :: i :: j :: k :: rest) =
      scanText (some (Char.ofNat unit :: read)) rest := by
  have single : isHighSurrogate unit = false := by
    simp [isHighSurrogate]
    omega
  have char : unitChar? unit = some (Char.ofNat unit) := by
    simp [unitChar?, single, isLowSurrogate]
    omega
  rw [scanText.eq_def]
  split
  case h_1 same | h_6 same => cases same
  case h_2 same | h_3 same =>
    simp only [List.cons.injEq, true_and] at same
    obtain ⟨rfl, rfl, rfl, rfl, rfl⟩ := same
    simp [digits, single, char, pushChar]
  case h_4 other same =>
    simp only [List.cons.injEq, true_and] at same
    exact absurd same.2.symm (other _ _ _ _ _ same.1.symm)
  case h_5 other same =>
    simp only [List.cons.injEq] at same
    exact absurd same.2.symm (other _ _ same.1.symm)

theorem hexUnit_hexPair :
    ∀ n < 0x20, hexUnit? '0' '0' (Nat.digitChar (n / 16)) (Nat.digitChar (n % 16)) = some n := by
  decide

theorem scanText_escapedChar (read : List Char) (c : Char) (rest : List Char) :
    scanText (some read) (escapedChar c ++ rest) = scanText (some (c :: read)) rest := by
  rw [escapedChar.eq_def]
  split
  case h_8 =>
    split
    · rename_i control
      have read := @scanText_unit read rest _ _ _ _ _ (hexUnit_hexPair _ control) control
      rwa [Char.ofNat_toNat] at read
    · exact scanText_plain ‹_› ‹_› ‹_›
  all_goals exact scanText_simpleEscape rfl

theorem scanText_escaped (read cs rest : List Char) :
    scanText (some read) (cs.flatMap escapedChar ++ '"' :: rest) =
      some (some (String.ofList (read.reverse ++ cs)), rest) := by
  induction cs generalizing read with
  | nil => simp [scanText]
  | cons c cs ih => simp [scanText_escapedChar, ih]

theorem textLiteral_toList (text : String) :
    (textLiteral text).toList = '"' :: (text.toList.flatMap escapedChar ++ ['"']) := by
  simp [textLiteral]

theorem textLiteral_cancel {a b : String} {s t : List Char}
    (same : (textLiteral a).toList ++ s = (textLiteral b).toList ++ t) : a = b ∧ s = t := by
  simp only [textLiteral_toList, List.cons_append, List.append_assoc, List.nil_append,
    List.cons.injEq, true_and] at same
  have read := congrArg (scanText (some [])) same
  simpa [scanText_escaped] using read

end

/-! ### Numbers -/

def Stops (rest : List Char) : Prop := ∀ c ∈ rest.head?, isNumberChar c = false

theorem isNumberChar_of_isDigit {c : Char} (digit : c.isDigit = true) : isNumberChar c = true := by
  simp [isNumberChar, digit]

theorem number_positionalDigits {digits : List Char} (all : AllDigits digits) (first : ℤ) :
    (∀ c ∈ positionalDigits true digits first, isNumberChar c = true) ∧
      '.' ∈ positionalDigits true digits first := by
  have zero := fun n c member => isNumberChar_of_isDigit (allDigits_zeros n c member)
  have digit := fun c member => isNumberChar_of_isDigit (all c member)
  have point : isNumberChar '.' = true := by decide
  have nought : isNumberChar '0' = true := by decide
  rw [positionalDigits]
  split
  · refine ⟨?_, by simp⟩
    simp only [List.forall_mem_append, List.forall_mem_cons]
    exact ⟨⟨⟨nought, point, by simp⟩, zero _⟩, digit⟩
  · dsimp only
    have start := fun c member => digit c (List.mem_of_mem_take (i := first.toNat + 1) member)
    have tail := fun c member => digit c (List.mem_of_mem_drop (i := first.toNat + 1) member)
    split
    · refine ⟨?_, by simp⟩
      simp only [List.forall_mem_append, List.forall_mem_cons]
      exact ⟨⟨start, zero _⟩, point, tail⟩
    · refine ⟨?_, by simp⟩
      simp only [if_true, List.forall_mem_append, List.forall_mem_cons]
      exact ⟨⟨start, zero _⟩, point, nought, by simp⟩

theorem number_scientificDigits {digits : List Char} (all : AllDigits digits) (first : ℤ) :
    (∀ c ∈ scientificDigits digits first, isNumberChar c = true) ∧
      'e' ∈ scientificDigits digits first := by
  have power := fun c member => isNumberChar_of_isDigit (allDigits_toDigits first.natAbs c member)
  have digit := fun c member => isNumberChar_of_isDigit (all c member)
  have sign : isNumberChar (if first < 0 then '-' else '+') = true := by split <;> decide
  rw [scientificDigits.eq_def]
  refine ⟨?_, by simp⟩
  simp only [List.forall_mem_append, List.forall_mem_cons]
  refine ⟨⟨?_, by decide, sign, by simp⟩, power⟩
  split
  · simp only [List.forall_mem_cons] at digit ⊢
    exact ⟨digit.1, by decide, digit.2⟩
  · exact digit

theorem number_write (d : Dyadic) : (∀ c ∈ (d.write .data).toList, isNumberChar c = true) ∧
    ('.' ∈ (d.write .data).toList ∨ 'e' ∈ (d.write .data).toList) := by
  have magnitude : (∀ c ∈ Layout.data.magnitude d, isNumberChar c = true) ∧
      ('.' ∈ Layout.data.magnitude d ∨ 'e' ∈ Layout.data.magnitude d) := by
    rcases Nat.eq_zero_or_pos d.significand with nothing | positive
    · rw [Dyadic.magnitude_zero nothing]
      refine ⟨?_, .inl (by simp)⟩
      simp only [List.forall_mem_cons]
      exact ⟨by decide, by decide, by decide, by simp⟩
    · obtain ⟨c, exponent, -, layout⟩ := Dyadic.magnitude_cases positive
      have digits := allDigits_significantDigits c
      rcases layout with layout | layout
      · rw [layout]
        exact (number_positionalDigits digits _).imp_right .inl
      · rw [layout]
        exact (number_scientificDigits digits _).imp_right .inr
  rw [Dyadic.write, String.toList_ofList]
  split
  · exact ⟨List.forall_mem_cons.mpr ⟨by decide, magnitude.1⟩,
      magnitude.2.imp (List.mem_cons_of_mem _) (List.mem_cons_of_mem _)⟩
  · exact magnitude

theorem toString_toList (n : ℤ) : (toString n).toList =
    if n < 0 then '-' :: Nat.toDigits 10 n.natAbs else Nat.toDigits 10 n.natAbs := by
  cases n with
  | ofNat n =>
    have sign : ¬ Int.ofNat n < 0 := Int.not_lt.mpr (Int.natCast_nonneg n)
    rw [if_neg sign]
    exact Nat.toList_repr
  | negSucc n =>
    rw [if_pos (Int.negSucc_lt_zero n)]
    change ("-" ++ Nat.repr (n + 1)).toList = _
    rw [String.toList_append, Nat.toList_repr]
    rfl

theorem integer_toString (n : ℤ) : (toString n).toList ≠ [] ∧
    ∀ c ∈ (toString n).toList, c.isDigit = true ∨ c = '-' := by
  have digit := fun c member => (Or.inl (allDigits_toDigits n.natAbs c member) : _ ∨ c = '-')
  rw [toString_toList]
  split
  · exact ⟨by simp, List.forall_mem_cons.mpr ⟨.inr rfl, digit⟩⟩
  · exact ⟨Nat.toDigits_ne_nil, digit⟩

theorem toString_injective {m n : ℤ} (same : toString m = toString n) : m = n := by
  have digits : ∀ {j k : ℕ}, Nat.toDigits 10 j = Nat.toDigits 10 k → j = k := fun {j k} same => by
    rw [← digitsValue_toDigits j, same, digitsValue_toDigits]
  have unsigned : ∀ (k : ℕ) (rest : List Char), Nat.toDigits 10 k ≠ '-' :: rest :=
    fun k rest same => by cases allDigits_toDigits k '-' (same ▸ List.mem_cons_self)
  have read := congrArg String.toList same
  rw [toString_toList, toString_toList] at read
  split at read <;> split at read
  · have size := digits (List.cons.inj read).2
    omega
  · exact absurd read.symm (unsigned _ _)
  · exact absurd read (unsigned _ _)
  · have size := digits read
    omega

end Json

def Number.Proper : Number → Prop
  | .int _ => True
  | .float d => FloatFormat.double.Holds d

namespace Json

theorem numberLiteral_injective {m n : Number} (one : m.Proper) (other : n.Proper)
    (same : numberLiteral m = numberLiteral n) : m = n := by
  have distinct : ∀ (k : ℤ) (d : Dyadic), toString k ≠ d.write .data := by
    intro k d same
    rcases (number_write d).2 with point | power
    · rw [← same] at point
      rcases (integer_toString k).2 _ point with digit | minus
      · cases digit
      · cases minus
    · rw [← same] at power
      rcases (integer_toString k).2 _ power with digit | minus
      · cases digit
      · cases minus
  cases m with
  | int j =>
    cases n with
    | int k => rw [toString_injective same]
    | float e => exact absurd same (distinct j e)
  | float d =>
    cases n with
    | int k => exact absurd same.symm (distinct k d)
    | float e => rw [Dyadic.write_injective one other same]

theorem number_numberLiteral (n : Number) : (numberLiteral n).toList ≠ [] ∧
    ∀ c ∈ (numberLiteral n).toList, isNumberChar c = true := by
  cases n with
  | int k =>
    refine ⟨(integer_toString k).1, fun c member => ?_⟩
    rcases (integer_toString k).2 c member with digit | rfl
    · exact isNumberChar_of_isDigit digit
    · decide
  | float d =>
    refine ⟨fun nothing => ?_, (number_write d).1⟩
    have written := (number_write d).2
    rw [show (d.write .data).toList = [] from nothing] at written
    simp at written

theorem numberLiteral_cancel {m n : Number} {s t : List Char} (one : m.Proper) (other : n.Proper)
    (stops : Stops s) (stopsToo : Stops t)
    (same : (numberLiteral m).toList ++ s = (numberLiteral n).toList ++ t) : m = n ∧ s = t := by
  have whole : ∀ (n : Number) {s : List Char}, Stops s →
      ((numberLiteral n).toList ++ s).takeWhile isNumberChar = (numberLiteral n).toList := by
    intro n s stops
    rw [List.takeWhile_append_of_pos (number_numberLiteral n).2]
    cases s with
    | nil => simp
    | cons c s => simp [stops c rfl]
  have literals := (whole m stops).symm.trans ((congrArg _ same).trans (whole n stopsToo))
  obtain rfl := numberLiteral_injective one other (String.toList_inj.mp literals)
  exact ⟨rfl, List.append_cancel_left same⟩

end Json

end Colloquy
