import Colloquy.Proofs.Number.Layout
import Colloquy.Proofs.Text.Blank
import Colloquy.Time.Instant

/-!
Instants come back from their text.
-/

namespace Colloquy

theorem isBlank_of_isDigit {c : Char} (digit : c.isDigit = true) : Text.isBlank c = false := by
  have range : 48 ≤ c.toNat ∧ c.toNat ≤ 57 := Char.isDigit_iff_toNat.mp digit
  simp [Text.isBlank]
  omega

namespace Text

variable {c : Char} {cs rest : List Char}

theorem trimLeft_cons (seen : isBlank c = false) : trimLeft (c :: cs) = c :: cs := by
  rw [trimLeft, List.dropWhile_cons_of_neg (by simp [seen])]

theorem trimLeft_digits (all : AllDigits cs) (given : cs ≠ []) :
    trimLeft (cs ++ rest) = cs ++ rest := by
  cases cs with
  | nil => exact absurd rfl given
  | cons c cs => exact trimLeft_cons (isBlank_of_isDigit (all c List.mem_cons_self))

end Text

namespace Date

theorem padded_toList (width n : Nat) : (padded width n).toList =
    zeros (width - (Nat.toDigits 10 n).length) ++ Nat.toDigits 10 n :=
  String.toList_ofList

theorem allDigits_padded (width n : Nat) : AllDigits (padded width n).toList := by
  rw [padded_toList]
  exact (allDigits_zeros _).append (allDigits_toDigits n)

theorem digitsValue_padded (width n : Nat) : digitsValue (padded width n).toList = n := by
  rw [padded_toList, digitsValue_append, digitsValue_zeros, digitsValue_toDigits]
  omega

theorem padded_length {width n : Nat} (positive : 0 < width) (small : n < 10 ^ width) :
    (padded width n).toList.length = width := by
  have short := (Nat.length_toDigits_le_iff (by omega) positive).mpr small
  simp [padded_toList, zeros]
  omega

theorem padded_ne_nil (width n : Nat) : (padded width n).toList ≠ [] := by
  simp [padded_toList, Nat.toDigits_ne_nil]

theorem short_of_isValid {date : Date} (valid : date.isValid = true) :
    date.month < 100 ∧ date.day < 100 := by
  simp only [isValid, Bool.and_eq_true, decide_eq_true_eq] at valid
  have month : daysInMonth date.year date.month ≤ 31 := by
    unfold daysInMonth
    split
    · split <;> omega
    all_goals omega
  omega

end Date

namespace Instant

variable {cs rest : List Char} {c : Char}

theorem digits?_append {limit : Nat} (all : AllDigits cs) (given : cs ≠ [])
    (enough : cs.length ≤ limit)
    (stops : cs.length = limit ∨ ∀ c ∈ rest.head?, c.isDigit = false) :
    digits? limit (cs ++ rest) = some (digitsValue cs, rest) := by
  have read : ((cs ++ rest).take limit).takeWhile Char.isDigit = cs := by
    rw [List.take_append, List.take_of_length_le enough, List.takeWhile_append_of_pos all]
    rcases stops with full | stops
    · simp [full]
    · cases rest with
      | nil => simp
      | cons c rest =>
        cases limit - cs.length with
        | zero => simp
        | succ room => simp [stops c rfl]
  simp [digits?, read, given]

theorem pair?_padded {n : Nat} (small : n < 100) :
    pair? ((Date.padded 2 n).toList ++ rest) = some (n, rest) := by
  have full : (Date.padded 2 n).toList.length = 2 := Date.padded_length (by omega) small
  rw [pair?, Text.trimLeft_digits (Date.allDigits_padded 2 n) (Date.padded_ne_nil 2 n),
    digits?_append (Date.allDigits_padded 2 n) (Date.padded_ne_nil 2 n) full.le (.inl full),
    Date.digitsValue_padded]

theorem skip?_cons (seen : Text.isBlank c = false) : skip? c (c :: rest) = some rest := by
  rw [skip?, Text.trimLeft_cons seen]
  simp

section

variable (all : AllDigits cs) (given : cs ≠ [])
include all given

theorem year?_minus :
    year? ('-' :: (cs ++ '-' :: rest)) = some (-(digitsValue cs : Int), '-' :: rest) := by
  have read : digits? (cs ++ '-' :: rest).length (cs ++ '-' :: rest) =
      some (digitsValue cs, '-' :: rest) := digits?_append all given (by simp) (.inr (by simp))
  rw [year?, Text.trimLeft_cons (by decide)]
  simp only [read, Option.map_some]

theorem year?_plus :
    year? ('+' :: (cs ++ '-' :: rest)) = some ((digitsValue cs : Int), '-' :: rest) := by
  have read : digits? (cs ++ '-' :: rest).length (cs ++ '-' :: rest) =
      some (digitsValue cs, '-' :: rest) := digits?_append all given (by simp) (.inr (by simp))
  rw [year?, Text.trimLeft_cons (by decide)]
  simp only [read, Option.map_some]

theorem year?_digits (short : cs.length = 4) :
    year? (cs ++ rest) = some ((digitsValue cs : Int), rest) := by
  have read : digits? 4 (cs ++ rest) = some (digitsValue cs, rest) :=
    digits?_append all given short.le (.inl short)
  have unsigned : ∀ c, c.isDigit = false → ∀ other, cs ++ rest ≠ c :: other := by
    rintro c other later same
    obtain ⟨first, digits, rfl⟩ := List.exists_cons_of_ne_nil given
    cases same
    exact absurd (all c List.mem_cons_self) (by simp [other])
  rw [year?, Text.trimLeft_digits all given]
  split
  · rename_i same
    exact absurd same (unsigned '-' rfl _)
  · rename_i same
    exact absurd same (unsigned '+' rfl _)
  · simp only [read, Option.map_some]

end

theorem year?_yearText (year : Int) :
    year? ((Date.yearText year).toList ++ '-' :: rest) = some (year, '-' :: rest) := by
  have digits := Date.allDigits_padded 4 year.natAbs
  have given := Date.padded_ne_nil 4 year.natAbs
  rw [Date.yearText]
  split
  · have minus : -((year.natAbs : Nat) : Int) = year := by omega
    simp only [String.toList_append, List.cons_append, List.nil_append, year?_minus digits given,
      Date.digitsValue_padded, minus, String.reduceToList]
  · have plus : ((year.natAbs : Nat) : Int) = year := by omega
    split
    · simp only [String.toList_append, List.cons_append, List.nil_append, year?_plus digits given,
        Date.digitsValue_padded, plus, String.reduceToList]
    · rw [year?_digits digits given (Date.padded_length (by omega) (by omega)),
        Date.digitsValue_padded, plus]

theorem fraction?_point (all : AllDigits cs) (given : cs ≠ []) (short : cs.length ≤ 9)
    (stops : ∀ c ∈ rest.head?, c.isDigit = false) :
    fraction? ('.' :: (cs ++ rest)) = some (digitsValue cs * 10 ^ (9 - cs.length), rest) := by
  rw [fraction?, spanDigits_append all stops]
  simp [given, List.take_of_length_le short]

theorem fraction?_padded {width n : Nat} (positive : 0 < width) (short : width ≤ 9)
    (small : n < 10 ^ width) :
    fraction? (("." ++ Date.padded width n).toList ++ ['Z']) =
      some (n * 10 ^ (9 - width), ['Z']) := by
  have full := Date.padded_length positive small
  simp only [String.toList_append, List.cons_append, List.nil_append, String.reduceToList]
  rw [fraction?_point (Date.allDigits_padded width n) (Date.padded_ne_nil width n) (by omega)
    (by simp), Date.digitsValue_padded, full]

theorem fraction?_fractionText (nanosecond : Nat) :
    fraction? ((fractionText nanosecond).toList ++ ['Z']) =
      some (nanosecond % perSecond, ['Z']) := by
  have below : nanosecond % perSecond < 10 ^ 9 := Nat.mod_lt _ (by decide)
  rw [fractionText]
  generalize nanosecond % perSecond = n at below ⊢
  simp only [beq_iff_eq, Nat.pow_eq, Nat.reducePow]
  split
  · rename_i zero
    rw [zero]
    rfl
  · split
    · have whole : n / 1000000 * 10 ^ (9 - 3) = n := by omega
      rw [fraction?_padded (by omega) (by omega) (by omega), whole]
    · split
      · have whole : n / 1000 * 10 ^ (9 - 6) = n := by omega
        rw [fraction?_padded (by omega) (by omega) (by omega), whole]
      · have whole : n * 10 ^ (9 - 9) = n := by omega
        rw [fraction?_padded (by omega) (by omega) (by omega), whole]

/-- What an instant keeps to: a day that exists, a second of that day, and a leap second only where
a minute ends. -/
structure Proper (instant : Instant) : Prop where
  date : instant.date.isValid = true
  second : instant.secondOfDay < perDay
  nanosecond : instant.nanosecond < perSecond ∨
    instant.secondOfDay % 60 = 59 ∧ instant.nanosecond < 2 * perSecond

theorem before_zero {date : Date} {s : Nat} (inside : s < perDay) :
    before date s 0 = (date, s) := by
  have small : ¬ ((perDay : Int) ≤ s) := by omega
  simp [before, small]

theorem second_cases {s n : Nat}
    (within : n < perSecond ∨ s % 60 = 59 ∧ n < 2 * perSecond) :
    s % 60 + n / perSecond = s % 60 ∧ n % perSecond = n ∨
      s % 60 = 59 ∧ s % 60 + n / perSecond = 60 ∧ n % perSecond + perSecond = n := by
  have whole : perSecond = 1000000000 := rfl
  rw [whole] at within ⊢
  omega

theorem zuluText_toList (date : Date) (s n : Nat) :
    (zuluText ⟨date, s, n⟩).toList =
      (Date.yearText date.year).toList ++ '-' :: ((Date.padded 2 date.month).toList ++
        '-' :: ((Date.padded 2 date.day).toList ++ 'T' :: ((Date.padded 2 (s / 3600)).toList ++
          ':' :: ((Date.padded 2 (s / 60 % 60)).toList ++
            ':' :: ((Date.padded 2 (s % 60 + n / perSecond)).toList ++
              ((fractionText n).toList ++ ['Z'])))))) := by
  simp [zuluText, localText, Date.isoText]

/-- The clock goes back to the second of the day and to the nanosecond, a leap second included. -/
theorem clock_eq {s n : Nat} (within : n < perSecond ∨ s % 60 = 59 ∧ n < 2 * perSecond) :
    s / 3600 * 3600 + s / 60 % 60 * 60 +
      (if (s % 60 + n / perSecond == 60) = true then 59 else s % 60 + n / perSecond) = s ∧
    (if (s % 60 + n / perSecond == 60) = true then n % perSecond + perSecond
      else n % perSecond) = n := by
  have seconds := second_cases within
  simp only [beq_iff_eq]
  constructor <;> split <;> omega

theorem parse?_zuluText {instant : Instant} (proper : instant.Proper) :
    parse? instant.zuluText = some instant := by
  obtain ⟨⟨year, month, day⟩, s, n⟩ := instant
  obtain ⟨valid, inside, within⟩ := proper
  obtain ⟨months, days⟩ := Date.short_of_isValid valid
  obtain ⟨clock, fraction⟩ := clock_eq (s := s) (n := n) within
  have hours : s / 3600 < 24 := by
    have limit : s < 86400 := inside
    omega
  have leaps : s % 60 + n / perSecond ≤ 60 := by
    have seconds := second_cases (s := s) (n := n) within
    omega
  have onTime : ((Text.trimLeft []).isEmpty && decide (s / 3600 < 24) &&
      decide (s / 60 % 60 < 60) && decide (s % 60 + n / perSecond ≤ 60)) = true := by
    have minutes : s / 60 % 60 < 60 := by omega
    simp [hours, minutes, leaps, Text.trimLeft]
  rw [parse?, zuluText_toList]
  refine Option.bind_eq_some_iff.mpr ⟨_, year?_yearText year, ?_⟩
  refine Option.bind_eq_some_iff.mpr ⟨_, skip?_cons (by decide), ?_⟩
  refine Option.bind_eq_some_iff.mpr ⟨_, pair?_padded months, ?_⟩
  refine Option.bind_eq_some_iff.mpr ⟨_, skip?_cons (by decide), ?_⟩
  refine Option.bind_eq_some_iff.mpr ⟨_, pair?_padded days, ?_⟩
  refine Option.bind_eq_some_iff.mpr ⟨⟨year, month, day⟩, if_pos valid, ?_⟩
  dsimp only
  rw [if_pos (by decide)]
  refine Option.bind_eq_some_iff.mpr ⟨_, rfl, ?_⟩
  refine Option.bind_eq_some_iff.mpr ⟨_, pair?_padded (by omega), ?_⟩
  refine Option.bind_eq_some_iff.mpr ⟨_, skip?_cons (by decide), ?_⟩
  refine Option.bind_eq_some_iff.mpr ⟨_, pair?_padded (by omega), ?_⟩
  refine Option.bind_eq_some_iff.mpr ⟨_, skip?_cons (by decide), ?_⟩
  refine Option.bind_eq_some_iff.mpr ⟨_, pair?_padded (by omega), ?_⟩
  refine Option.bind_eq_some_iff.mpr ⟨_, fraction?_fractionText n, ?_⟩
  refine Option.bind_eq_some_iff.mpr ⟨(0, []), rfl, ?_⟩
  dsimp only
  rw [clock, before_zero inside, fraction]
  refine Option.bind_eq_some_iff.mpr ⟨(), if_pos onTime, ?_⟩
  exact Option.bind_eq_some_iff.mpr ⟨(), if_pos valid, rfl⟩

end Instant

end Colloquy
