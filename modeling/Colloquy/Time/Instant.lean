import Colloquy.Number.Decimal
import Colloquy.Text.Blank
import Colloquy.Time.Date

/-!
Instants in universal time, with nanoseconds. They are read in the relaxed form of RFC 3339, where
blanks may surround the separators and the hour may be followed by any offset of less than a day.
-/

namespace Colloquy

/-- A leap second is the last second of its minute with a second more of nanoseconds. -/
structure Instant where
  date : Date
  secondOfDay : Nat
  nanosecond : Nat
  deriving DecidableEq, Repr

namespace Instant

def perSecond : Nat := Nat.pow 10 9

def perDay : Nat := 86400

def fractionText (nanosecond : Nat) : String :=
  let n := nanosecond % perSecond
  if n == 0 then ""
  else if n % Nat.pow 10 6 == 0 then "." ++ Date.padded 3 (n / Nat.pow 10 6)
  else if n % Nat.pow 10 3 == 0 then "." ++ Date.padded 6 (n / Nat.pow 10 3)
  else "." ++ Date.padded 9 n

def localText (instant : Instant) : String :=
  let s := instant.secondOfDay
  let second := s % 60 + instant.nanosecond / perSecond
  instant.date.isoText ++ "T" ++ Date.padded 2 (s / 3600) ++ ":" ++ Date.padded 2 (s / 60 % 60) ++
    ":" ++ Date.padded 2 second ++ fractionText instant.nanosecond

def zuluText (instant : Instant) : String := instant.localText ++ "Z"

def offsetText (instant : Instant) : String := instant.localText ++ "+00:00"

/-- The same clock `seconds` earlier, by less than a day either way. -/
def before (date : Date) (secondOfDay : Nat) (seconds : Int) : Date × Nat :=
  let s := (secondOfDay : Int) - seconds
  if s < 0 then (date.previous, (s + perDay).toNat)
  else if perDay ≤ s then (date.next, (s - perDay).toNat)
  else (date, s.toNat)

def digits? (limit : Nat) (cs : List Char) : Option (Nat × List Char) :=
  let digits := (cs.take limit).takeWhile Char.isDigit
  if digits.isEmpty then none else some (digitsValue digits, cs.drop digits.length)

def pair? (cs : List Char) : Option (Nat × List Char) := digits? 2 (Text.trimLeft cs)

/-- With a sign a year has any number of digits, and without one at most four. -/
def year? (cs : List Char) : Option (Int × List Char) :=
  match Text.trimLeft cs with
  | '-' :: rest => (digits? rest.length rest).map fun (n, rest) => (-(n : Int), rest)
  | '+' :: rest => (digits? rest.length rest).map fun (n, rest) => ((n : Int), rest)
  | rest => (digits? 4 rest).map fun (n, rest) => ((n : Int), rest)

def skip? (separator : Char) (cs : List Char) : Option (List Char) :=
  match Text.trimLeft cs with
  | c :: rest => if c == separator then some rest else none
  | [] => none

/-- The nanoseconds after a point; digits after the ninth do not count. -/
def fraction? : List Char → Option (Nat × List Char)
  | '.' :: rest =>
    let (digits, left) := spanDigits rest
    if digits.isEmpty then none
    else
      let kept := digits.take 9
      some (digitsValue kept * Nat.pow 10 (9 - kept.length), left)
  | rest => some (0, rest)

def twoDigits? : List Char → Option (Nat × List Char)
  | a :: b :: rest => if a.isDigit && b.isDigit then some (digitsValue [a, b], rest) else none
  | _ => none

def offset? (cs : List Char) : Option (Int × List Char) :=
  match cs with
  | 'Z' :: rest | 'z' :: rest => some (0, rest)
  | u :: t :: c :: rest =>
    if String.ofList ([u, t, c].map Char.toUpper) == "UTC" then some (0, rest)
    else signed? cs
  | _ => signed? cs
where
  signed? : List Char → Option (Int × List Char)
    | '+' :: rest => magnitude? rest
    | '-' :: rest => (magnitude? rest).map fun (n, rest) => (-n, rest)
    | '−' :: rest => (magnitude? rest).map fun (n, rest) => (-n, rest)
    | _ => none
  magnitude? (cs : List Char) : Option (Int × List Char) := do
    let (hours, rest) ← twoDigits? cs
    let (minutes, rest) ← twoDigits? (rest.dropWhile fun c => c == ':' || Text.isBlank c)
    if minutes < 60 && hours < 24 then some ((hours * 3600 + minutes * 60 : Nat), rest) else none

def parse? (s : String) : Option Instant := do
  let (year, rest) ← year? s.toList
  let (month, rest) ← pair? (← skip? '-' rest)
  let (day, rest) ← pair? (← skip? '-' rest)
  let date ← Date.ofParts? year month day
  let rest ← match rest with
    | c :: rest => if c == 'T' || c == 't' || c == ' ' then some rest else none
    | [] => none
  let (hour, rest) ← pair? rest
  let (minute, rest) ← pair? (← skip? ':' rest)
  let (second, rest) ← pair? (← skip? ':' rest)
  let (nanosecond, rest) ← fraction? rest
  let (offset, rest) ← offset? (Text.trimLeft rest)
  guard ((Text.trimLeft rest).isEmpty && hour < 24 && minute < 60 && second ≤ 60)
  let leap := second == 60
  let secondOfDay := hour * 3600 + minute * 60 + (if leap then 59 else second)
  let (date, secondOfDay) := before date secondOfDay offset
  guard date.isValid
  return ⟨date, secondOfDay, if leap then nanosecond + perSecond else nanosecond⟩

end Instant

end Colloquy
