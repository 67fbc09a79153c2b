import Colloquy.Number.Decimal

/-!
Lengths of time in whole nanoseconds.
-/

namespace Colloquy

structure Duration where
  nanoseconds : Nat
  deriving DecidableEq, Repr

namespace Duration

def perSecond : Nat := Nat.pow 10 9

def seconds (d : Duration) : Nat := d.nanoseconds / perSecond

def subsecond (d : Duration) : Nat := d.nanoseconds % perSecond

def secondsLimit : Nat := Nat.pow 2 64

/-- The nearest whole number of nanoseconds, a tie going to the even one. A length that is negative
or too long is none. -/
def ofSeconds? : Floating → Option Duration
  | .finite d =>
    let (num, den) := d.magnitude
    if d.negative && !d.isZero then none
    else if den * secondsLimit ≤ num then none
    else some ⟨nearest .toEven (num * perSecond) den⟩
  | _ => none

/-- Writes `n` parts, `10 ^ places` of which make a unit: the whole units, and after a point the parts
that are left, if there are any, without the zeros they end with. -/
def decimalText (n places : Nat) : String :=
  let digits := Nat.toDigits 10 (n % Nat.pow 10 places)
  let parts := List.replicate (places - digits.length) '0' ++ digits
  let shown := (parts.reverse.dropWhile (· == '0')).reverse
  let whole := toString (n / Nat.pow 10 places)
  if places == 0 || shown.isEmpty then whole else whole ++ "." ++ String.ofList shown

/-- In the greatest unit that leaves at least one whole. -/
def text (d : Duration) : String :=
  let n := d.nanoseconds
  if Nat.pow 10 9 ≤ n then decimalText n 9 ++ "s"
  else if Nat.pow 10 6 ≤ n then decimalText n 6 ++ "ms"
  else if Nat.pow 10 3 ≤ n then decimalText n 3 ++ "µs"
  else decimalText n 0 ++ "ns"

end Duration

end Colloquy
