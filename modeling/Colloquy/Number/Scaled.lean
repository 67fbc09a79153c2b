import Colloquy.Number.Decimal

/-!
Decimal numerals read in double arithmetic: as many digits as fit sixty-four bits, times or over a
power of ten. Every step rounds, so that the result need not be the double nearest to the numeral.
-/

namespace Colloquy

/-- The number that the digits go on with as long as it fits sixty-four bits, and the digits
left. -/
def fillWord (n : Nat) : List Char → Nat × List Char
  | [] => (n, [])
  | c :: rest =>
    let longer := 10 * n + (c.toNat - '0'.toNat)
    if longer < Nat.pow 2 64 then fillWord longer rest else (n, c :: rest)

namespace Dyadic

def times? (format : FloatFormat) (a b : Dyadic) : Option Dyadic :=
  let (num, den) := a.magnitude
  let (factor, divisor) := b.magnitude
  (format.round (a.negative != b.negative) (num * factor) (den * divisor)).finite?

def over? (format : FloatFormat) (a b : Dyadic) : Option Dyadic :=
  let (num, den) := a.magnitude
  let (divisor, factor) := b.magnitude
  (format.round (a.negative != b.negative) (num * factor) (den * divisor)).finite?

def greatestPower : Nat := 308

def powerOfTen? (n : Nat) : Option Dyadic :=
  if n ≤ greatestPower then (FloatFormat.double.round false (Nat.pow 10 n) 1).finite? else none

/-- Over the greatest power of ten so many times, or until nothing is left. -/
def shrink : Nat → Dyadic → Option Dyadic
  | 0, d => some d
  | times + 1, d =>
    if d.isZero then some d
    else do shrink times (← d.over? .double (← powerOfTen? greatestPower))

/-- Missing where the product is beyond the doubles. -/
def scaleByTen? (d : Dyadic) (exponent : Int) : Option Dyadic :=
  let size := exponent.natAbs
  if exponent < 0 then do
    let times := (size - 1) / greatestPower
    (← d.shrink times).over? .double (← powerOfTen? (size - times * greatestPower))
  else
    match powerOfTen? size with
    | some power => d.times? .double power
    | none => if d.isZero then some d else none

end Dyadic

namespace Decimal

/-- A digit too many counts as a zero in the whole part and for nothing in the fraction. -/
def cut (negative : Bool) (whole fraction : List Char) (exponent : Int) : Decimal :=
  let (digits, zeros) := fillWord 0 whole
  let (digits, dropped) := fillWord digits fraction
  ⟨negative, digits, zeros.length + exponent - (fraction.length - dropped.length : Nat)⟩

def scaled? (d : Decimal) : Option Dyadic := do
  let whole ← (FloatFormat.double.round false d.digits 1).finite?
  let scaled ← whole.scaleByTen? d.exponent
  return { scaled with negative := d.negative }

/-- Each of the two numerals is nearest to a double of its own. -/
example : scaled? ⟨false, 31245270191439438, -15⟩ = scaled? ⟨false, 3124527019143944, -14⟩ := by
  decide

end Decimal

end Colloquy
