/-!
Binary floating-point numbers as plain data, and the one rounding they all go through. A finite
number is `significand · 2 ^ exponent`; in a format its form is unique, because the exponent is as
small as the precision and the range of the format allow.
-/

namespace Colloquy

/-- A finite binary number; zero keeps its sign. -/
structure Dyadic where
  negative : Bool
  significand : Nat
  exponent : Int
  deriving DecidableEq, Repr

inductive Floating where
  | finite (value : Dyadic)
  | infinite (negative : Bool)
  | nan
  deriving DecidableEq, Repr

inductive Tie where
  | toEven
  | up

def nearest (tie : Tie) (num den : Nat) : Nat :=
  let quotient := num / den
  let twice := 2 * (num % den)
  if twice < den then quotient
  else if den < twice then quotient + 1
  else match tie with
    | .toEven => quotient + quotient % 2
    | .up => quotient + 1

/-- A significand has at most `precision` bits, and its last bit counts `2 ^ least` to
`2 ^ greatest`. -/
structure FloatFormat where
  precision : Nat
  least : Int
  greatest : Int

namespace FloatFormat

def double : FloatFormat := ⟨53, -1074, 971⟩

def single : FloatFormat := ⟨24, -149, 104⟩

end FloatFormat

def scaleByTwo (n : Nat) (e : Int) : Nat × Nat := (n * Nat.pow 2 e.toNat, Nat.pow 2 (-e).toNat)

/-- The greatest `e` with `2 ^ e ≤ num / den`, for positive numbers. -/
def floorLogTwo (num den : Nat) : Int :=
  let estimate := (num.log2 : Int) - den.log2
  if num * Nat.pow 2 (-estimate).toNat < den * Nat.pow 2 estimate.toNat then estimate - 1 else estimate

namespace FloatFormat

def zero (format : FloatFormat) (negative : Bool) : Dyadic := ⟨negative, 0, format.least⟩

/-- The number of the format nearest to `num / den`, a tie going to the even significand; beyond
the greatest finite number it is infinite. -/
def round (format : FloatFormat) (negative : Bool) (num den : Nat) : Floating :=
  if num = 0 then .finite (format.zero negative)
  else
    let unit := max format.least (floorLogTwo num den + 1 - format.precision)
    let significand := nearest .toEven (num * Nat.pow 2 (-unit).toNat) (den * Nat.pow 2 unit.toNat)
    let carried := significand = Nat.pow 2 format.precision
    let significand := if carried then significand / 2 else significand
    let unit := if carried then unit + 1 else unit
    if format.greatest < unit then .infinite negative
    else .finite ⟨negative, significand, unit⟩

def roundInt (format : FloatFormat) (n : Int) : Floating := format.round (n < 0) n.natAbs 1

def roundFloating (format : FloatFormat) : Floating → Floating
  | .finite d =>
    let (num, den) := scaleByTwo d.significand d.exponent
    format.round d.negative num den
  | other => other

end FloatFormat

namespace Dyadic

def isZero (d : Dyadic) : Bool := d.significand == 0

def magnitude (d : Dyadic) : Nat × Nat := scaleByTwo d.significand d.exponent

def isWhole (d : Dyadic) : Bool :=
  let (num, den) := d.magnitude
  num % den == 0

end Dyadic

namespace Floating

def isBelowZero : Floating → Bool
  | .finite d => d.negative && !d.isZero
  | .infinite negative => negative
  | .nan => false

def isFinite : Floating → Bool
  | .finite _ => true
  | _ => false

def finite? : Floating → Option Dyadic
  | .finite d => some d
  | _ => none

def scale (format : FloatFormat) (n : Nat) : Floating → Floating
  | .finite d =>
    let (num, den) := d.magnitude
    format.round d.negative (num * n) den
  | other => other

end Floating

end Colloquy
