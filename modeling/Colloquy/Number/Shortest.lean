import Colloquy.Number.Decimal

/-!
The shortest decimal that reads back as a given binary number, and of those the nearest to it.
-/

namespace Colloquy

structure Shortest where
  coefficient : Nat
  exponent : Int
  deriving DecidableEq, Repr

def comparePowers (a : Nat) (p : Int) (b : Nat) (q : Int) : Ordering :=
  compare (a * Nat.pow 2 p.toNat * Nat.pow 10 (-q).toNat)
    (b * Nat.pow 10 q.toNat * Nat.pow 2 (-p).toNat)

def floorLogTen (num den : Nat) : Int :=
  if den ≤ num then (digitCount (num / den) : Int) - 1
  else -(digitCount ((den - 1) / num) : Int)

namespace Dyadic

/-- Whether `coefficient · 10 ^ exponent` rounds to `d`: it lies between the midpoints to the
neighbours, which belong to `d` when its significand is even. Below a power of two the neighbour is
nearer. -/
def claims (format : FloatFormat) (d : Dyadic) (coefficient : Nat) (exponent : Int) : Bool :=
  let narrow := d.significand = Nat.pow 2 (format.precision - 1) ∧ format.least < d.exponent
  let low := 4 * d.significand - (if narrow then 1 else 2)
  let high := 4 * d.significand + 2
  let aboveLow := comparePowers low (d.exponent - 2) coefficient exponent
  let belowHigh := comparePowers high (d.exponent - 2) coefficient exponent
  let closed := d.significand % 2 == 0
  (aboveLow == .lt || (closed && aboveLow == .eq)) && (belowHigh == .gt || (closed && belowHigh == .eq))

def onGrid? (format : FloatFormat) (tie : Tie) (d : Dyadic) (exponent : Int) : Option Nat :=
  let (num, den) := d.magnitude
  let num := num * Nat.pow 10 (-exponent).toNat
  let den := den * Nat.pow 10 exponent.toNat
  let below := num / den
  match d.claims format below exponent, d.claims format (below + 1) exponent with
  | true, true => some (nearest tie num den)
  | true, false => some below
  | false, true => some (below + 1)
  | false, false => none

/-- Seventeen digits are enough for every double, and nine for every single. -/
def enoughDigits : Nat := 17

def shortest (format : FloatFormat) (tie : Tie) (d : Dyadic) : Shortest :=
  let (num, den) := d.magnitude
  let first := floorLogTen num den
  let found := (List.range enoughDigits).findSome? fun (n : Nat) =>
    let exponent := first - n
    (d.onGrid? format tie exponent).map fun coefficient => ⟨coefficient, exponent⟩
  found.getD ⟨num / den, 0⟩

end Dyadic

end Colloquy
