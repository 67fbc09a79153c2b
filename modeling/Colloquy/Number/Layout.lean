import Colloquy.Number.Shortest

/-!
How numbers are written: the shortest digits in one of two layouts, or a fixed count of places.
-/

namespace Colloquy

structure Layout where
  format : FloatFormat
  /-- Of two shortest decimals equally near, which one. -/
  tie : Tie
  /-- Whether a first digit that counts `10 ^ e` is written positionally. -/
  positional : Int → Bool
  keepsFraction : Bool

namespace Layout

/-- Data: positional from five places after the point to sixteen before it. -/
def data : Layout := ⟨.double, .toEven, fun e => -5 ≤ e && e ≤ 15, true⟩

/-- Temperatures: positional throughout, and whole numbers bare. -/
def temperature : Layout := ⟨.single, .up, fun _ => true, false⟩

end Layout

def zeros (n : Nat) : List Char := List.replicate n '0'

/-- Digits with a point after the one that counts `10 ^ 0`; the first one counts `10 ^ first`. -/
def positionalDigits (keepsFraction : Bool) (digits : List Char) (first : Int) : List Char :=
  if first < 0 then ['0', '.'] ++ zeros (-first - 1).toNat ++ digits
  else
    let whole := first.toNat + 1
    let fraction := digits.drop whole
    let tail := if !fraction.isEmpty then '.' :: fraction else if keepsFraction then ['.', '0'] else []
    digits.take whole ++ zeros (whole - digits.length) ++ tail

def scientificDigits (digits : List Char) (first : Int) : List Char :=
  let mantissa := match digits with
    | lead :: next :: rest => lead :: '.' :: next :: rest
    | short => short
  let sign := if first < 0 then '-' else '+'
  mantissa ++ ['e', sign] ++ Nat.toDigits 10 first.natAbs

def significantDigits (n : Nat) : List Char :=
  ((Nat.toDigits 10 n).reverse.dropWhile (· == '0')).reverse

def Layout.magnitude (layout : Layout) (d : Dyadic) : List Char :=
  if d.isZero then if layout.keepsFraction then ['0', '.', '0'] else ['0']
  else
    let short := d.shortest layout.format layout.tie
    let digits := significantDigits short.coefficient
    let first := short.exponent + digitCount short.coefficient - 1
    if layout.positional first then positionalDigits layout.keepsFraction digits first
    else scientificDigits digits first

def Dyadic.write (layout : Layout) (d : Dyadic) : String :=
  String.ofList (if d.negative then '-' :: layout.magnitude d else layout.magnitude d)

def infinityText (negative : Bool) : String := if negative then "-inf" else "inf"

def Floating.write (layout : Layout) : Floating → String
  | .finite d => d.write layout
  | .infinite negative => infinityText negative
  | .nan => "NaN"

/-- Exactly `places` digits after the point, the exact value rounded half to even. -/
def Dyadic.writeFixed (places : Nat) (d : Dyadic) : String :=
  let (num, den) := d.magnitude
  let digits := Nat.toDigits 10 (nearest .toEven (num * Nat.pow 10 places) den)
  let padded := zeros (places + 1 - digits.length) ++ digits
  let whole := padded.take (padded.length - places)
  let fraction := padded.drop (padded.length - places)
  let sign := if d.negative then "-" else ""
  sign ++ String.ofList (whole ++ '.' :: fraction)

def Floating.writeFixed (places : Nat) : Floating → String
  | .finite d => d.writeFixed places
  | .infinite negative => infinityText negative
  | .nan => "NaN"

end Colloquy
