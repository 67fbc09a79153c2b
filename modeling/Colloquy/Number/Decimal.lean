import Colloquy.Number.Floating

/-!
Decimal numerals: what they are worth, and the grammar of the numerals that settings and scores
are written in.
-/

namespace Colloquy

structure Decimal where
  negative : Bool
  digits : Nat
  exponent : Int

def digitsValue (cs : List Char) : Nat :=
  cs.foldl (fun n c => 10 * n + (c.toNat - '0'.toNat)) 0

def digitCount (n : Nat) : Nat := (Nat.toDigits 10 n).length

namespace Decimal

/-- Past this power of ten every format has overflowed or vanished, so no larger one is computed. -/
def horizon : Int := 400

def toFloating (format : FloatFormat) (d : Decimal) : Floating :=
  if d.digits = 0 then .finite (format.zero d.negative)
  else
    let reach := digitCount d.digits + d.exponent
    if horizon < reach then .infinite d.negative
    else if reach < -horizon then .finite (format.zero d.negative)
    else format.round d.negative (d.digits * Nat.pow 10 d.exponent.toNat)
      (Nat.pow 10 (-d.exponent).toNat)

def ofParts (negative : Bool) (whole fraction : List Char) (exponent : Int) : Decimal :=
  ⟨negative, digitsValue (whole ++ fraction), exponent - fraction.length⟩

end Decimal

def spanDigits (cs : List Char) : List Char × List Char := cs.span Char.isDigit

def takeSign : List Char → Bool × List Char
  | '-' :: rest => (true, rest)
  | '+' :: rest => (false, rest)
  | rest => (false, rest)

/-- The exponent part, which must be all that is left: nothing, or `e`, a sign and digits. -/
def exponent? : List Char → Option Int
  | [] => some 0
  | c :: rest =>
    if c == 'e' || c == 'E' then
      let (negative, rest) := takeSign rest
      let (digits, rest) := spanDigits rest
      if digits.isEmpty || !rest.isEmpty then none
      else some (if negative then -(digitsValue digits : Int) else digitsValue digits)
    else none

def special? (negative : Bool) (cs : List Char) : Option Floating :=
  match String.ofList (cs.map Char.toLower) with
  | "inf" | "infinity" => some (.infinite negative)
  | "nan" => some .nan
  | _ => none

/-- A numeral with an optional sign, digits on at least one side of an optional point, and an
optional exponent; or one of the words for infinity and not-a-number. -/
def Floating.parse? (format : FloatFormat) (s : String) : Option Floating :=
  let (negative, rest) := takeSign s.toList
  match special? negative rest with
  | some value => some value
  | none =>
    let (whole, rest) := spanDigits rest
    let (fraction, rest) := match rest with
      | '.' :: rest => spanDigits rest
      | rest => ([], rest)
    if whole.isEmpty && fraction.isEmpty then none
    else (exponent? rest).map fun e =>
      (Decimal.ofParts negative whole fraction e).toFloating format

def wholeNumber? (s : String) : Option Nat :=
  let digits := match s.toList with
    | '+' :: rest => rest
    | rest => rest
  if digits.isEmpty || !digits.all Char.isDigit then none else some (digitsValue digits)

end Colloquy
