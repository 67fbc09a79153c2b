import Colloquy.Json.Basic
import Colloquy.Number.Scaled

/-!
JSON text cut into tokens: brackets, commas, colons and leaves. White space between tokens is
dropped; any other character that starts no token spoils the text.
-/

namespace Colloquy.Json

inductive Token where
  | openArray
  | closeArray
  | openObject
  | closeObject
  | comma
  | colon
  /-- Without a value if half a pair of surrogates stands alone in it. -/
  | text (value : Option String)
  /-- A leaf that is not a text, without a value if it is a numeral beyond the doubles. -/
  | leaf (value : Option Json)

def isSpace (c : Char) : Bool := c == ' ' || c == '\t' || c == '\n' || c == '\r'

def hexValue? (c : Char) : Option Nat :=
  if c.isDigit then some (c.toNat - '0'.toNat)
  else if 'a' ≤ c ∧ c ≤ 'f' then some (c.toNat - 'a'.toNat + 10)
  else if 'A' ≤ c ∧ c ≤ 'F' then some (c.toNat - 'A'.toNat + 10)
  else none

def hexUnit? (a b c d : Char) : Option Nat := do
  return 4096 * (← hexValue? a) + 256 * (← hexValue? b) + 16 * (← hexValue? c) + (← hexValue? d)

def isHighSurrogate (unit : Nat) : Bool := 0xd800 ≤ unit && unit < 0xdc00

def isLowSurrogate (unit : Nat) : Bool := 0xdc00 ≤ unit && unit < 0xe000

def unitChar? (unit : Nat) : Option Char :=
  if isHighSurrogate unit || isLowSurrogate unit then none else some (Char.ofNat unit)

def pairedChar? (high low : Nat) : Option Char :=
  if isLowSurrogate low then
    some (Char.ofNat (0x10000 + 1024 * (high - 0xd800) + (low - 0xdc00)))
  else none

def simpleEscape? : Char → Option Char
  | '"' => some '"'
  | '\\' => some '\\'
  | '/' => some '/'
  | 'b' => some '\x08'
  | 'f' => some '\x0c'
  | 'n' => some '\n'
  | 'r' => some '\r'
  | 't' => some '\t'
  | _ => none

def pushChar (read : Option (List Char)) (c : Option Char) : Option (List Char) := do
  return (← c) :: (← read)

/-- The text up to the closing quote, and what follows it; `read` holds what has been read,
newest first. Control characters must be escaped. Surrogates that are not in pairs leave no text,
but what follows them must still be of correct form. -/
def scanText (read : Option (List Char)) : List Char → Option (Option String × List Char)
  | '"' :: rest => some (read.map fun cs => String.ofList cs.reverse, rest)
  | '\\' :: 'u' :: a :: b :: c :: d :: '\\' :: 'u' :: a' :: b' :: c' :: d' :: rest =>
    match hexUnit? a b c d with
    | none => none
    | some unit =>
      if isHighSurrogate unit then
        match hexUnit? a' b' c' d' with
        | none => none
        | some low => scanText (pushChar read (pairedChar? unit low)) rest
      else
        scanText (pushChar read (unitChar? unit)) ('\\' :: 'u' :: a' :: b' :: c' :: d' :: rest)
  | '\\' :: 'u' :: a :: b :: c :: d :: rest =>
    match hexUnit? a b c d with
    | none => none
    | some unit => scanText (pushChar read (unitChar? unit)) rest
  | '\\' :: c :: rest =>
    match simpleEscape? c with
    | none => none
    | some c => scanText (pushChar read c) rest
  | c :: rest => if c.toNat < 0x20 then none else scanText (pushChar read c) rest
  | [] => none

theorem scanText_length {read : Option (List Char)} {cs rest : List Char} {s : Option String}
    (scanned : scanText read cs = some (s, rest)) : rest.length < cs.length := by
  fun_induction scanText read cs <;> simp_all <;> omega

def isNumberChar (c : Char) : Bool :=
  c.isDigit || c == '-' || c == '+' || c == '.' || c == 'e' || c == 'E'

def isWholePart (digits : List Char) : Bool :=
  match digits with
  | [] => false
  | ['0'] => true
  | lead :: _ => lead != '0'

/-- A numeral: a whole part, and optionally a fraction and an exponent. Without either it is an
integer if it fits; a negative zero has no integer form. Any other numeral is read in doubles, and
its value is missing if that leads beyond them. -/
def numeral? (cs : List Char) : Option (Option Number) :=
  let (negative, rest) := match cs with
    | '-' :: rest => (true, rest)
    | rest => (false, rest)
  let (whole, rest) := spanDigits rest
  let (fraction, rest, pointed) := match rest with
    | '.' :: rest => ((spanDigits rest).1, (spanDigits rest).2, true)
    | rest => ([], rest, false)
  if !isWholePart whole || (pointed && fraction.isEmpty) then none
  else
    match exponent? rest with
    | none => none
    | some exponent =>
      let magnitude := digitsValue whole
      let n : Int := if negative then -(magnitude : Int) else magnitude
      if !pointed && rest.isEmpty && Number.holdsInt n && !(negative && magnitude == 0) then
        some (some (.int n))
      else
        some ((Decimal.cut negative whole fraction exponent).scaled?.map .float)

def scanToken : List Char → Option (Token × List Char)
  | '[' :: rest => some (.openArray, rest)
  | ']' :: rest => some (.closeArray, rest)
  | '{' :: rest => some (.openObject, rest)
  | '}' :: rest => some (.closeObject, rest)
  | ',' :: rest => some (.comma, rest)
  | ':' :: rest => some (.colon, rest)
  | '"' :: rest => (scanText (some []) rest).map fun (s, rest) => (.text s, rest)
  | 't' :: 'r' :: 'u' :: 'e' :: rest => some (.leaf (Json.bool true), rest)
  | 'f' :: 'a' :: 'l' :: 's' :: 'e' :: rest => some (.leaf (Json.bool false), rest)
  | 'n' :: 'u' :: 'l' :: 'l' :: rest => some (.leaf Json.null, rest)
  | c :: rest =>
    if isNumberChar c then
      (numeral? (c :: rest.takeWhile isNumberChar)).map fun n =>
        (.leaf (n.map Json.num), rest.dropWhile isNumberChar)
    else none
  | [] => none

theorem scanToken_length {cs rest : List Char} {token : Token}
    (scanned : scanToken cs = some (token, rest)) : rest.length < cs.length := by
  unfold scanToken at scanned
  split at scanned
  all_goals try (simp_all; done)
  · simp only [Option.map_eq_some_iff, Prod.mk.injEq, Prod.exists] at scanned
    obtain ⟨s, left, found, -, rfl⟩ := scanned
    exact Nat.lt_succ_of_lt (scanText_length found)
  · simp at scanned; obtain ⟨-, rfl⟩ := scanned; simp; omega
  · simp at scanned; obtain ⟨-, rfl⟩ := scanned; simp; omega
  · simp at scanned; obtain ⟨-, rfl⟩ := scanned; simp; omega
  · split at scanned
    · simp only [Option.map_eq_some_iff, Prod.mk.injEq] at scanned
      obtain ⟨n, -, -, rfl⟩ := scanned
      exact Nat.lt_succ_of_le (List.dropWhile_suffix _).length_le
    · simp at scanned

def tokensFrom (read : List Token) (cs : List Char) : Option (List Token) :=
  match cs with
  | [] => some read.reverse
  | c :: rest =>
    if isSpace c then tokensFrom read rest
    else
      match _found : scanToken (c :: rest) with
      | none => none
      | some (token, left) => tokensFrom (token :: read) left
termination_by cs.length
decreasing_by
  · simp
  · exact scanToken_length _found

def tokens (s : String) : Option (List Token) := tokensFrom [] s.toList

end Colloquy.Json
