/-!
The identity of a run: thirty-two hexadecimal digits, read in any of their usual dresses and written
in lower case with hyphens.
-/

namespace Colloquy

structure RunId where
  text : String
  deriving DecidableEq, Repr

namespace RunId

def isHexDigit (c : Char) : Bool :=
  c.isDigit || ('a' ≤ c && c ≤ 'f') || ('A' ≤ c && c ≤ 'F')

/-- The digits in groups of eight, four, four, four and twelve. -/
def hyphenated (digits : List Char) : List Char :=
  digits.take 8 ++ '-' :: (digits.drop 8).take 4 ++ '-' :: (digits.drop 12).take 4 ++
    '-' :: (digits.drop 16).take 4 ++ '-' :: digits.drop 20

def unhyphenated? (cs : List Char) : Option (List Char) :=
  let digits := cs.filter (· != '-')
  if digits.length == 32 && cs == hyphenated digits then some digits else none

/-- The digits alone, with hyphens, with hyphens in braces, or with hyphens as a name of the `uuid`
space, whose prefix is read in any case. -/
def digits? (cs : List Char) : Option (List Char) :=
  if cs.length == 32 then some cs
  else if cs.length == 36 then unhyphenated? cs
  else if cs.length == 38 && cs.head? == some '\x7b' && cs.getLast? == some '\x7d' then
    unhyphenated? ((cs.drop 1).take 36)
  else if cs.length == 45 && (cs.take 9).map Char.toLower == "urn:uuid:".toList then unhyphenated? (cs.drop 9)
  else none

def parse? (s : String) : Option RunId := do
  let digits ← digits? s.toList
  guard (digits.all isHexDigit)
  return ⟨String.ofList (hyphenated (digits.map Char.toLower))⟩

end RunId

end Colloquy
