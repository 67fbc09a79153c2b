/-!
White space, by the Unicode property of that name, and the trimming built on it.
-/

namespace Colloquy.Text

/-- The property holds of twenty-five characters; the zero-width space is not one of them. -/
def isBlank (c : Char) : Bool :=
  let n := c.toNat
  (0x9 ≤ n && n ≤ 0xd) || n == 0x20 || n == 0x85 || n == 0xa0 || n == 0x1680 ||
    (0x2000 ≤ n && n ≤ 0x200a) || n == 0x2028 || n == 0x2029 || n == 0x202f || n == 0x205f ||
    n == 0x3000

def trimLeft (cs : List Char) : List Char := cs.dropWhile isBlank

def trimBoth (cs : List Char) : List Char := (trimLeft (trimLeft cs).reverse).reverse

def trim (s : String) : String := String.ofList (trimBoth s.toList)

def isBlankText (s : String) : Bool := s.toList.all isBlank

end Colloquy.Text
