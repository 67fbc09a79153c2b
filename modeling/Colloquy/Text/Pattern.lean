/-!
Patterns for the start of a text: pieces in a row, each of them one character of a class or as many
of a class as it can have. Of several matches the one counts in which earlier pieces have more.
-/

namespace Colloquy.Text

inductive Piece where
  | one (among : Char → Bool)
  | many (among : Char → Bool)

abbrev Pattern := List Piece

namespace Pattern

def literal (cs : List Char) : Pattern := cs.map fun c => .one (· == c)

/-- Takes as many characters of the class as it can, and gives the last of them back as long as the
others do not fit what is left. -/
def longest? (among : Char → Bool) (others : List Char → Option (List Char)) :
    List Char → Option (List Char)
  | [] => others []
  | c :: cs =>
    if among c then (longest? among others cs).orElse fun _ => others (c :: cs) else others (c :: cs)

def rest? : Pattern → List Char → Option (List Char)
  | [], cs => some cs
  | .one among :: others, cs =>
    match cs with
    | [] => none
    | c :: cs => if among c then rest? others cs else none
  | .many among :: others, cs => longest? among (rest? others) cs

end Pattern

end Colloquy.Text
