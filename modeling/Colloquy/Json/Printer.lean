import Colloquy.Json.Basic
import Colloquy.Number.Layout

/-!
Writing JSON: on one line, or indented for people. Members are written in the order they stand in.
-/

namespace Colloquy.Json

def hexPair (n : Nat) : List Char := [Nat.digitChar (n / 16), Nat.digitChar (n % 16)]

/-- Only quotes, backslashes and control characters are escaped. -/
def escapedChar (c : Char) : List Char :=
  match c with
  | '"' => ['\\', '"']
  | '\\' => ['\\', '\\']
  | '\x08' => ['\\', 'b']
  | '\x0c' => ['\\', 'f']
  | '\n' => ['\\', 'n']
  | '\r' => ['\\', 'r']
  | '\t' => ['\\', 't']
  | c => if c.toNat < 0x20 then ['\\', 'u', '0', '0'] ++ hexPair c.toNat else [c]

def textLiteral (s : String) : String :=
  "\"" ++ String.ofList (s.toList.flatMap escapedChar) ++ "\""

def numberLiteral : Number → String
  | .int n => toString n
  | .float d => d.write .data

def boolLiteral (b : Bool) : String := if b then "true" else "false"

mutual

def compact : Json → String
  | null => "null"
  | bool b => boolLiteral b
  | num n => numberLiteral n
  | str s => textLiteral s
  | arr items => "[" ++ ",".intercalate (compactItems items) ++ "]"
  | obj members => "\x7b" ++ ",".intercalate (compactMembers members) ++ "\x7d"

def compactItems : List Json → List String
  | [] => []
  | item :: rest => compact item :: compactItems rest

def compactMembers : List (String × Json) → List String
  | [] => []
  | (key, value) :: rest => (textLiteral key ++ ":" ++ compact value) :: compactMembers rest

end

def lineBreak (level : Nat) : String := "\n" ++ String.ofList (List.replicate (2 * level) ' ')

def block (level : Nat) (opening closing : String) (parts : List String) : String :=
  if parts.isEmpty then opening ++ closing
  else
    opening ++ lineBreak (level + 1) ++ ("," ++ lineBreak (level + 1)).intercalate parts ++
      lineBreak level ++ closing

mutual

def indented (level : Nat) : Json → String
  | arr items => block level "[" "]" (indentedItems (level + 1) items)
  | obj members => block level "\x7b" "\x7d" (indentedMembers (level + 1) members)
  | leaf => compact leaf

def indentedItems (level : Nat) : List Json → List String
  | [] => []
  | item :: rest => indented level item :: indentedItems level rest

def indentedMembers (level : Nat) : List (String × Json) → List String
  | [] => []
  | (key, value) :: rest =>
    (textLiteral key ++ ": " ++ indented level value) :: indentedMembers level rest

end

def pretty (value : Json) : String := indented 0 value

end Colloquy.Json
