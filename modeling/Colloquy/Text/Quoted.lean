import Colloquy.Text.Printable

/-!
Texts in double quotes, as error messages show them: a reader can tell every character apart.
-/

namespace Colloquy.Text

def hexDigits (n : Nat) : String := String.ofList (Nat.toDigits 16 n)

def codePointEscape (c : Char) : String := "\\u\x7b" ++ hexDigits c.toNat ++ "\x7d"

def quotedChar (c : Char) : String :=
  match c with
  | '"' => "\\\""
  | '\\' => "\\\\"
  | '\t' => "\\t"
  | '\r' => "\\r"
  | '\n' => "\\n"
  | '\x00' => "\\0"
  | c =>
    if extendsPrevious c || isFiller c || !isPrintable c then codePointEscape c
    else String.singleton c

def quoted (s : String) : String :=
  "\"" ++ String.join (s.toList.map quotedChar) ++ "\""

def quotedList (texts : List String) : String :=
  "[" ++ ", ".intercalate (texts.map quoted) ++ "]"

end Colloquy.Text
