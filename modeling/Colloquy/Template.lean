import Colloquy.Text.Alphanumeric

/-!
Prompt templates: text with placeholders, each a name between `$` with an opening brace and the
next closing brace. A name is made of letters, numbers and underscores and is not empty.
-/

namespace Colloquy

inductive Segment where
  | literal (text : List Char)
  | placeholder (name : List Char)
  deriving DecidableEq, Repr

namespace Template

def malformed : String := "malformed placeholder"

def hole (name : String) : String := "$\x7b" ++ name ++ "\x7d"

def isNameChar (c : Char) : Bool := Text.isAlphanumeric c || c == '_'

def isName (cs : List Char) : Bool := !cs.isEmpty && cs.all isNameChar

mutual

/-- The segments of a text; `read` holds the characters of the literal so far, newest first. -/
def literalFrom (read : List Char) : List Char → Option (List Segment)
  | '$' :: '{' :: rest => (nameFrom [] rest).map (.literal read.reverse :: ·)
  | c :: rest => literalFrom (c :: read) rest
  | [] => some [.literal read.reverse]

def nameFrom (read : List Char) : List Char → Option (List Segment)
  | '}' :: rest =>
    if isName read.reverse then (literalFrom [] rest).map (.placeholder read.reverse :: ·) else none
  | c :: rest => nameFrom (c :: read) rest
  | [] => none

end

/-- Literals and placeholders in turn, a literal at either end; nothing if a placeholder is
malformed. -/
def segments (template : String) : Option (List Segment) := literalFrom [] template.toList

def Segment.name? : Segment → Option String
  | .placeholder name => some (String.ofList name)
  | .literal _ => none

def placeholders (template : String) : Option (List String) :=
  (segments template).map (·.filterMap Segment.name?)

/-- Writes the segments out, each name replaced by its value; the first name without a value is
handed back. -/
def substitute (value? : String → Option String) : List Segment → Except String String
  | [] => .ok ""
  | .literal text :: rest => do return String.ofList text ++ (← substitute value? rest)
  | .placeholder name :: rest =>
    match value? (String.ofList name) with
    | none => .error (String.ofList name)
    | some value => do return value ++ (← substitute value? rest)

end Template

end Colloquy
