import Colloquy.Json.Form
import Colloquy.Json.Token

/-!
Reading JSON text. The tokens drive a stack of open arrays and objects; a text is a document when
its tokens close everything they open and leave exactly one form.
-/

namespace Colloquy

namespace Form

/-- What has been read of an array or object that is still open, newest first, and a key whose
value is due. -/
inductive Frame where
  | array (items : List Form)
  | object (members : List (Option String × Form))
  | member (key : Option String)

inductive Due where
  | value
  | firstItem
  | firstKey
  | key
  | colon
  | separator
  | nothing

structure ParseState where
  frames : List Frame
  due : Due
  result : Option Form

namespace ParseState

def initial : ParseState := ⟨[], .value, none⟩

def put (frames : List Frame) (form : Form) : Option ParseState :=
  match frames with
  | [] => some ⟨[], .nothing, some form⟩
  | .array items :: outer => some ⟨.array (form :: items) :: outer, .separator, none⟩
  | .member key :: .object members :: outer =>
    some ⟨.object ((key, form) :: members) :: outer, .separator, none⟩
  | _ => none

def startsValue (s : ParseState) : Json.Token → Option ParseState
  | .openArray => some ⟨.array [] :: s.frames, .firstItem, none⟩
  | .openObject => some ⟨.object [] :: s.frames, .firstKey, none⟩
  | .text text => put s.frames (.leaf (text.map Json.str))
  | .leaf value => put s.frames (.leaf value)
  | _ => none

def closes (s : ParseState) : Json.Token → Option ParseState
  | .closeArray => match s.frames with
    | .array items :: outer => put outer (.arr items.reverse)
    | _ => none
  | .closeObject => match s.frames with
    | .object members :: outer => put outer (.obj members.reverse)
    | _ => none
  | _ => none

def startsMember (s : ParseState) : Json.Token → Option ParseState
  | .text key => some { s with frames := .member key :: s.frames, due := .colon }
  | _ => none

def continues (s : ParseState) : Json.Token → Option ParseState
  | .comma => match s.frames with
    | .array _ :: _ => some { s with due := .value }
    | .object _ :: _ => some { s with due := .key }
    | _ => none
  | token => s.closes token

def step (s : ParseState) (token : Json.Token) : Option ParseState :=
  match s.due, token with
  | .value, token => s.startsValue token
  | .firstItem, .closeArray => s.closes .closeArray
  | .firstItem, token => s.startsValue token
  | .firstKey, .closeObject => s.closes .closeObject
  | .firstKey, token => s.startsMember token
  | .key, token => s.startsMember token
  | .colon, .colon => some { s with due := .value }
  | .colon, _ => none
  | .separator, token => s.continues token
  | .nothing, _ => none

end ParseState

def parse? (s : String) : Option Form := do
  let state ← (← Json.tokens s).foldlM ParseState.step .initial
  state.result

end Form

namespace Json

/-- The document that a text holds, members in document order. -/
def parse? (s : String) : Option Json := (Form.parse? s).bind Form.value?

/-- The value that a text holds, in canonical form. -/
def parseValue? (s : String) : Option Json := (parse? s).map canonical

end Json

end Colloquy
