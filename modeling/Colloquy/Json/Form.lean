import Colloquy.Json.Basic

/-!
Text of correct form, between its tokens and its value. A numeral beyond the doubles, half a pair of
surrogates and brackets nested too deep are of correct form and yet have no value; they spoil a
document only where somebody looks.
-/

namespace Colloquy

/-- A document of correct form. What has no value at a leaf or a key is missing there. -/
inductive Form where
  | leaf (value : Option Json)
  | arr (items : List Form)
  | obj (members : List (Option String × Form))

inductive Interest where
  | whole
  | record (fields : List (String × Interest))
  | list (item : Interest)

namespace Interest

def ofFields (fields : List String) : Interest := record (fields.map (·, whole))

def member? (interest : Interest) (key : String) : Option Interest :=
  match interest with
  | record fields => (fields.find? (·.1 == key)).map (·.2)
  | _ => some whole

def item (interest : Interest) (place : Nat) : Interest :=
  match interest with
  | list item => item
  | record fields => (fields[place]?.map (·.2)).getD whole
  | whole => whole

end Interest

namespace Form

mutual

/-- The value as far as it is looked at, of at most `depth` levels. A member nobody looks at keeps
its key and stands as null. -/
def select (interest : Interest) (depth : Nat) : Form → Option Json
  | leaf value => value
  | arr items =>
    match depth with
    | 0 => none
    | depth + 1 => do return .arr (← selectItems interest depth 0 items)
  | obj members =>
    match depth with
    | 0 => none
    | depth + 1 => do return .obj (← selectMembers interest depth members)

def selectItems (interest : Interest) (depth place : Nat) : List Form → Option (List Json)
  | [] => some []
  | item :: rest => do
    let value ← select (interest.item place) depth item
    return value :: (← selectItems interest depth (place + 1) rest)

def selectMembers (interest : Interest) (depth : Nat) :
    List (Option String × Form) → Option Members
  | [] => some []
  | (key, form) :: rest => do
    let key ← key
    let value ← match interest.member? key with
      | some interest => select interest depth form
      | none => some .null
    return (key, value) :: (← selectMembers interest depth rest)

end

def maxDepth : Nat := 127

def value? (form : Form) : Option Json := form.select .whole maxDepth

end Form

end Colloquy
