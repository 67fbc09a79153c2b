import Colloquy.Json.Document
import Colloquy.Proofs.Json.Printer

/-!
What is written on one line is read back as it was, as far as its numbers are and it nests no deeper
than readers go.
-/

namespace Colloquy

namespace Json

/-! ### Numbers -/

theorem toDigits_lead {n : ℕ} {rest : List Char} (lead : Nat.toDigits 10 n = '0' :: rest) :
    rest = [] := by
  induction n using Nat.strongRecOn generalizing rest with
  | ind n ih =>
    by_cases single : n < 10
    · rw [Nat.toDigits_of_lt_base single] at lead
      exact (List.cons.inj lead).2.symm
    · have positive : 0 < n / 10 := by omega
      have last : n % 10 < 10 := by omega
      have split := Nat.toDigits_append_toDigits (by decide : 1 < 10) positive last
      rw [Nat.div_add_mod, lead] at split
      obtain ⟨d, digits, first⟩ :=
        List.exists_cons_of_ne_nil (Nat.toDigits_ne_nil : Nat.toDigits 10 (n / 10) ≠ [])
      rw [first] at split
      obtain rfl : d = '0' := (List.cons.inj split).1
      have zero := digitsValue_toDigits (n / 10)
      rw [first, ih (n / 10) (by omega) first] at zero
      have nothing : digitsValue ['0'] = 0 := rfl
      omega

theorem isWholePart_toDigits (n : ℕ) : isWholePart (Nat.toDigits 10 n) = true := by
  obtain ⟨lead, rest, digits⟩ :=
    List.exists_cons_of_ne_nil (Nat.toDigits_ne_nil : Nat.toDigits 10 n ≠ [])
  rw [digits]
  by_cases zero : lead = '0'
  · subst zero
    rw [toDigits_lead digits]
    rfl
  · unfold isWholePart
    split <;> simp_all

theorem spanDigits_toDigits (n : ℕ) : spanDigits (Nat.toDigits 10 n) = (Nat.toDigits 10 n, []) := by
  have all : spanDigits (Nat.toDigits 10 n ++ []) = (Nat.toDigits 10 n, []) :=
    spanDigits_append (allDigits_toDigits n) (by simp)
  rwa [List.append_nil] at all

theorem numeral?_toString {n : ℤ} (holds : Number.holdsInt n = true) :
    numeral? (toString n).toList = some (some (.int n)) := by
  have spanned := spanDigits_toDigits n.natAbs
  have whole := isWholePart_toDigits n.natAbs
  have value := digitsValue_toDigits n.natAbs
  rw [toString_toList]
  by_cases sign : n < 0
  · have magnitude : -|n| = n := by rw [abs_of_neg sign, neg_neg]
    have nonzero : n.natAbs ≠ 0 := by omega
    rw [if_pos sign]
    simp only [numeral?, spanned, whole, exponent?, value]
    simp [magnitude, nonzero, holds]
  · have magnitude : |n| = n := abs_of_nonneg (Int.not_lt.mp sign)
    rw [if_neg sign]
    unfold numeral?
    split
    rename_i negative rest unsigned
    split at unsigned
    · rename_i signed
      have digit := allDigits_toDigits n.natAbs '-' (signed ▸ List.mem_cons_self)
      exact absurd digit (by decide)
    · cases unsigned
      simp only [spanned, whole, exponent?, value]
      simp [magnitude, holds]

theorem scanToken_number {c : Char} {rest : List Char} (number : isNumberChar c = true) :
    scanToken (c :: rest) = (numeral? (c :: rest.takeWhile isNumberChar)).map fun n =>
      (.leaf (n.map Json.num), rest.dropWhile isNumberChar) := by
  unfold scanToken
  split
  case h_11 same =>
    cases same
    exact if_pos number
  case h_12 same => cases same
  all_goals
    rename_i same
    cases same
    exact absurd number (by decide)

theorem scanToken_numberLiteral {n : Number} {rest : List Char}
    (same : numeral? (numberLiteral n).toList = some (some n)) (ends : Stops rest) :
    ∃ c cs, (numberLiteral n).toList = c :: cs ∧ isSpace c = false ∧
      scanToken (c :: (cs ++ rest)) = some (.leaf (some (.num n)), rest) := by
  obtain ⟨nonempty, chars⟩ := number_numberLiteral n
  obtain ⟨c, cs, written⟩ := List.exists_cons_of_ne_nil nonempty
  rw [written] at chars
  obtain ⟨first, others⟩ := List.forall_mem_cons.mp chars
  have stopped : rest.takeWhile isNumberChar = [] ∧ rest.dropWhile isNumberChar = rest := by
    cases rest with
    | nil => simp
    | cons d rest => simp [ends d rfl]
  refine ⟨c, cs, written, ?_, ?_⟩
  · rw [← Bool.not_eq_true]
    intro space
    simp only [isSpace, Bool.or_eq_true, beq_iff_eq] at space
    rcases space with ((rfl | rfl) | rfl) | rfl <;> cases first
  · rw [scanToken_number first, List.takeWhile_append_of_pos others,
      List.dropWhile_append_of_pos others, stopped.1, stopped.2, List.append_nil, ← written, same]
    rfl

/-! ### Characters, tokens and states -/

open Form (ParseState)

theorem tokensFrom_cons {read : List Token} {token : Token} {c : Char} {cs rest : List Char}
    (solid : isSpace c = false) (scanned : scanToken (c :: cs) = some (token, rest)) :
    tokensFrom read (c :: cs) = tokensFrom (token :: read) rest := by
  rw [tokensFrom]
  simp only [solid, Bool.false_eq_true, if_false]
  split
  · rename_i failed
    rw [scanned] at failed
    cases failed
  · rename_i found
    rw [scanned] at found
    cases found
    rfl

/-- The characters take the parser from one state to another, whatever follows. If they end in a
number, what follows must not go on with it. -/
def Drives (cs : List Char) (s next : ParseState) : Prop :=
  ∃ tokens : List Token, (∀ read rest, Stops rest →
      tokensFrom read (cs ++ rest) = tokensFrom (tokens.reverse ++ read) rest) ∧
    tokens.foldlM ParseState.step s = some next

namespace Drives

variable {cs ds : List Char} {c : Char} {s middle next : ParseState}

theorem nil : Drives [] s s := ⟨[], fun _ _ _ => rfl, rfl⟩

theorem append (first : Drives cs s middle) (second : Drives ds middle next)
    (stops : ∀ rest, Stops rest → Stops (ds ++ rest)) : Drives (cs ++ ds) s next := by
  obtain ⟨tokens, scanned, stepped⟩ := first
  obtain ⟨more, scannedToo, steppedToo⟩ := second
  refine ⟨tokens ++ more, fun read rest ends => ?_, ?_⟩
  · rw [List.append_assoc, scanned _ _ (stops rest ends), scannedToo _ _ ends,
      List.reverse_append, List.append_assoc]
  · rw [List.foldlM_append, stepped]
    exact steppedToo

theorem token {token : Token} (scanned : ∀ rest, scanToken (c :: (cs ++ rest)) = some (token, rest))
    (solid : isSpace c = false) (stepped : s.step token = some middle)
    (onwards : Drives ds middle next) : Drives (c :: (cs ++ ds)) s next := by
  obtain ⟨tokens, read, drive⟩ := onwards
  refine ⟨token :: tokens, fun held rest ends => ?_, ?_⟩
  · rw [List.cons_append, List.append_assoc, tokensFrom_cons solid (scanned (ds ++ rest)),
      read _ _ ends, List.reverse_cons, List.append_assoc, List.singleton_append]
  · rw [List.foldlM_cons, stepped]
    exact drive

theorem text {key : String} (stepped : s.step (.text (some key)) = some middle)
    (onwards : Drives ds middle next) : Drives ((textLiteral key).toList ++ ds) s next := by
  rw [textLiteral_toList]
  refine token (fun rest => ?_) rfl stepped onwards
  rw [scanToken, List.append_assoc, List.singleton_append, scanText_escaped]
  simp

theorem mark {token : Token} (scanned : ∀ rest, scanToken (c :: rest) = some (token, rest))
    (solid : isSpace c = false) (stepped : s.step token = some middle)
    (onwards : Drives ds middle next) : Drives (c :: ds) s next := by
  rw [← List.nil_append ds]
  exact .token scanned solid stepped onwards

theorem tails {α : Type} {f : α → List Char} {state : Form.Due → List α → ParseState}
    {later : Form.Due} {closing : Char} {close : Token} {xs done : List α}
    (part : ∀ x ∈ xs, ∀ done, Drives (f x) (state later done) (state .separator (x :: done)))
    (comma : ∀ done, (state .separator done).step .comma = some (state later done))
    (closes : (state .separator (xs.reverse ++ done)).step close = some next)
    (scanned : ∀ rest, scanToken (closing :: rest) = some (close, rest))
    (solid : isSpace closing = false) (stops : isNumberChar closing = false) :
    Drives (Colloquy.tails f [] xs ++ [closing]) (state .separator done) next := by
  induction xs generalizing done with
  | nil => exact .mark scanned solid closes .nil
  | cons x rest ih =>
    obtain ⟨first, others⟩ := List.forall_mem_cons.mp part
    have onwards :
        Drives (Colloquy.tails f [] rest ++ [closing]) (state .separator (x :: done)) next :=
      ih others (by simpa using closes)
    have whole := (first done).append onwards fun behind _ => by
      simpa using stops_tails (s := behind) [] stops
    have all : Drives (',' :: (f x ++ (Colloquy.tails f [] rest ++ [closing])))
        (state .separator done) next := .mark (fun _ => rfl) rfl (comma done) whole
    simpa [Colloquy.tails] using all

end Drives

end Json

namespace Form

mutual

def ofJson : Json → Form
  | .arr items => .arr (ofItems items)
  | .obj members => .obj (ofMembers members)
  | value => .leaf (some value)

def ofItems : List Json → List Form
  | [] => []
  | item :: rest => ofJson item :: ofItems rest

def ofMembers : List (String × Json) → List (Option String × Form)
  | [] => []
  | (key, value) :: rest => (some key, ofJson value) :: ofMembers rest

end

theorem ofItems_eq (items : List Json) : ofItems items = items.map ofJson := by
  induction items with
  | nil => rfl
  | cons item rest ih => rw [ofItems, ih, List.map_cons]

theorem ofMembers_eq (members : Members) :
    ofMembers members = members.map fun entry => (some entry.1, ofJson entry.2) := by
  induction members with
  | nil => rfl
  | cons entry rest ih => rw [ofMembers, ih, List.map_cons]

theorem selectItems_ofItems {depth place : ℕ} {items : List Json}
    (each : ∀ item ∈ items, (ofJson item).select .whole depth = some item) :
    selectItems .whole depth place (ofItems items) = some items := by
  induction items generalizing place with
  | nil => simp [ofItems, selectItems]
  | cons item rest ih =>
    obtain ⟨first, others⟩ := List.forall_mem_cons.mp each
    simp [ofItems, selectItems, Interest.item, first, ih others]

theorem selectMembers_ofMembers {depth : ℕ} {members : Members}
    (each : ∀ entry ∈ members, (ofJson entry.2).select .whole depth = some entry.2) :
    selectMembers .whole depth (ofMembers members) = some members := by
  induction members with
  | nil => simp [ofMembers, selectMembers]
  | cons entry rest ih =>
    obtain ⟨first, others⟩ := List.forall_mem_cons.mp each
    simp [ofMembers, selectMembers, Interest.member?, first, ih others]

end Form

namespace Json

open Form (ParseState)

/-- Every number is read as it is written, and at most so many brackets stand inside each other. -/
inductive Plain : ℕ → Json → Prop
  | null {depth : ℕ} : Plain depth .null
  | bool {depth : ℕ} (flag : Bool) : Plain depth (.bool flag)
  | num {depth : ℕ} {n : Number} (same : numeral? (numberLiteral n).toList = some (some n)) :
      Plain depth (.num n)
  | str {depth : ℕ} (text : String) : Plain depth (.str text)
  | arr {depth : ℕ} {items : List Json} (each : ∀ item ∈ items, Plain depth item) :
      Plain (depth + 1) (.arr items)
  | obj {depth : ℕ} {members : Members} (each : ∀ entry ∈ members, Plain depth entry.2) :
      Plain (depth + 1) (.obj members)

namespace Plain

variable {depth : ℕ} {value : Json}

theorem int {n : ℤ} (holds : Number.holdsInt n = true) : Plain depth (.num (.int n)) :=
  .num (numeral?_toString holds)

theorem select (plain : Plain depth value) :
    (Form.ofJson value).select .whole depth = some value := by
  induction plain with
  | null | bool | num | str => simp [Form.ofJson, Form.select]
  | arr each ih => simp [Form.ofJson, Form.select, Form.selectItems_ofItems ih]
  | obj each ih => simp [Form.ofJson, Form.select, Form.selectMembers_ofMembers ih]

end Plain

def arrayState (outer : List Form.Frame) (due : Form.Due) (items : List Json) : ParseState :=
  ⟨.array (items.map Form.ofJson) :: outer, due, none⟩

def objectState (outer : List Form.Frame) (due : Form.Due) (members : Members) : ParseState :=
  ⟨.object (members.map fun entry => (some entry.1, Form.ofJson entry.2)) :: outer, due, none⟩

def ReadsValue (value : Json) : Prop :=
  ∀ {s next : ParseState}, s.due = .value ∨ s.due = .firstItem →
    ParseState.put s.frames (Form.ofJson value) = some next → Drives (compact value).toList s next

section

variable {s next : ParseState}

theorem step_due (due : s.due = .value ∨ s.due = .firstItem) (token : Token)
    (other : token ≠ .closeArray) : s.step token = s.startsValue token := by
  rcases due with due | due <;> cases token <;> simp_all [ParseState.step]

theorem reads_arr {items : List Json} (each : ∀ item ∈ items, ReadsValue item) :
    ReadsValue (.arr items) := by
  intro s next due put
  have opened : s.step .openArray = some (arrayState s.frames .firstItem []) :=
    step_due due .openArray (by simp)
  rw [compact_arr]
  refine .mark (fun _ => rfl) rfl opened ?_
  cases items with
  | nil => exact .mark (fun _ => rfl) rfl put .nil
  | cons item rest =>
    obtain ⟨first, others⟩ := List.forall_mem_cons.mp each
    have head : Drives (compact item).toList (arrayState s.frames .firstItem [])
        (arrayState s.frames .separator [item]) := first (.inr rfl) rfl
    have closes : (arrayState s.frames .separator (rest.reverse ++ [item])).step .closeArray =
        some next := by
      rw [← put, Form.ofJson, Form.ofItems_eq, ← List.reverse_cons]
      change ParseState.put s.frames (.arr (((item :: rest).reverse.map Form.ofJson).reverse)) = _
      rw [List.map_reverse, List.reverse_reverse]
    rw [intercalate_map_cons, List.append_assoc]
    refine head.append (.tails ?_ (fun _ => rfl) closes (fun _ => rfl) rfl (by decide)) ?_
    · exact fun item member _ => others item member (.inl rfl) rfl
    · intro behind _
      rw [List.append_assoc]
      exact stops_tails [] (by decide)

theorem reads_member {entry : String × Json} (value : ReadsValue entry.2) (outer : List Form.Frame)
    {due : Form.Due} (keyed : due = .key ∨ due = .firstKey) (members : Members) :
    Drives (compactMember entry) (objectState outer due members)
      (objectState outer .separator (entry :: members)) := by
  have named : (objectState outer due members).step (.text (some entry.1)) =
      some { objectState outer .colon members with
        frames := .member (some entry.1) :: (objectState outer due members).frames } := by
    rcases keyed with rfl | rfl <;> rfl
  refine .text named (.mark (fun _ => rfl) rfl rfl (value (.inl rfl) rfl))

theorem reads_obj {members : Members} (each : ∀ entry ∈ members, ReadsValue entry.2) :
    ReadsValue (.obj members) := by
  intro s next due put
  have opened : s.step .openObject = some (objectState s.frames .firstKey []) :=
    step_due due .openObject (by simp)
  rw [compact_obj]
  refine .mark (fun _ => rfl) rfl opened ?_
  cases members with
  | nil => exact .mark (fun _ => rfl) rfl put .nil
  | cons entry rest =>
    obtain ⟨first, others⟩ := List.forall_mem_cons.mp each
    have head := reads_member first s.frames (.inr rfl) []
    have closes : (objectState s.frames .separator (rest.reverse ++ [entry])).step .closeObject =
        some next := by
      rw [← put, Form.ofJson, Form.ofMembers_eq, ← List.reverse_cons]
      change ParseState.put s.frames (.obj (((entry :: rest).reverse.map _).reverse)) = _
      rw [List.map_reverse, List.reverse_reverse]
    rw [intercalate_map_cons, List.append_assoc]
    refine head.append (.tails ?_ (fun _ => rfl) closes (fun _ => rfl) rfl (by decide)) ?_
    · exact fun entry member => reads_member (others entry member) s.frames (.inl rfl)
    · intro behind _
      rw [List.append_assoc]
      exact stops_tails [] (by decide)

theorem Plain.reads {depth : ℕ} {value : Json} (plain : Plain depth value) : ReadsValue value := by
  -- Words, texts and brackets end by themselves; only a number depends on what follows it.
  induction plain with
  | null =>
    intro s next due put
    change Drives ('n' :: (['u', 'l', 'l'] ++ [])) s next
    exact .token (fun _ => rfl) rfl ((step_due due (.leaf (some .null)) (by simp)).trans put) .nil
  | bool flag =>
    intro s next due put
    have stepped := (step_due due (.leaf (some (.bool flag))) (by simp)).trans put
    cases flag with
    | true =>
      change Drives ('t' :: (['r', 'u', 'e'] ++ [])) s next
      exact .token (fun _ => rfl) rfl stepped .nil
    | false =>
      change Drives ('f' :: (['a', 'l', 's', 'e'] ++ [])) s next
      exact .token (fun _ => rfl) rfl stepped .nil
  | @num _ n same =>
    intro s next due put
    refine ⟨[.leaf (some (.num n))], fun read rest ends => ?_, ?_⟩
    · obtain ⟨c, cs, written, solid, scanned⟩ := scanToken_numberLiteral same ends
      rw [compact, written, List.cons_append, tokensFrom_cons solid scanned]
      rfl
    · rw [List.foldlM_cons, step_due due (.leaf (some (.num n))) (by simp)]
      exact congrArg (· >>= _) put
  | str text =>
    intro s next due put
    have stepped := (step_due due (.text (some text)) (by simp)).trans put
    rw [compact, ← List.append_nil (textLiteral text).toList]
    exact .text stepped .nil
  | arr _ ih => exact reads_arr ih
  | obj _ ih => exact reads_obj ih

end

theorem parse_compact {depth : ℕ} {value : Json} (plain : Plain depth value) :
    Form.parse? value.compact = some (Form.ofJson value) := by
  have driven : Drives value.compact.toList .initial ⟨[], .nothing, some (Form.ofJson value)⟩ :=
    plain.reads (.inl rfl) rfl
  obtain ⟨read, scanned, stepped⟩ := driven
  have cut : tokens value.compact = some read := by
    have whole := scanned [] [] (by simp [Stops])
    rw [List.append_nil, List.append_nil] at whole
    rw [tokens, whole, tokensFrom, List.reverse_reverse]
  rw [Form.parse?, cut]
  exact congrArg (· >>= fun state => state.result) stepped

theorem parseValue?_compact {value : Json} (plain : Plain Form.maxDepth value) :
    parseValue? value.compact = some value.canonical := by
  simp [parseValue?, parse?, parse_compact plain, Form.value?, plain.select]

end Json

theorem Read.ofText_compact {α : Type} {value : Json} (plain : Json.Plain Form.maxDepth value)
    (read : Json → Read α) :
    Read.ofText .whole read value.compact = (read value).mapError .problem := by
  have whole : (Form.ofJson value).value?.isSome = true := by
    rw [Form.value?, plain.select]
    rfl
  simp only [ofText, Json.parse_compact plain, plain.select, whole, if_true]
  cases read value <;> rfl

end Colloquy
