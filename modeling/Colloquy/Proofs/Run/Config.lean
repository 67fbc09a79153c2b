import Colloquy.Proofs.Number.Layout
import Colloquy.Proofs.Number.Nearest
import Colloquy.Proofs.Text.Blank
import Colloquy.Run.Config

/-!
Settings read from named texts. Each follows its own variable and no other, and a run can use what
it holds, with one exception: seconds are asked to be positive before they are rounded to
nanoseconds, so half a nanosecond and less makes a deadline of zero.
-/

namespace Colloquy

/-- A setting holds what its variable sets it to. A variable that is missing, or holds a text that
sets nothing, leaves the default. -/
structure SetBy {α : Type} (sets : String → α → Prop) (given : Option String)
    (default value : α) : Prop where
  set : ∀ text other, given = some text → sets text other → value = other
  unset : (∀ text other, given = some text → ¬ sets text other) → value = default

theorem setBy_of_reads {α : Type} {sets : String → α → Prop} {read? : String → Option α}
    (reads : ∀ text value, read? text = some value ↔ sets text value) (given : Option String)
    (default : α) : SetBy sets given default ((given.bind read?).getD default) := by
  constructor
  · rintro text other rfl set
    simp [(reads text other).mpr set]
  · intro unset
    cases given with
    | none => rfl
    | some text =>
      cases found : read? text with
      | none => simp [found]
      | some value => exact absurd ((reads text value).mp found) (unset text value rfl)

def IsCount (numeral : String) (n : Nat) : Prop :=
  ∃ digits, (numeral.toList = digits ∨ numeral.toList = '+' :: digits) ∧ digits ≠ [] ∧
    AllDigits digits ∧ digitsValue digits = n

theorem wholeNumber_eq_some_iff {numeral : String} {n : Nat} :
    wholeNumber? numeral = some n ↔ IsCount numeral n := by
  have count (digits : List Char) :
      (if (digits.isEmpty || !digits.all Char.isDigit) = true then none
        else some (digitsValue digits)) = some n ↔
      digits ≠ [] ∧ AllDigits digits ∧ digitsValue digits = n := by
    simp [AllDigits, and_assoc]
  rw [wholeNumber?, IsCount, count]
  split
  · rename_i digits signed
    constructor
    · intro counted
      exact ⟨digits, .inr signed, counted⟩
    · rintro ⟨others, plain | signedToo, more, all, worth⟩
      · have sign := all '+' (by simp [← plain, signed])
        cases sign
      · obtain rfl : digits = others := (List.cons.inj (signed.symm.trans signedToo)).2
        exact ⟨more, all, worth⟩
  · rename_i unsigned
    constructor
    · intro counted
      exact ⟨numeral.toList, .inl rfl, counted⟩
    · rintro ⟨digits, rfl | signed, counted⟩
      · exact counted
      · exact absurd signed (unsigned digits)

theorem Dyadic.value_pos_iff {d : Dyadic} :
    0 < d.value ↔ d.negative = false ∧ d.isZero = false := by
  have power : (0 : ℚ) < 2 ^ d.exponent := by positivity
  have nonnegative : (0 : ℚ) ≤ d.significand := by positivity
  cases sign : d.negative with
  | false =>
    simp [value, size, sign, isZero, power, Nat.pos_iff_ne_zero]
  | true =>
    have below : d.value ≤ 0 := by
      simp only [value, size, sign, if_true]
      nlinarith [mul_nonneg nonnegative power.le]
    simp [below]

theorem Duration.ofSeconds_eq_some_iff {d : Dyadic} {length : Duration} (positive : 0 < d.value) :
    ofSeconds? (.finite d) = some length ↔
      d.value < 2 ^ 64 ∧ IsNearest length.nanoseconds (d.value * 10 ^ 9) := by
  obtain ⟨plus, nonzero⟩ := Dyadic.value_pos_iff.mp positive
  have denominator : (0 : ℚ) < d.magnitude.2 := by
    exact_mod_cast scaleByTwo_pos d.significand d.exponent
  have worth : d.value = d.magnitude.1 / d.magnitude.2 := by
    rw [Dyadic.magnitude, scaleByTwo_value, Dyadic.value, plus]
    simp [Dyadic.size]
  have long : d.magnitude.2 * secondsLimit ≤ d.magnitude.1 ↔ ¬ d.value < 2 ^ 64 := by
    rw [worth, not_lt, le_div_iff₀ denominator, mul_comm, secondsLimit, Nat.pow_eq]
    exact_mod_cast Iff.rfl
  have near : nearest .toEven (d.magnitude.1 * perSecond) d.magnitude.2 = length.nanoseconds ↔
      IsNearest length.nanoseconds (d.value * 10 ^ 9) := by
    rw [nearest_eq_iff (by exact_mod_cast denominator), worth, perSecond, Nat.pow_eq,
      div_mul_eq_mul_div, Nat.cast_mul, Nat.cast_pow, Nat.cast_ofNat]
  rw [ofSeconds?, ← near]
  simp only [plus, nonzero, Bool.false_and, Bool.false_eq_true, if_false, long]
  obtain ⟨nanoseconds⟩ := length
  split <;> simp_all

namespace EngineConfig

def NamesModel (text model : String) : Prop := Text.TrimsTo text model ∧ model ≠ ""

def SetsLimit (text : String) (limit : Nat) : Prop :=
  (∃ numeral, Text.TrimsTo text numeral ∧ IsCount numeral limit) ∧ 0 < limit ∧ limit < 2 ^ 64

def Denotes (text : String) (seconds : ℚ) : Prop :=
  ∃ numeral, Text.TrimsTo text numeral ∧
    ∃ d, Floating.parse? .double numeral = some (.finite d) ∧ d.value = seconds

def SetsDeadline (text : String) (deadline : Duration) : Prop :=
  ∃ seconds, Denotes text seconds ∧ 0 < seconds ∧ seconds < 2 ^ 64 ∧
    IsNearest deadline.nanoseconds (seconds * 10 ^ 9)

theorem model_eq_some_iff {text model : String} :
    model? text = some model ↔ NamesModel text model := by
  rw [NamesModel, ← Text.trim_eq_iff, model?]
  by_cases blank : Text.trim text = ""
  · simp only [String.isEmpty_iff, blank, if_true, reduceCtorEq, false_iff, not_and, not_not]
    rintro rfl
    rfl
  · simp only [String.isEmpty_iff, blank, if_false, Option.some.injEq, iff_self_and]
    rintro rfl
    exact blank

theorem maxSteps_eq_some_iff {text : String} {limit : Nat} :
    maxSteps? text = some limit ↔ SetsLimit text limit := by
  simp only [maxSteps?, SetsLimit, Option.filter_eq_some_iff, wholeNumber_eq_some_iff,
    ← Text.trim_eq_iff, exists_eq_left', Bool.and_eq_true, decide_eq_true_eq]
  rfl

theorem timeout_eq_some_iff {text : String} {deadline : Duration} :
    timeout? text = some deadline ↔ SetsDeadline text deadline := by
  simp only [timeout?, SetsDeadline, Denotes, ← Text.trim_eq_iff, exists_eq_left',
    Option.bind_eq_bind, Option.bind_eq_some_iff]
  constructor
  · rintro ⟨seconds, read, installed⟩
    split at installed
    · rename_i d
      split at installed
      · cases installed
      · rename_i positive
        have positive : 0 < d.value := Dyadic.value_pos_iff.mpr (by simpa using positive)
        have rounded := (Duration.ofSeconds_eq_some_iff positive).mp installed
        exact ⟨d.value, ⟨d, read, rfl⟩, positive, rounded⟩
    · cases installed
  · rintro ⟨_, ⟨d, read, rfl⟩, positive, rounded⟩
    refine ⟨.finite d, read, ?_⟩
    obtain ⟨plus, nonzero⟩ := Dyadic.value_pos_iff.mp positive
    simpa [plus, nonzero] using (Duration.ofSeconds_eq_some_iff positive).mpr rounded

/-- The text denotes more than zero seconds, but at most half a nanosecond. -/
def Vanishes (text : String) : Prop :=
  ∃ seconds, Denotes text seconds ∧ 0 < seconds ∧ seconds * 10 ^ 9 ≤ 1 / 2

theorem setsDeadline_zero_iff {text : String} : SetsDeadline text ⟨0⟩ ↔ Vanishes text := by
  constructor
  · rintro ⟨seconds, denotes, positive, -, near⟩
    exact ⟨seconds, denotes, positive, (isNearest_zero_iff (by positivity)).mp near⟩
  · rintro ⟨seconds, denotes, positive, small⟩
    refine ⟨seconds, denotes, positive, by linarith, ?_⟩
    exact (isNearest_zero_iff (by positivity)).mpr small

/-- Every setting follows its own variable, and can be used: there is a model, a run may make a
visit, and a deadline is positive unless the seconds that it was set to vanish. -/
structure ReadFrom (lookup : String → Option String) (config : EngineConfig) : Prop where
  model : SetBy NamesModel (lookup modelVariable) "gpt-4o-mini" config.model
  maxSteps : SetBy SetsLimit (lookup maxStepsVariable) 256 config.maxSteps
  invokeTimeout : SetBy (fun text found => ∃ deadline, SetsDeadline text deadline ∧
    found = some deadline) (lookup timeoutVariable) none config.invokeTimeout
  named : config.model ≠ "" ∧ Text.Trimmed config.model
  positive : 0 < config.maxSteps
  waits : ∀ deadline, config.invokeTimeout = some deadline → (deadline.nanoseconds = 0 ↔
    ∃ text, lookup timeoutVariable = some text ∧ Vanishes text)

theorem ofLookup_readFrom (lookup : String → Option String) :
    (ofLookup lookup).ReadFrom lookup where
  model := setBy_of_reads (fun _ _ => model_eq_some_iff) _ _
  maxSteps := setBy_of_reads (fun _ _ => maxSteps_eq_some_iff) _ _
  invokeTimeout := by
    have reads (text : String) (found : Option Duration) :
        (timeout? text).map some = some found ↔
          ∃ deadline, SetsDeadline text deadline ∧ found = some deadline := by
      simp [← timeout_eq_some_iff, eq_comm]
    have set := setBy_of_reads reads (lookup timeoutVariable) none
    cases given : lookup timeoutVariable with
    | none => simpa [ofLookup, given] using set
    | some text =>
      rw [given] at set
      cases read : timeout? text <;> simpa [ofLookup, given, read] using set
  named := by
    cases found : (lookup modelVariable).bind model? with
    | none =>
      have default : (ofLookup lookup).model = "gpt-4o-mini" := by simp [ofLookup, found]
      rw [default]
      exact ⟨by decide, by simp [Text.Trimmed, Text.isBlank]⟩
    | some model =>
      obtain ⟨text, -, read⟩ := Option.bind_eq_some_iff.mp found
      obtain ⟨⟨trimmed, -⟩, more⟩ := model_eq_some_iff.mp read
      simpa [ofLookup, found] using And.intro more trimmed
  positive := by
    cases found : (lookup maxStepsVariable).bind maxSteps? with
    | none => simp [ofLookup, found]
    | some limit =>
      obtain ⟨text, -, read⟩ := Option.bind_eq_some_iff.mp found
      obtain ⟨-, positive, -⟩ := maxSteps_eq_some_iff.mp read
      simpa [ofLookup, found] using positive
  waits := by
    intro deadline installed
    obtain ⟨text, given, read⟩ := Option.bind_eq_some_iff.mp installed
    constructor
    · intro zero
      obtain ⟨nanoseconds⟩ := deadline
      obtain rfl : nanoseconds = 0 := zero
      exact ⟨text, given, setsDeadline_zero_iff.mp (timeout_eq_some_iff.mp read)⟩
    · rintro ⟨other, givenToo, vanishes⟩
      obtain rfl : text = other := Option.some.inj (given.symm.trans givenToo)
      have zero := timeout_eq_some_iff.mpr (setsDeadline_zero_iff.mpr vanishes)
      rw [Option.some.inj (read.symm.trans zero)]

/-- Settings are read each from its own variable, whatever the other ones hold. -/
theorem settings_follow_their_variables (lookup : String → Option String) :
    (ofLookup lookup).ReadFrom lookup ∧ ∀ other : String → Option String,
      (other modelVariable = lookup modelVariable →
        (ofLookup other).model = (ofLookup lookup).model) ∧
      (other maxStepsVariable = lookup maxStepsVariable →
        (ofLookup other).maxSteps = (ofLookup lookup).maxSteps) ∧
      (other timeoutVariable = lookup timeoutVariable →
        (ofLookup other).invokeTimeout = (ofLookup lookup).invokeTimeout) := by
  refine ⟨ofLookup_readFrom lookup, fun other => ⟨?_, ?_, ?_⟩⟩
  · intro same
    simp only [ofLookup, same]
  · intro same
    simp only [ofLookup, same]
  · intro same
    simp only [ofLookup, same]

/-! ### A deadline of nothing -/

def hasty (name : String) : Option String :=
  if name = modelVariable then some " small "
  else if name = maxStepsVariable then some "none"
  else if name = timeoutVariable then some "1e-10"
  else none

def patient (name : String) : Option String :=
  if name = timeoutVariable then some "30" else hasty name

theorem ofLookup_hasty : ofLookup hasty = ⟨"small", 256, some ⟨0⟩⟩ := by
  decide +kernel

theorem hasty_follows :
    (ofLookup patient).model = "small" ∧ (ofLookup patient).maxSteps = 256 ∧
      ∃ text, hasty timeoutVariable = some text ∧ Vanishes text :=
  have ⟨read, apart⟩ := settings_follow_their_variables hasty
  have ⟨model, maxSteps, _⟩ := apart patient
  ⟨by rw [model (by decide), ofLookup_hasty], by rw [maxSteps (by decide), ofLookup_hasty],
    (read.waits ⟨0⟩ (by rw [ofLookup_hasty])).mp rfl⟩

theorem hasty_deadline_is_zero :
    ¬ ∀ deadline, (ofLookup hasty).invokeTimeout = some deadline → 0 < deadline.nanoseconds := by
  intro positive
  exact Nat.lt_irrefl 0 (positive ⟨0⟩ (by rw [ofLookup_hasty]))

end EngineConfig

end Colloquy
