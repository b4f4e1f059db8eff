import BLang.Proofs.Words
import BLang.Reader

/-!
# Runs of readers

A run is a path of steps at which the reader goes on, and then either the stream ends or one token
decides.  What a reader has read is described by an account: a relation between its states and the
tokens on the way to them, which every step keeps.  From the account of a step follows the account
of a whole run, for a value as well as for an error.
-/

namespace BLang

namespace ParseError

/-- Whether the token of the error is left in the stream.  A word that starts no statement and a
word after a complete program are only looked at; every other token was taken. -/
def leavesToken : ParseError → Bool
  | unexpected expected _ => decide (expected = "identifier, 'IF' or 'WHILE'")
  | trailingInput _ => true
  | _ => false

/-- Whether the error is about the token.  A second definition of a name is found at its closing
label, and the end of the stream is about no token. -/
def Concerns : ParseError → Token → Prop
  | unexpected _ found, token => found = token
  | invalidCondition found, token => found = token
  | invalidIdentifier found, token => found = token
  | primitiveRedefinition name, token => name = token
  | duplicateInstruction name _, token => token.lexeme = name
  | mismatchedLabel _ found, token => found = token
  | trailingInput found, token => found = token
  | endOfStream, _ => False

theorem leavesToken_expected (text : String) (token : Token) :
    (unexpected (quoted text) token).leavesToken = false := by
  have different : quoted text ≠ "identifier, 'IF' or 'WHILE'" := by
    intro same
    have first := congrArg (fun expected => expected.toList.head?) same
    simp [quoted] at first
  exact decide_eq_false different

end ParseError

/-! ## What holds of a step -/

namespace Step

variable {σ α : Type} {token : Token} {on : σ → Prop} {done : α → Prop}

/-- The next state or the value is as described, and an error is about the token and says whether
it was taken. -/
def Holds (token : Token) (on : σ → Prop) (done : α → Prop) : Step σ α → Prop
  | .on next _ => on next
  | .done value _ => done value
  | .refuse error consumed _ => error.Concerns token ∧ consumed = !error.leavesToken

theorem Holds.imp {step : Step σ α} {other : α → Prop} (holds : step.Holds token on done)
    (weaker : ∀ value, done value → other value) : step.Holds token on other := by
  cases step with
  | on next events => exact holds
  | done value events => exact weaker value holds
  | refuse error consumed events => exact holds

theorem expect_of_lexeme {text : String} (same : token.lexeme = text) (step : Step σ α) :
    Step.expect text token step = step :=
  if_pos ((token.is_iff text).mpr same)

theorem holds_expect {text : String} {step : Step σ α}
    (holds : token.lexeme = text → step.Holds token on done) :
    (Step.expect text token step).Holds token on done := by
  unfold Step.expect
  split
  next same => exact holds ((token.is_iff text).mp same)
  next => exact ⟨rfl, by rw [ParseError.leavesToken_expected]; rfl⟩

end Step

theorem Outcome.eq_mk_of_result {α : Type} {outcome : Outcome α} {result : Except ParseError α}
    (same : outcome.result = result) : outcome = ⟨result, outcome.rest⟩ := by
  rw [← same]

namespace Reader

variable {σ τ α β : Type} {reader : Reader σ α}

/-! ## Paths -/

/-- The reader goes on over all of the tokens, from one state to another. -/
inductive Passes (reader : Reader σ α) : σ → List Token → σ → Prop where
  | refl (state : σ) : Passes reader state [] state
  | on {state next last : σ} {token : Token} {tokens : List Token} {events : List Event}
      (step : reader.step state token = .on next events)
      (later : Passes reader next tokens last) : Passes reader state (token :: tokens) last

theorem Passes.trans {first middle last : σ} {left right : List Token}
    (start : reader.Passes first left middle) (later : reader.Passes middle right last) :
    reader.Passes first (left ++ right) last := by
  induction start with
  | refl => exact later
  | on step _ ih => exact .on step (ih later)

theorem runFrom_of_passes {first last : σ} {tokens : List Token}
    (path : reader.Passes first tokens last) (rest : List Token) :
    reader.runFrom first (tokens ++ rest) = reader.runFrom last rest := by
  induction path with
  | refl => rfl
  | on step _ ih =>
      rw [List.cons_append, runFrom, step]
      exact ih

theorem runFrom_of_done {state : σ} {token : Token} {value : α} {events : List Event}
    (step : reader.step state token = .done value events) (rest : List Token) :
    reader.runFrom state (token :: rest) =
      ⟨.ok value, if reader.leavesLast then token :: rest else rest⟩ := by
  rw [runFrom, step]

theorem runFrom_of_refuse {state : σ} {token : Token} {error : ParseError} {consumed : Bool}
    {events : List Event} (step : reader.step state token = .refuse error consumed events)
    (rest : List Token) :
    reader.runFrom state (token :: rest) =
      ⟨.error error, if consumed then rest else token :: rest⟩ := by
  rw [runFrom, step]

/-- How a run over tokens can end. -/
inductive Ends (reader : Reader σ α) (state : σ) : List Token → Outcome α → Prop where
  | exhausted {tokens : List Token} {last : σ} (path : reader.Passes state tokens last) :
      Ends reader state tokens ⟨.error .endOfStream, []⟩
  | done {before : List Token} {last : σ} {token : Token} {value : α} {events : List Event}
      (path : reader.Passes state before last)
      (step : reader.step last token = .done value events) (after : List Token) :
      Ends reader state (before ++ token :: after)
        ⟨.ok value, if reader.leavesLast then token :: after else after⟩
  | refused {before : List Token} {last : σ} {token : Token} {error : ParseError}
      {consumed : Bool} {events : List Event} (path : reader.Passes state before last)
      (step : reader.step last token = .refuse error consumed events) (after : List Token) :
      Ends reader state (before ++ token :: after)
        ⟨.error error, if consumed then after else token :: after⟩

theorem Ends.on {state next : σ} {token : Token} {tokens : List Token} {events : List Event}
    {outcome : Outcome α} (step : reader.step state token = .on next events)
    (ends : reader.Ends next tokens outcome) : reader.Ends state (token :: tokens) outcome := by
  cases ends with
  | exhausted path => exact .exhausted (.on step path)
  | done path last after => exact .done (.on step path) last after
  | refused path last after => exact .refused (.on step path) last after

/-- Every run ends in one of the three ways. -/
theorem runFrom_ends (reader : Reader σ α) (state : σ) (tokens : List Token) :
    reader.Ends state tokens (reader.runFrom state tokens) := by
  induction tokens generalizing state with
  | nil => exact .exhausted (.refl state)
  | cons token rest ih =>
      cases step : reader.step state token with
      | on next events =>
          rw [runFrom, step]
          exact .on step (ih next)
      | done value events =>
          rw [runFrom_of_done step]
          exact .done (.refl state) step rest
      | refuse error consumed events =>
          rw [runFrom_of_refuse step]
          exact .refused (.refl state) step rest

/-- A run that ends in a way has no other outcome. -/
theorem Ends.runFrom_eq {state : σ} {tokens : List Token} {outcome : Outcome α}
    (ends : reader.Ends state tokens outcome) : reader.runFrom state tokens = outcome := by
  cases ends with
  | exhausted path =>
      have whole := runFrom_of_passes path []
      rwa [List.append_nil] at whole
  | done path step after => rw [runFrom_of_passes path, runFrom_of_done step]
  | refused path step after => rw [runFrom_of_passes path, runFrom_of_refuse step]

/-! ## Accounts -/

/-- The tokens that lead to a state, and the tokens before a last one that make up a value; every
step keeps to them. -/
structure Accounts (reader : Reader σ α) (reached : σ → List Token → Prop)
    (found : α → List Token → Token → Prop) : Prop where
  start : reached reader.start []
  step : ∀ {state : σ} {read : List Token} (token : Token), reached state read →
    (reader.step state token).Holds token (fun next => reached next (read ++ [token]))
      (fun value => found value read token)

namespace Accounts

variable {reached : σ → List Token → Prop} {found : α → List Token → Token → Prop}

theorem of_passes_from (accounts : reader.Accounts reached found) {first last : σ}
    {read tokens : List Token} (reachedFirst : reached first read)
    (path : reader.Passes first tokens last) : reached last (read ++ tokens) := by
  induction path generalizing read with
  | refl => rwa [List.append_nil]
  | @on state next last token tokens events step _ ih =>
      have holds := accounts.step token reachedFirst
      rw [step] at holds
      have later := ih holds
      rwa [List.append_assoc, List.singleton_append] at later

theorem of_passes (accounts : reader.Accounts reached found) {last : σ} {tokens : List Token}
    (path : reader.Passes reader.start tokens last) : reached last tokens :=
  accounts.of_passes_from accounts.start path

/-- A value is made up of the tokens before the one that ended the run. -/
theorem of_ok (accounts : reader.Accounts reached found) {tokens rest : List Token} {value : α}
    (run : reader.run tokens = ⟨.ok value, rest⟩) :
    ∃ before token after, tokens = before ++ token :: after ∧
      rest = (if reader.leavesLast then token :: after else after) ∧
      found value before token := by
  have ends := reader.runFrom_ends reader.start tokens
  rw [show reader.runFrom reader.start tokens = ⟨.ok value, rest⟩ from run] at ends
  cases ends with
  | @done before last token _ events path step after =>
      have holds := accounts.step token (accounts.of_passes path)
      rw [step] at holds
      exact ⟨before, token, after, rfl, rfl, holds⟩

/-- An error is that of a state that was reached, at a token that is taken or left as the error
says; or the stream ended. -/
theorem of_error (accounts : reader.Accounts reached found) {tokens rest : List Token}
    {error : ParseError} (notEnd : error ≠ .endOfStream)
    (run : reader.run tokens = ⟨.error error, rest⟩) :
    ∃ before last token after events, tokens = before ++ token :: after ∧
      rest = (if error.leavesToken then token :: after else after) ∧
      reached last before ∧ reader.step last token = .refuse error (!error.leavesToken) events := by
  have ends := reader.runFrom_ends reader.start tokens
  rw [show reader.runFrom reader.start tokens = ⟨.error error, rest⟩ from run] at ends
  cases ends with
  | exhausted path => exact absurd rfl notEnd
  | @refused before last token _ consumed events path step after =>
      have spoken := accounts.of_passes path
      have holds := accounts.step token spoken
      rw [step] at holds
      obtain ⟨_, rfl⟩ := holds
      refine ⟨before, last, token, after, events, rfl, ?_, spoken, step⟩
      cases error.leavesToken <;> rfl

end Accounts

/-! ## Words that are taken -/

/-- Over all tokens with these words the reader goes on, from one state to another. -/
def Takes (reader : Reader σ α) (state : σ) (words : List String) (last : σ) : Prop :=
  ∀ tokens, lexemes tokens = words → reader.Passes state tokens last

namespace Takes

theorem nil (state : σ) : reader.Takes state [] state := by
  intro tokens texts
  rw [lexemes_eq_nil texts]
  exact .refl state

theorem cons {state last : σ} {word : String} {words : List String} (next : σ)
    (step : ∀ token : Token, token.lexeme = word →
      ∃ events, reader.step state token = .on next events)
    (later : reader.Takes next words last) : reader.Takes state (word :: words) last := by
  intro tokens texts
  obtain ⟨token, rest, rfl, text, restTexts⟩ := lexemes_eq_cons texts
  obtain ⟨events, next⟩ := step token text
  exact .on next (later rest restTexts)

theorem append {first middle last : σ} {left right : List String}
    (start : reader.Takes first left middle) (later : reader.Takes middle right last) :
    reader.Takes first (left ++ right) last := by
  intro tokens texts
  obtain ⟨front, back, rfl, frontTexts, backTexts⟩ := lexemes_eq_append texts
  exact (start front frontTexts).trans (later back backTexts)

end Takes

/-- Tokens with the words of a path and the word that ends it are read off any stream that starts
with them, but for the last one if the reader leaves it. -/
theorem run_of_takes {front : List String} {last : String} {final : σ} {value : α}
    (takes : reader.Takes reader.start front final)
    (done : ∀ token : Token, token.lexeme = last →
      ∃ events, reader.step final token = .done value events)
    {read : List Token} (texts : lexemes read = front ++ [last]) (rest : List Token) :
    ∃ before token, read = before ++ [token] ∧ reader.run (read ++ rest) =
      ⟨.ok value, if reader.leavesLast then token :: rest else rest⟩ := by
  obtain ⟨before, back, rfl, beforeTexts, backTexts⟩ := lexemes_eq_append texts
  obtain ⟨token, empty, rfl, text, emptyTexts⟩ := lexemes_eq_cons backTexts
  obtain ⟨events, finished⟩ := done token text
  rw [lexemes_eq_nil emptyTexts, List.append_assoc]
  exact ⟨before, token, rfl, (Ends.done (takes before beforeTexts) finished rest).runFrom_eq⟩

/-- The reader reads the value off its words, whatever comes after them. -/
def Reads (reader : Reader σ α) (words : List String) (value : α) : Prop :=
  ∀ rest : List String, reader.run ((words ++ rest).map Token.unplaced) =
    ⟨.ok value, rest.map Token.unplaced⟩

/-- The words of a value that is read do not begin those of another. -/
theorem Reads.eq_of_append {first second : List String} {value other : α}
    (reads : reader.Reads first value) (otherReads : reader.Reads second other)
    {left right : List String} (same : first ++ left = second ++ right) :
    value = other ∧ left = right := by
  have outcomes := (reads left).symm.trans (same ▸ otherReads right)
  obtain ⟨result, rest⟩ := Outcome.mk.inj outcomes
  constructor
  · exact Except.ok.inj result
  · rw [← lexemes_unplaced left, rest, lexemes_unplaced]

/-- Every step at which the inner reader goes on is one at which the outer reader does. -/
def Carries (inner : Reader σ α) (outer : Reader τ β) (place : σ → τ) : Prop :=
  ∀ (state next : σ) (token : Token) (events : List Event),
    inner.step state token = .on next events →
      ∃ outerEvents, outer.step (place state) token = .on (place next) outerEvents

theorem Carries.passes {inner : Reader σ α} {outer : Reader τ β} {place : σ → τ}
    (carries : inner.Carries outer place) {first last : σ} {tokens : List Token}
    (path : inner.Passes first tokens last) : outer.Passes (place first) tokens (place last) := by
  induction path with
  | refl => exact .refl _
  | on step _ ih =>
      obtain ⟨events, outerStep⟩ := carries _ _ _ _ step
      exact .on outerStep ih

theorem Carries.takes {inner : Reader σ α} {outer : Reader τ β} {place : σ → τ}
    (carries : inner.Carries outer place) {first last : σ} {words : List String}
    (takes : inner.Takes first words last) : outer.Takes (place first) words (place last) :=
  fun tokens texts => carries.passes (takes tokens texts)

end Reader

end BLang
