import BLang.Proofs.CanonicalForm
import BLang.Proofs.Repetitions

/-!
# What a run leaves

A run takes tokens from the front of a stream and leaves the others, whether it succeeds or fails.
An error marks the place between the two.  A token that was only looked at is the first that is
left, any other is the last that was taken.  A second definition of a name is refused at its closing
label, so its place is that of the last `INSTRUCTION` that was taken: no other stands inside a
definition.
-/

namespace BLang

/-- The span is the place of the last `INSTRUCTION` among the tokens. -/
def IsLastInstruction (tokens : List Token) (span : Span) : Prop :=
  ∃ before opening after, tokens = before ++ opening :: after ∧
    opening.lexeme = Keyword.INSTRUCTION.spelling ∧ opening.span = span ∧
    Keyword.INSTRUCTION.spelling ∉ lexemes after

namespace ParseError

/-- The error stands between the tokens that were taken and those that are left. -/
def Divides (error : ParseError) (taken left : List Token) : Prop :=
  match error with
  | unexpected expected found =>
      if expected = "identifier, 'IF' or 'WHILE'" then left.head? = some found
      else taken.getLast? = some found
  | invalidCondition found => taken.getLast? = some found
  | invalidIdentifier found => taken.getLast? = some found
  | primitiveRedefinition name => taken.getLast? = some name
  | duplicateInstruction name span =>
      (∃ label, taken.getLast? = some label ∧ label.lexeme = name) ∧ IsLastInstruction taken span
  | mismatchedLabel _ found => taken.getLast? = some found
  | trailingInput found => left.head? = some found
  | endOfStream => left = []

/-- An error that a single token decides stands before that token or after it. -/
theorem divides_of_concerns {error : ParseError} {token : Token} (concerns : error.Concerns token)
    (single : ∀ name span, error ≠ .duplicateInstruction name span) (before after : List Token) :
    error.Divides (if error.leavesToken then before else before ++ [token])
      (if error.leavesToken then token :: after else after) := by
  cases error with
  | unexpected expected found =>
      cases concerns
      by_cases start : expected = "identifier, 'IF' or 'WHILE'"
      · simp [Divides, leavesToken, start]
      · simp [Divides, leavesToken, start]
  | duplicateInstruction name span => exact absurd rfl (single name span)
  | endOfStream => exact concerns.elim
  | trailingInput found =>
      cases concerns
      rfl
  | invalidCondition found =>
      cases concerns
      exact List.getLast?_concat
  | invalidIdentifier found =>
      cases concerns
      exact List.getLast?_concat
  | primitiveRedefinition name =>
      cases concerns
      exact List.getLast?_concat
  | mismatchedLabel expected found =>
      cases concerns
      exact List.getLast?_concat

end ParseError

/-- The first of the tokens were taken and the rest is left; an error stands between them. -/
def Outcome.Divides {α : Type} (outcome : Outcome α) (tokens : List Token) : Prop :=
  ∃ taken, tokens = taken ++ outcome.rest ∧
    ∀ error, outcome.result = .error error → error.Divides taken outcome.rest

namespace Reader

variable {σ α : Type} {reader : Reader σ α} {reached : σ → List Token → Prop}
  {found : α → List Token → Token → Prop}

/-- Every outcome divides the stream if the refusals for second definitions do. -/
theorem Accounts.divides (accounts : reader.Accounts reached found) {tokens : List Token}
    {outcome : Outcome α} (ends : reader.Ends reader.start tokens outcome)
    (repeated : ∀ name span, outcome.result = .error (.duplicateInstruction name span) →
      outcome.Divides tokens) : outcome.Divides tokens := by
  cases ends with
  | exhausted path =>
      refine ⟨tokens, (List.append_nil tokens).symm, fun error failed => ?_⟩
      cases failed
      rfl
  | @done before last token value events path step after =>
      refine ⟨if reader.leavesLast then before else before ++ [token], ?_, nofun⟩
      cases reader.leavesLast with
      | true => rfl
      | false => exact List.append_cons before token after
  | @refused before last token error consumed events path step after =>
      by_cases single : ∀ name span, error ≠ .duplicateInstruction name span
      · have holds := accounts.step token (accounts.of_passes path)
        rw [step] at holds
        obtain ⟨concerns, rfl⟩ := holds
        have divides := ParseError.divides_of_concerns concerns single before after
        refine ⟨if error.leavesToken then before else before ++ [token], ?_, ?_⟩
        · cases error.leavesToken with
          | true => rfl
          | false => exact List.append_cons before token after
        · intro other failed
          cases failed
          cases leaves : error.leavesToken with
          | true => simpa [leaves] using divides
          | false => simpa [leaves] using divides
      · simp only [not_forall, not_not] at single
        obtain ⟨name, span, rfl⟩ := single
        exact repeated name span rfl

/-- A reader none of whose steps finds a repetition is never refused for one. -/
theorem Ends.not_repeated {state : σ} {tokens : List Token} {outcome : Outcome α}
    (ends : reader.Ends state tokens outcome)
    (never : ∀ state token, (reader.step state token).RepeatsNothing) (name : String)
    (span : Span) : outcome.result ≠ .error (.duplicateInstruction name span) := by
  intro failed
  cases ends with
  | exhausted path => cases failed
  | done path step after => cases failed
  | @refused before last token error consumed events path step after =>
      cases failed
      have repeats := never last token
      rw [step] at repeats
      exact repeats

theorem Accounts.run_divides (accounts : reader.Accounts reached found)
    (never : ∀ state token, (reader.step state token).RepeatsNothing) (tokens : List Token) :
    (reader.run tokens).Divides tokens :=
  have ends := reader.runFrom_ends reader.start tokens
  accounts.divides ends fun name span failed => absurd failed (ends.not_repeated never name span)

/-- The last `INSTRUCTION` up to a repetition is the first token of the second definition. -/
theorem isLastInstruction_of_repetition {tokens : List Token} {name : String} {span : Span}
    (repetition : Draft.EndsInRepetition tokens name span) : IsLastInstruction tokens span := by
  obtain ⟨definitions, second, before, opening, body, rfl, repeated, rfl, rfl⟩ := repetition
  have texts := repeated.texts
  rw [lexemes_cons, second.words_eq] at texts
  obtain ⟨text, inside⟩ := List.cons.inj texts
  refine ⟨before, opening, body, rfl, text, rfl, ?_⟩
  rw [inside]
  exact second.instruction_not_mem repeated.named

/-- The last token of a repetition is its closing label. -/
theorem getLast?_of_repetition {tokens : List Token} {name : String} {span : Span}
    (repetition : Draft.EndsInRepetition tokens name span) :
    ∃ label, tokens.getLast? = some label ∧ label.lexeme = name := by
  obtain ⟨definitions, second, before, opening, body, rfl, repeated, rfl, rfl⟩ := repetition
  obtain ⟨_, inside, label, same, _, _, text⟩ := Instruction.exists_label repeated.texts
  cases same
  refine ⟨label, ?_, text⟩
  rw [← List.cons_append, ← List.append_assoc]
  exact List.getLast?_concat

theorem program_run_divides (tokens : List Token) :
    (Reader.program.run tokens).Divides tokens := by
  refine program_accounts.divides (Reader.program.runFrom_ends _ tokens) fun name span failed => ?_
  obtain ⟨read, same, repetition⟩ :=
    (program_run_repetition_iff _ _ name span).mp (Outcome.eq_mk_of_result failed)
  refine ⟨read, same, fun error refused => ?_⟩
  cases failed.symm.trans refused
  exact ⟨getLast?_of_repetition repetition, isLastInstruction_of_repetition repetition⟩

/-- Whatever the stream, each reader takes some of the first tokens and leaves the others, and on
failure the error stands between the two: at the first token that is left if it was only looked at,
at the end if the stream ran out, and else at the last token that was taken.  A second definition of
a name is refused after its closing label, and its place is that of the last `INSTRUCTION` that was
taken. -/
theorem errors_divide_streams (tokens : List Token) :
    (Reader.statement.run tokens).Divides tokens ∧ (Reader.block.run tokens).Divides tokens ∧
      (Reader.instruction.run tokens).Divides tokens ∧
      (Reader.program.run tokens).Divides tokens :=
  ⟨statement_accounts.run_divides Nest.repeatsNothing_step tokens,
    block_accounts.run_divides Sequence.repeatsNothing_step tokens,
    instruction_accounts.run_divides Definition.repeatsNothing_step tokens,
    program_run_divides tokens⟩

end Reader

end BLang
