import BLang.Reader.Instruction
import BLang.Proofs.Blocks

/-!
# The grammar of definitions

Reading a definition succeeds on exactly the streams that start with the words of a well-named one.
Its reader is the reader of blocks between a few fixed words, so its account and its path through
the words of a definition come from those of the block.
-/

namespace BLang

namespace Step

variable {σ α : Type} {token : Token} {on : σ → Prop} {done : α → Prop}

theorem identifier_of_isIdentifier (identifier : isIdentifier token.lexeme = true)
    (step : Step σ α) : Step.identifier token step = step :=
  if_pos identifier

theorem holds_identifier {step : Step σ α}
    (holds : isIdentifier token.lexeme = true → step.Holds token on done) :
    (Step.identifier token step).Holds token on done := by
  unfold Step.identifier
  split
  next identifier => exact holds identifier
  next => exact ⟨rfl, rfl⟩

theorem label_of_lexeme {name : String} (same : token.lexeme = name) (step : Step σ α) :
    Step.label name token step = step :=
  if_pos ((token.is_iff name).mpr same)

theorem holds_label {name : String} {step : Step σ α}
    (holds : token.lexeme = name → step.Holds token on done) :
    (Step.label name token step).Holds token on done := by
  unfold Step.label
  split
  next same => exact holds ((token.is_iff name).mp same)
  next => exact ⟨rfl, rfl⟩

end Step

/-- The name may be that of a definition. -/
def Definable (name : String) : Prop :=
  isIdentifier name = true ∧ isPrimitive name = false

namespace Definition

/-- The words bring the reader to the state; the name may be defined and all calls are well
named. -/
inductive Spoken : Definition → List String → Prop where
  | atKeyword : Spoken atKeyword []
  | atName : Spoken atName [Keyword.INSTRUCTION.spelling]
  | atIs {name : String} (definable : Definable name) :
      Spoken (atIs name) [Keyword.INSTRUCTION.spelling, name]
  | inBody {name : String} {sequence : Sequence} {words : List String}
      (definable : Definable name) (spoken : sequence.Spoken words) :
      Spoken (inBody name sequence)
        ([Keyword.INSTRUCTION.spelling, name, Keyword.IS.spelling] ++ words)
  | atLabel {name : String} {body : Block} (definable : Definable name)
      (named : Block.WellNamed body) :
      Spoken (atLabel name body)
        ([Keyword.INSTRUCTION.spelling, name, Keyword.IS.spelling] ++ Block.words body ++
          [Keyword.END.spelling])

/-- A step adds its token to the words, and the closing label completes those of the definition. -/
theorem holds_step {definition : Definition} {words : List String}
    (spoken : definition.Spoken words) (token : Token) :
    (definition.step token).Holds token (fun next => next.Spoken (words ++ [token.lexeme]))
      (fun instruction => instruction.words = words ++ [token.lexeme] ∧
        instruction.WellNamed) := by
  cases spoken with
  | atKeyword =>
      refine Step.holds_expect fun same => ?_
      rw [same]
      exact .atName
  | atName =>
      refine Step.holds_identifier fun identifier => ?_
      split
      next => exact ⟨rfl, rfl⟩
      next own => exact .atIs ⟨identifier, Bool.eq_false_iff.mpr own⟩
  | atIs definable =>
      refine Step.holds_expect fun same => ?_
      rw [same]
      exact .inBody definable Sequence.spoken_start
  | @inBody name sequence words definable inside =>
      have inner := Sequence.holds_step inside token
      simp only [step]
      cases taken : sequence.step token with
      | on next events =>
          rw [taken] at inner
          exact List.append_assoc _ _ _ ▸ .inBody definable inner
      | done block events =>
          rw [taken] at inner
          obtain ⟨texts, named, _⟩ := inner
          refine Step.holds_expect fun same => ?_
          rw [same, ← texts]
          exact .atLabel definable named
      | refuse error consumed events =>
          rw [taken] at inner
          exact inner
  | @atLabel name body definable named =>
      refine Step.holds_label fun same => ⟨?_, definable.1, definable.2, named⟩
      rw [same, List.append_assoc]
      rfl

theorem carries (name : String) :
    Reader.block.Carries Reader.instruction (inBody name) := by
  intro state next token events goes
  have taken : state.step token = .on next events := goes
  exact ⟨events, by simp only [Reader.instruction, step, taken]⟩

theorem step_of_instruction {token : Token}
    (text : token.lexeme = Keyword.INSTRUCTION.spelling) : step atKeyword token = .on atName [] :=
  Step.expect_of_lexeme text _

theorem step_of_name {name : String} {token : Token} (definable : Definable name)
    (text : token.lexeme = name) : step atName token = .on (atIs name) [] := by
  subst text
  simp [step, Step.identifier_of_isIdentifier definable.1, definable.2]

/-- Between the statements of the body `END` leads on to the label. -/
theorem step_of_end (name : String) (read : List Statement) {token : Token}
    (text : token.lexeme = Keyword.END.spelling) :
    step (inBody name ⟨read, Nest.start⟩) token = .on (atLabel name read.reverse) [] := by
  have closes : token.closesBlock = true := Token.closesBlock_of_keyword text
  simp only [step, Sequence.step_of_closes read closes, Step.expect_of_lexeme text]

theorem step_of_label {name : String} {body : Block} {token : Token} (text : token.lexeme = name) :
    step (atLabel name body) token =
      .done ⟨name, body⟩ [.parsedInstruction name body.length] :=
  Step.label_of_lexeme text _

end Definition

/-- A definition is made up of the tokens with its words. -/
theorem Reader.instruction_accounts :
    Reader.instruction.Accounts (fun definition read => definition.Spoken (lexemes read))
      (fun instruction read token =>
        instruction.words = lexemes (read ++ [token]) ∧ instruction.WellNamed) where
  start := .atKeyword
  step token spoken := by
    simp only [lexemes_append, lexemes_cons, lexemes_nil]
    exact Definition.holds_step spoken token

/-- The words of a definition between `INSTRUCTION` and the closing label. -/
def Instruction.middle (instruction : Instruction) : List String :=
  [instruction.name, Keyword.IS.spelling] ++ Block.words instruction.body ++
    [Keyword.END.spelling]

theorem Instruction.words_eq (instruction : Instruction) :
    instruction.words =
      Keyword.INSTRUCTION.spelling :: (instruction.middle ++ [instruction.name]) := by
  simp [words, middle]

/-- The words of a well-named definition lead from its name to its closing label. -/
theorem Instruction.takes_middle (instruction : Instruction) (named : instruction.WellNamed) :
    Reader.instruction.Takes .atName instruction.middle
      (.atLabel instruction.name instruction.body) := by
  obtain ⟨identifier, own, body⟩ := named
  have inside := (Definition.carries instruction.name).takes
    (Block.takes_between instruction.body body [])
  refine .append (.append (.cons (.atIs instruction.name) ?_
    (.cons (.inBody instruction.name Sequence.start) ?_ (.nil _))) inside)
    (.cons (.atLabel instruction.name instruction.body) ?_ (.nil _))
  · intro token text
    exact ⟨[], Definition.step_of_name ⟨identifier, own⟩ text⟩
  · intro token text
    exact ⟨[], Step.expect_of_lexeme text _⟩
  · intro token text
    refine ⟨[], (Definition.step_of_end instruction.name _ text).trans ?_⟩
    rw [List.append_nil, List.reverse_reverse]

theorem Reader.instruction_run_iff (tokens rest : List Token) (instruction : Instruction) :
    Reader.instruction.run tokens = ⟨.ok instruction, rest⟩ ↔
      instruction.WellNamed ∧
        ∃ read, tokens = read ++ rest ∧ lexemes read = instruction.words := by
  constructor
  · intro run
    obtain ⟨before, token, after, rfl, rfl, texts, named⟩ := instruction_accounts.of_ok run
    exact ⟨named, before ++ [token], by simp, texts.symm⟩
  · rintro ⟨named, read, rfl, texts⟩
    have takes : Reader.instruction.Takes .atKeyword
        (Keyword.INSTRUCTION.spelling :: instruction.middle)
        (.atLabel instruction.name instruction.body) :=
      .cons .atName (fun token text => ⟨[], Definition.step_of_instruction text⟩)
        (instruction.takes_middle named)
    obtain ⟨_, _, _, run⟩ := run_of_takes takes
      (fun token text => ⟨_, Definition.step_of_label text⟩)
      (texts.trans instruction.words_eq) rest
    exact run

end BLang
