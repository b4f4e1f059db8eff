import BLang.Proofs.ErrorPlaces
import BLang.Proofs.Lookahead

/-!
# Reading is blind to places

A reader tests the texts of tokens only.  Tokens with the same texts at other places are read by the
same steps, and an error moves with the tokens.  Every stream is the stream of its texts, each at the
place of its index, moved to the places of its own tokens.  So streams with the same texts are read
alike: to equal values, or to errors that differ in their places only, which are those of the tokens
at one index.
-/

namespace BLang

variable {move : Span → Span}

namespace ParseError

/-- The error at another place. -/
def relocated (move : Span → Span) : ParseError → ParseError
  | unexpected expected found => unexpected expected (found.relocated move)
  | invalidCondition found => invalidCondition (found.relocated move)
  | invalidIdentifier found => invalidIdentifier (found.relocated move)
  | primitiveRedefinition name => primitiveRedefinition (name.relocated move)
  | duplicateInstruction name span => duplicateInstruction name (move span)
  | mismatchedLabel expected found => mismatchedLabel expected (found.relocated move)
  | trailingInput found => trailingInput (found.relocated move)
  | endOfStream => endOfStream

theorem span?_relocated (error : ParseError) :
    (error.relocated move).span? = error.span?.map move := by
  cases error <;> rfl

/-- An error has one place, so it moves as that place does. -/
theorem relocated_eq_of_span? {error : ParseError} {span : Span} (place : error.span? = some span) :
    error.relocated move = error.relocated fun _ => move span := by
  cases error with
  | endOfStream => cases place
  | _ =>
      cases place
      rfl

/-- An error about one of the tokens is at the place of one of them. -/
theorem IsAbout.exists_place {error : ParseError} {tokens : List Token}
    (about : error.IsAbout tokens) :
    ∃ token ∈ tokens, error.span? = some token.span := by
  have places : error.Refers (fun found => ∃ token ∈ tokens, token.span = found.span)
      fun span => ∃ token ∈ tokens, token.span = span :=
    about.imp (fun found member => ⟨found, member, rfl⟩)
      fun _ ⟨opening, member, _, place⟩ => ⟨opening, member, place⟩
  have placed : ∃ span, error.span? = some span ∧ ∃ token ∈ tokens, token.span = span :=
    Refers.span places
  obtain ⟨span, place, token, member, rfl⟩ := placed
  exact ⟨token, member, place⟩

end ParseError

/-! ## Steps -/

namespace Step

variable {σ α : Type}

/-- The step with its places moved: that of an error and those in the next state. -/
def relocated (move : Span → Span) (place : σ → σ) : Step σ α → Step σ α
  | .on next events => .on (place next) events
  | .done value events => .done value events
  | .refuse error consumed events => .refuse (error.relocated move) consumed events

variable {place : σ → σ} {token : Token} {step moved : Step σ α}

theorem expect_relocated {text : String} (same : step.relocated move place = moved) :
    Step.expect text (token.relocated move) moved =
      (Step.expect text token step).relocated move place := by
  unfold Step.expect
  rw [apply_ite (relocated move place), same]
  rfl

theorem identifier_relocated (same : step.relocated move place = moved) :
    Step.identifier (token.relocated move) moved =
      (Step.identifier token step).relocated move place := by
  unfold Step.identifier
  rw [apply_ite (relocated move place), same]
  rfl

theorem label_relocated {name : String} (same : step.relocated move place = moved) :
    Step.label name (token.relocated move) moved =
      (Step.label name token step).relocated move place := by
  unfold Step.label
  rw [apply_ite (relocated move place), same]
  rfl

end Step

namespace Nest

variable {around outer : List Frame} {frame : Frame} {token : Token}

theorem finish_relocated (statement : Statement) :
    (finish statement around).relocated move id = finish statement around := by
  cases around with
  | nil => rfl
  | cons frame outer => rfl

theorem enter_relocated :
    enter around (token.relocated move) = (enter around token).relocated move id := by
  unfold enter
  simp only [apply_ite (Step.relocated move id), finish_relocated]
  rfl

theorem close_relocated :
    close frame outer (token.relocated move) = (close frame outer token).relocated move id := by
  obtain ⟨head, read⟩ := frame
  cases head with
  | thenBranch condition =>
      simp only [close, apply_ite (Step.relocated move id)]
      rfl
  | elseBranch condition first => exact Step.expect_relocated rfl
  | loop condition => exact Step.expect_relocated rfl

/-- A nest holds no places, so only an error of its step is moved. -/
theorem step_relocated (nest : Nest) (token : Token) :
    nest.step (token.relocated move) = (nest.step token).relocated move id := by
  obtain ⟨around, phase⟩ := nest
  cases phase with
  | item =>
      cases around with
      | nil => exact enter_relocated
      | cons frame outer =>
          simp only [step, apply_ite (Step.relocated move id), ← enter_relocated,
            ← close_relocated]
          rfl
  | condition form =>
      simp only [step, Token.relocated]
      cases Condition.ofSpelling? token.lexeme with
      | none => rfl
      | some condition => rfl
  | opener form condition => exact Step.expect_relocated rfl
  | closer form statement => exact Step.expect_relocated (finish_relocated statement)

end Nest

theorem Sequence.step_relocated (sequence : Sequence) (token : Token) :
    sequence.step (token.relocated move) = (sequence.step token).relocated move id := by
  unfold step
  rw [apply_ite (Step.relocated move id), sequence.nest.step_relocated]
  congr 1
  cases sequence.nest.step token with
  | on next events => rfl
  | done statement events => rfl
  | refuse error consumed events => rfl

theorem Definition.step_relocated (definition : Definition) (token : Token) :
    definition.step (token.relocated move) = (definition.step token).relocated move id := by
  cases definition with
  | atKeyword => exact Step.expect_relocated rfl
  | atName => exact Step.identifier_relocated (apply_ite (Step.relocated move id) _ _ _)
  | atIs name => exact Step.expect_relocated rfl
  | inBody name sequence =>
      simp only [step, sequence.step_relocated]
      cases sequence.step token with
      | on next events => rfl
      | done block events => exact Step.expect_relocated rfl
      | refuse error consumed events => rfl
  | atLabel name body => exact Step.label_relocated rfl

namespace Draft

/-- The draft with the place of the current definition moved. -/
def relocated (move : Span → Span) : Draft → Draft
  | inDefinition name context start current => inDefinition name context (move start) current
  | draft => draft

theorem step_relocated (draft : Draft) (token : Token) :
    (draft.relocated move).step (token.relocated move) =
      (draft.step token).relocated move (relocated move) := by
  cases draft with
  | atKeyword => exact Step.expect_relocated rfl
  | atName => exact Step.identifier_relocated rfl
  | atIs name => exact Step.expect_relocated rfl
  | atTable name context =>
      simp only [relocated, step, apply_ite (Step.relocated move (relocated move)),
        ← Step.expect_relocated rfl]
      rfl
  | inDefinition name context start current =>
      simp only [relocated, step, current.step_relocated]
      cases current.step token with
      | on next events => rfl
      | done instruction events =>
          dsimp only
          rw [apply_ite (Step.relocated move (relocated move))]
          rfl
      | refuse error consumed events => rfl
  | inBody name context sequence =>
      simp only [relocated, step, sequence.step_relocated]
      cases sequence.step token with
      | on next events => rfl
      | done block events => exact Step.expect_relocated rfl
      | refuse error consumed events => rfl
  | atLabel name context body => exact Step.label_relocated rfl
  | atEnd program =>
      simp only [relocated, step, apply_ite (Step.relocated move (relocated move))]
      rfl

end Draft

/-! ## Runs -/

/-- The outcome with its places moved. -/
def Outcome.relocated {α : Type} (move : Span → Span) (outcome : Outcome α) : Outcome α :=
  ⟨outcome.result.mapError (ParseError.relocated move), outcome.rest.map (Token.relocated move)⟩

/-- What is read from tokens moves with them, and an error is about one of them unless the stream
ends too early. -/
structure PlaceBlind {α : Type} (read : List Token → Except ParseError α) : Prop where
  relocated : ∀ move tokens,
    read (tokens.map (Token.relocated move)) = (read tokens).mapError (ParseError.relocated move)
  about : ∀ tokens error, read tokens = .error error →
    error = .endOfStream ∨ error.IsAbout tokens

namespace Reader

variable {σ α : Type} {reader : Reader σ α} {place : (Span → Span) → σ → σ}

/-- Tokens at other places are read by the same steps, but for the places in states and errors. -/
structure Relocates (reader : Reader σ α) (place : (Span → Span) → σ → σ) : Prop where
  start : ∀ move, place move reader.start = reader.start
  step : ∀ move state token, reader.step (place move state) (token.relocated move) =
    (reader.step state token).relocated move (place move)

namespace Relocates

theorem runFrom_relocated (relocates : reader.Relocates place) (move : Span → Span) (state : σ)
    (tokens : List Token) :
    reader.runFrom (place move state) (tokens.map (Token.relocated move)) =
      (reader.runFrom state tokens).relocated move := by
  induction tokens generalizing state with
  | nil => rfl
  | cons token rest ih =>
      rw [List.map_cons, runFrom, runFrom, relocates.step]
      cases reader.step state token with
      | on next events => exact ih next
      | done value events => cases reader.leavesLast <;> rfl
      | refuse error consumed events => cases consumed <;> rfl

theorem run_relocated (relocates : reader.Relocates place) (move : Span → Span)
    (tokens : List Token) :
    reader.run (tokens.map (Token.relocated move)) = (reader.run tokens).relocated move := by
  have whole := relocates.runFrom_relocated move reader.start tokens
  rwa [relocates.start] at whole

theorem taken_relocated (relocates : reader.Relocates place) (move : Span → Span)
    (tokens : List Token) :
    reader.taken (tokens.map (Token.relocated move)) = reader.taken tokens := by
  rw [taken, taken, relocates.run_relocated, Outcome.relocated, List.length_map, List.length_map]

theorem placeBlind (relocates : reader.Relocates place) {reached : σ → List Token → Prop}
    {found : α → List Token → Token → Prop} (settles : reader.Settles reached)
    (accounts : reader.Accounts reached found) :
    PlaceBlind fun tokens => (reader.run tokens).result where
  relocated move tokens := congrArg Outcome.result (relocates.run_relocated move tokens)
  about _ _ failed := settles.isAbout_or_endOfStream accounts failed

end Relocates

theorem statement_relocates : Reader.statement.Relocates fun _ => id where
  start _ := rfl
  step _ nest token := nest.step_relocated token

theorem block_relocates : Reader.block.Relocates fun _ => id where
  start _ := rfl
  step _ sequence token := sequence.step_relocated token

theorem instruction_relocates : Reader.instruction.Relocates fun _ => id where
  start _ := rfl
  step _ definition token := definition.step_relocated token

theorem program_relocates : Reader.program.Relocates Draft.relocated where
  start _ := rfl
  step _ draft token := draft.step_relocated token

theorem endOfInput_relocates : endOfInput.Relocates fun _ => id where
  start _ := rfl
  step move _ _ := by
    simp only [endOfInput, apply_ite (Step.relocated move id)]
    rfl

end Reader

/-- A statement with nothing after it is read blindly as well. -/
theorem Source.onlyValue_placeBlind : PlaceBlind (Source.onlyValue Reader.statement) where
  relocated := by
    intro move tokens
    have run := Reader.statement_relocates.run_relocated move tokens
    unfold Source.onlyValue
    dsimp only
    rw [run]
    cases taken : (Reader.statement.run tokens).result with
    | error error => simp only [Outcome.relocated, taken, Except.mapError]
    | ok value =>
        have looked := Reader.endOfInput_relocates.run_relocated move
          (Reader.statement.run tokens).rest
        simp only [Outcome.relocated, taken, Except.mapError] at looked ⊢
        rw [looked]
        cases (Reader.endOfInput.run (Reader.statement.run tokens).rest).result with
        | error error => rfl
        | ok done => rfl
  about := by
    intro tokens error failed
    rcases (Source.onlyValue_eq_error_iff Reader.statement tokens error).mp failed with
      refused | ⟨value, taken, later⟩
    · exact Reader.statement_settles.isAbout_or_endOfStream Reader.statement_accounts refused
    · refine (Reader.endOfInput_settles.isAbout_or_endOfStream Reader.endOfInput_accounts
        later).imp_right fun about => ?_
      exact about.mono (Reader.statement.run_rest_suffix tokens).subset

/-! ## Streams with the same texts -/

/-- The words as tokens, each at the place of its index. -/
def numbered (words : List String) : List Token :=
  words.mapIdx fun index word => ⟨word, Span.point index⟩

/-- The place of the token at the index that a place stands for. -/
def placeIn (tokens : List Token) (span : Span) : Span :=
  (tokens[span.start]?.map Token.span).getD Span.zero

theorem placeIn_point {tokens : List Token} {index : Nat} {token : Token}
    (found : tokens[index]? = some token) : placeIn tokens (Span.point index) = token.span := by
  simp [placeIn, Span.point, found]

/-- Every stream is the numbered stream of its texts, moved to its own places. -/
theorem numbered_relocated (tokens : List Token) :
    (numbered (lexemes tokens)).map (Token.relocated (placeIn tokens)) = tokens := by
  apply List.ext_getElem?
  intro index
  cases found : tokens[index]? with
  | none => simp [numbered, lexemes, found]
  | some token => simp [numbered, lexemes, found, Token.relocated, placeIn_point found]

namespace ParseError

/-- The errors differ in their places only, which are those of the tokens at one index of two
streams; or both streams end too early. -/
inductive Alike (lefts rights : List Token) : ParseError → ParseError → Prop where
  | endOfStream : Alike lefts rights .endOfStream .endOfStream
  | placed {left right : ParseError} {found other : Token} (index : Nat)
      (here : lefts[index]? = some found) (there : rights[index]? = some other)
      (leftPlace : left.span? = some found.span) (rightPlace : right.span? = some other.span)
      (same : right = left.relocated fun _ => other.span) : Alike lefts rights left right

/-- An error about numbered tokens, moved to the places of two streams with the same texts. -/
theorem IsAbout.alike {error : ParseError} {lefts rights : List Token}
    (same : lexemes lefts = lexemes rights)
    (about : error.IsAbout (numbered (lexemes lefts))) :
    Alike lefts rights (error.relocated (placeIn lefts)) (error.relocated (placeIn rights)) := by
  obtain ⟨token, member, place⟩ := about.exists_place
  obtain ⟨index, bound, rfl⟩ := List.mem_mapIdx.mp member
  have lengths : lefts.length = rights.length := by
    simpa [lexemes] using congrArg List.length same
  have inLefts : index < lefts.length := by simpa [lexemes] using bound
  have here := List.getElem?_eq_getElem inLefts
  have there := List.getElem?_eq_getElem (lengths ▸ inLefts)
  refine .placed index here there ?_ ?_ ?_
  · rw [span?_relocated, place, Option.map_some, placeIn_point here]
  · rw [span?_relocated, place, Option.map_some, placeIn_point there]
  · rw [relocated_eq_of_span? place, placeIn_point there]
    cases error <;> rfl

end ParseError

/-- Equal values, or errors that are alike. -/
inductive SameResult {ε α : Type} (alike : ε → ε → Prop) : Except ε α → Except ε α → Prop where
  | ok (value : α) : SameResult alike (.ok value) (.ok value)
  | error {left right : ε} (same : alike left right) :
      SameResult alike (.error left) (.error right)

theorem SameResult.map {ε α β : Type} {alike : ε → ε → Prop} {left right : Except ε α}
    (same : SameResult alike left right) (f : α → β) :
    SameResult alike (left.map f) (right.map f) := by
  cases same with
  | ok value => exact .ok (f value)
  | error same => exact .error same

theorem SameResult.mapError {ε δ α : Type} {alike : ε → ε → Prop} {other : δ → δ → Prop}
    {left right : Except ε α} (same : SameResult alike left right) (f : ε → δ)
    (keeps : ∀ left right, alike left right → other (f left) (f right)) :
    SameResult other (left.mapError f) (right.mapError f) := by
  cases same with
  | ok value => exact .ok value
  | error same => exact .error (keeps _ _ same)

/-- Streams with the same texts are two relocations of their numbered texts. -/
theorem PlaceBlind.sameResult {α : Type} {read : List Token → Except ParseError α}
    (blind : PlaceBlind read) {lefts rights : List Token} (same : lexemes lefts = lexemes rights) :
    SameResult (ParseError.Alike lefts rights) (read lefts) (read rights) := by
  have left := blind.relocated (placeIn lefts) (numbered (lexemes lefts))
  have right := blind.relocated (placeIn rights) (numbered (lexemes rights))
  rw [numbered_relocated] at left right
  rw [left, right, ← same]
  cases found : read (numbered (lexemes lefts)) with
  | ok value => exact .ok value
  | error error =>
      rcases blind.about _ error found with rfl | about
      · exact .error .endOfStream
      · exact .error (about.alike same)

namespace Reader

variable {σ α : Type}

/-- The reader finds equal values in two streams or errors that differ in their places only, and it
takes as many tokens off the one as off the other. -/
structure ReadsAlike (reader : Reader σ α) (lefts rights : List Token) : Prop where
  result : SameResult (ParseError.Alike lefts rights)
    (reader.run lefts).result (reader.run rights).result
  taken : reader.taken lefts = reader.taken rights

theorem Relocates.readsAlike {reader : Reader σ α} {place : (Span → Span) → σ → σ}
    (relocates : reader.Relocates place)
    (blind : PlaceBlind fun tokens => (reader.run tokens).result) {lefts rights : List Token}
    (same : lexemes lefts = lexemes rights) : reader.ReadsAlike lefts rights where
  result := blind.sameResult same
  taken := by
    have left := relocates.taken_relocated (placeIn lefts) (numbered (lexemes lefts))
    have right := relocates.taken_relocated (placeIn rights) (numbered (lexemes rights))
    rw [numbered_relocated] at left right
    rw [left, right, same]

end Reader

/-! ## Sources with the same words -/

namespace Source

/-- The errors of reading the tokens of two sources are alike. -/
inductive ErrorsAlike (lefts rights : List Token) : CompileError → CompileError → Prop where
  | syntactic {left right : ParseError} (alike : left.Alike lefts rights right) :
      ErrorsAlike lefts rights (.syntactic left) (.syntactic right)

theorem bind_tokens {α : Type} {source : String} {tokens : List Token}
    (scanned : tokenize source = .ok tokens) (read : List Token → Except CompileError α) :
    (Source.tokens source >>= read) = read tokens := by
  rw [Source.tokens, scanned]
  rfl

variable {left right : String} {lefts rights : List Token}

theorem sameResult_of_placeBlind {α : Type} {read : List Token → Except ParseError α}
    (blind : PlaceBlind read) (leftScanned : tokenize left = .ok lefts)
    (rightScanned : tokenize right = .ok rights) (same : lexemes lefts = lexemes rights) :
    SameResult (ErrorsAlike lefts rights)
      (Source.tokens left >>= fun tokens => (read tokens).mapError .syntactic)
      (Source.tokens right >>= fun tokens => (read tokens).mapError .syntactic) := by
  rw [bind_tokens leftScanned, bind_tokens rightScanned]
  exact (blind.sameResult same).mapError _ fun _ _ alike => .syntactic alike

end Source

/-- Places do not matter to reading.  From two streams with the same texts each reader reads equal
values, or errors that are the same but for their places, and these are the places of the tokens at
one index; and it takes equally many tokens off both.  So two sources whose tokens have the same
texts, with any gaps and comments between them, hold the same program, summary or statement, or have
errors that are alike. -/
theorem places_do_not_matter :
    (∀ lefts rights : List Token, lexemes lefts = lexemes rights →
      Reader.statement.ReadsAlike lefts rights ∧ Reader.block.ReadsAlike lefts rights ∧
        Reader.instruction.ReadsAlike lefts rights ∧ Reader.program.ReadsAlike lefts rights) ∧
    (∀ (left right : String) (lefts rights : List Token),
      tokenize left = .ok lefts → tokenize right = .ok rights → lexemes lefts = lexemes rights →
        SameResult (Source.ErrorsAlike lefts rights)
          (Source.program left) (Source.program right) ∧
        SameResult (Source.ErrorsAlike lefts rights)
          (Source.statement left) (Source.statement right) ∧
        SameResult (Source.ErrorsAlike lefts rights)
          (Source.summary left) (Source.summary right)) := by
  have program := Reader.program_relocates.placeBlind Reader.program_settles
    Reader.program_accounts
  constructor
  · intro lefts rights same
    have statement := Reader.statement_relocates.placeBlind Reader.statement_settles
      Reader.statement_accounts
    have block := Reader.block_relocates.placeBlind Reader.block_settles Reader.block_accounts
    have instruction := Reader.instruction_relocates.placeBlind Reader.instruction_settles
      Reader.instruction_accounts
    exact ⟨Reader.statement_relocates.readsAlike statement same,
      Reader.block_relocates.readsAlike block same,
      Reader.instruction_relocates.readsAlike instruction same,
      Reader.program_relocates.readsAlike program same⟩
  · intro left right lefts rights leftScanned rightScanned same
    have programs := Source.sameResult_of_placeBlind program leftScanned rightScanned same
    exact ⟨programs,
      Source.sameResult_of_placeBlind Source.onlyValue_placeBlind leftScanned rightScanned same,
      programs.map Program.summary⟩

/-- A name that is defined twice, in one line. -/
def denseRepetition : String :=
  "PROGRAM p IS INSTRUCTION a IS END a INSTRUCTION a IS END a"

/-- The same words after a comment with a character of two bytes, on several lines. -/
def looseRepetition : String :=
  "# é
PROGRAM p IS
INSTRUCTION a IS END a # a
INSTRUCTION a IS END a"

/-- The words of both. -/
def repetition : List String :=
  ["PROGRAM", "p", "IS", "INSTRUCTION", "a", "IS", "END", "a", "INSTRUCTION", "a", "IS", "END", "a",
    endMarker]

theorem repetitions_are_alike : ∃ dense loose,
    tokenize denseRepetition = .ok dense ∧ tokenize looseRepetition = .ok loose ∧
      lexemes dense = lexemes loose ∧
      Source.program denseRepetition =
        .error (.syntactic (.duplicateInstruction "a" ⟨36, 47⟩)) ∧
      Source.program looseRepetition =
        .error (.syntactic (.duplicateInstruction "a" ⟨45, 56⟩)) ∧
      Reader.program.taken dense = Reader.program.taken loose ∧
      SameResult (Source.ErrorsAlike dense loose)
        (Source.program denseRepetition) (Source.program looseRepetition) := by
  obtain ⟨dense, denseScanned⟩ : ∃ dense, tokenize denseRepetition = .ok dense := ⟨_, rfl⟩
  obtain ⟨loose, looseScanned⟩ : ∃ loose, tokenize looseRepetition = .ok loose := ⟨_, rfl⟩
  have denseWords : (tokenize denseRepetition).map lexemes = .ok repetition := by rfl
  have looseWords : (tokenize looseRepetition).map lexemes = .ok repetition := by rfl
  rw [denseScanned] at denseWords
  rw [looseScanned] at looseWords
  have same : lexemes dense = lexemes loose :=
    (Except.ok.inj denseWords).trans (Except.ok.inj looseWords).symm
  exact ⟨dense, loose, denseScanned, looseScanned, same, rfl, rfl,
    (places_do_not_matter.1 dense loose same).2.2.2.taken,
    (places_do_not_matter.2 _ _ dense loose denseScanned looseScanned same).1⟩

end BLang
