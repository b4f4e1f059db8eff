import BLang.Proofs.RoundTrip
import BLang.Proofs.Sources

/-!
# The places of errors

An error of a source is about a part of its text, or about its end.  No reader goes on at the end
marker, so none runs out of tokens, and every error of a reader is about a token that was scanned.
For a second definition of a name that is the token with which it begins.
-/

namespace BLang

open Text

/-! ## Places in a source -/

/-- The ends of the span are in order, within the source and between its characters. -/
structure Span.Within (span : Span) (source : String) : Prop where
  ordered : span.start ≤ span.stop
  bounded : span.stop ≤ source.utf8ByteSize
  start : isBoundary source span.start = true
  stop : isBoundary source span.stop = true

/-- The token has its text at its place in the source, or marks the end of the source. -/
def Token.StandsIn (token : Token) (source : String) : Prop :=
  if token.isEnd then token.span = Span.point source.utf8ByteSize
  else slice? source token.span = some token.lexeme

namespace ParseError

/-- The token of the error is as described, and so is the place of a second definition of a name,
for which the error has no token.  The end of the stream has neither. -/
def Refers (ofToken : Token → Prop) (ofPlace : Span → Prop) : ParseError → Prop
  | unexpected _ found => ofToken found
  | invalidCondition found => ofToken found
  | invalidIdentifier found => ofToken found
  | primitiveRedefinition name => ofToken name
  | duplicateInstruction _ span => ofPlace span
  | mismatchedLabel _ found => ofToken found
  | trailingInput found => ofToken found
  | endOfStream => False

/-- The token of the error stands in the source; for a second definition of a name the word
`INSTRUCTION` stands at the place of the error. -/
def StandsIn (error : ParseError) (source : String) : Prop :=
  error.Refers (fun token => token.StandsIn source)
    (fun span => slice? source span = some Keyword.INSTRUCTION.spelling)

theorem Refers.imp {error : ParseError} {ofToken otherToken : Token → Prop}
    {ofPlace otherPlace : Span → Prop} (refers : error.Refers ofToken ofPlace)
    (token : ∀ found, ofToken found → otherToken found)
    (place : ∀ span, ofPlace span → otherPlace span) : error.Refers otherToken otherPlace := by
  cases error with
  | unexpected _ found => exact token found refers
  | invalidCondition found => exact token found refers
  | invalidIdentifier found => exact token found refers
  | primitiveRedefinition name => exact token name refers
  | duplicateInstruction _ span => exact place span refers
  | mismatchedLabel _ found => exact token found refers
  | trailingInput found => exact token found refers
  | endOfStream => exact refers

/-- What holds of the token and of the place holds of the span of the error. -/
theorem Refers.span {error : ParseError} {property : Span → Prop}
    (refers : error.Refers (fun token => property token.span) property) :
    ∃ span, error.span? = some span ∧ property span := by
  cases error with
  | unexpected _ found => exact ⟨found.span, rfl, refers⟩
  | invalidCondition found => exact ⟨found.span, rfl, refers⟩
  | invalidIdentifier found => exact ⟨found.span, rfl, refers⟩
  | primitiveRedefinition name => exact ⟨name.span, rfl, refers⟩
  | duplicateInstruction _ span => exact ⟨span, rfl, refers⟩
  | mismatchedLabel _ found => exact ⟨found.span, rfl, refers⟩
  | trailingInput found => exact ⟨found.span, rfl, refers⟩
  | endOfStream => exact refers.elim

end ParseError

namespace CompileError

def StandsIn (error : CompileError) (source : String) : Prop :=
  match error with
  | lexical error => slice? source error.span = some error.text
  | syntactic error => error.StandsIn source
  | unreadable _ => False

def span? : CompileError → Option Span
  | lexical error => some error.span
  | syntactic error => error.span?
  | unreadable _ => none

end CompileError

theorem Span.within_of_slice? {source text : String} {span : Span}
    (sliced : slice? source span = some text) : span.Within source := by
  obtain ⟨before, after, chars, rfl⟩ := slice?_eq_some_iff.mp sliced
  have stop : byteLength (before ++ text.toList) = (spanAfter before text.toList).stop :=
    byteLength_append _ _
  have length := byteLength_append (before ++ text.toList) after
  rw [← chars, byteLength_toList, stop] at length
  constructor
  · exact Nat.le_add_right _ _
  · omega
  · rw [List.append_assoc] at chars
    exact isBoundary_byteLength chars
  · rw [← stop]
    exact isBoundary_byteLength chars

theorem Span.within_point (source : String) :
    (Span.point source.utf8ByteSize).Within source := by
  have boundary := isBoundary_byteLength (List.append_nil source.toList).symm
  rw [byteLength_toList] at boundary
  exact ⟨Nat.le_refl _, Nat.le_refl _, boundary, boundary⟩

theorem Token.StandsIn.within {token : Token} {source : String} (stands : token.StandsIn source) :
    token.span.Within source := by
  unfold StandsIn at stands
  split at stands
  · rw [stands]
    exact Span.within_point source
  · exact Span.within_of_slice? stands

theorem ParseError.StandsIn.within {error : ParseError} {source : String}
    (stands : error.StandsIn source) : ∃ span, error.span? = some span ∧ span.Within source :=
  (Refers.imp stands (fun _ => Token.StandsIn.within) fun _ => Span.within_of_slice?).span

theorem CompileError.StandsIn.within {error : CompileError} {source : String}
    (stands : error.StandsIn source) : ∃ span, error.span? = some span ∧ span.Within source := by
  cases error with
  | lexical error => exact ⟨error.span, rfl, Span.within_of_slice? stands⟩
  | syntactic error => exact ParseError.StandsIn.within stands
  | unreadable error => exact stands.elim

/-- Every token of a source stands in it. -/
theorem standsIn_of_tokenize {source : String} {tokens : List Token}
    (scanned : tokenize source = .ok tokens) : ∀ token ∈ tokens, token.StandsIn source := by
  obtain ⟨words, rfl, wordsOf⟩ := tokens_of_tokenize scanned
  intro token member
  unfold Token.StandsIn
  rcases List.mem_append.mp member with word | last
  · rw [wordsOf.isEnd_eq_false token word, if_neg Bool.false_ne_true]
    exact wordsOf.slice token word
  · rw [List.mem_singleton.mp last, Token.isEnd_ending, if_pos rfl]
    rfl

/-! ## What a step settles -/

namespace ParseError

/-- The error is about one of the tokens, a second definition of a name about its `INSTRUCTION`. -/
def IsAbout (error : ParseError) (tokens : List Token) : Prop :=
  error.Refers (fun token => token ∈ tokens) fun span =>
    ∃ opening ∈ tokens, opening.lexeme = Keyword.INSTRUCTION.spelling ∧ opening.span = span

theorem IsAbout.mono {error : ParseError} {tokens others : List Token}
    (about : error.IsAbout tokens) (more : tokens ⊆ others) : error.IsAbout others := by
  refine Refers.imp about (fun _ member => more member) ?_
  rintro span ⟨opening, member, place⟩
  exact ⟨opening, more member, place⟩

theorem IsAbout.standsIn {error : ParseError} {tokens : List Token} {source : String}
    (about : error.IsAbout tokens) (stand : ∀ token ∈ tokens, token.StandsIn source) :
    error.StandsIn source := by
  refine Refers.imp about stand ?_
  rintro span ⟨opening, member, text, rfl⟩
  have stands := stand opening member
  rwa [Token.StandsIn, Token.isEnd_of_keyword text, if_neg Bool.false_ne_true, text] at stands

end ParseError

namespace Step

variable {σ α : Type} {leaves : Bool} {token : Token} {tokens : List Token}

/-- The end marker is left by a step that does not refuse it, and an error is about one of the
tokens. -/
def Settles (leaves : Bool) (token : Token) (tokens : List Token) : Step σ α → Prop
  | .on _ _ => token.isEnd = false
  | .done _ _ => leaves = true ∨ token.isEnd = false
  | .refuse error _ _ => error.IsAbout tokens

theorem settles_expect {keyword : Keyword} {step : Step σ α} (last : token ∈ tokens)
    (settles : token.isEnd = false → step.Settles leaves token tokens) :
    (Step.expect keyword.spelling token step).Settles leaves token tokens := by
  unfold Step.expect
  split
  next same => exact settles (Token.isEnd_of_keyword ((token.is_iff _).mp same))
  next => exact last

theorem settles_identifier {step : Step σ α} (last : token ∈ tokens)
    (settles : token.isEnd = false → step.Settles leaves token tokens) :
    (Step.identifier token step).Settles leaves token tokens := by
  unfold Step.identifier
  split
  next identifier => exact settles (Token.isEnd_of_isWord (isWord_of_isIdentifier identifier))
  next => exact last

theorem settles_label {name : String} {step : Step σ α} (identifier : isIdentifier name = true)
    (last : token ∈ tokens)
    (settles : token.isEnd = false → step.Settles leaves token tokens) :
    (Step.label name token step).Settles leaves token tokens := by
  unfold Step.label
  split
  next same =>
    rw [← (token.is_iff name).mp same] at identifier
    exact settles (Token.isEnd_of_isWord (isWord_of_isIdentifier identifier))
  next => exact last

end Step

namespace Nest

variable {around outer : List Frame} {frame : Frame} {token : Token} {tokens : List Token}

theorem settles_finish (statement : Statement) (notEnd : token.isEnd = false) :
    (finish statement around).Settles false token tokens := by
  cases around with
  | nil => exact Or.inr notEnd
  | cons frame outer => exact notEnd

theorem settles_enter (last : token ∈ tokens) :
    (enter around token).Settles false token tokens := by
  unfold enter
  split
  next loop => exact Token.isEnd_of_keyword ((token.isKeyword_iff _).mp loop)
  next =>
    split
    next conditional => exact Token.isEnd_of_keyword ((token.isKeyword_iff _).mp conditional)
    next =>
      split
      next identifier =>
        exact settles_finish _ (Token.isEnd_of_isWord (isWord_of_isIdentifier identifier))
      next => exact last

theorem settles_close (last : token ∈ tokens) :
    (close frame outer token).Settles false token tokens := by
  obtain ⟨head, read⟩ := frame
  cases head with
  | thenBranch condition =>
      simp only [close]
      split
      next other => exact Token.isEnd_of_keyword ((token.isKeyword_iff _).mp other)
      next =>
        split
        next ended => exact Token.isEnd_of_keyword ((token.isKeyword_iff _).mp ended)
        next => exact last
  | elseBranch condition first => exact Step.settles_expect last id
  | loop condition => exact Step.settles_expect last id

theorem settles_step (nest : Nest) (last : token ∈ tokens) :
    (nest.step token).Settles false token tokens := by
  obtain ⟨around, phase⟩ := nest
  cases phase with
  | item =>
      cases around with
      | nil => exact settles_enter last
      | cons frame outer =>
          simp only [step]
          split
          · exact settles_close last
          · exact settles_enter last
  | condition form =>
      simp only [step]
      split
      next condition found =>
        have text := Condition.spelling_of_ofSpelling? found
        exact Token.isEnd_of_isWord (text ▸ isWord_condition condition)
      next => exact last
  | opener form condition => exact Step.settles_expect last id
  | closer form statement => exact Step.settles_expect last (settles_finish statement)

end Nest

theorem Sequence.settles_step (sequence : Sequence) {token : Token} {tokens : List Token}
    (last : token ∈ tokens) : (sequence.step token).Settles true token tokens := by
  unfold step
  split
  · exact Or.inl rfl
  · have inner := sequence.nest.settles_step last
    cases taken : sequence.nest.step token with
    | on next events =>
        rw [taken] at inner
        exact inner
    | done statement events =>
        rw [taken] at inner
        exact inner.resolve_left Bool.false_ne_true
    | refuse error consumed events =>
        rw [taken] at inner
        exact inner

namespace Definition

theorem settles_step {definition : Definition} {words : List String}
    (spoken : definition.Spoken words) {token : Token} {tokens : List Token}
    (last : token ∈ tokens) : (definition.step token).Settles false token tokens := by
  cases spoken with
  | atKeyword => exact Step.settles_expect last id
  | atName =>
      refine Step.settles_identifier last fun notEnd => ?_
      split
      · exact last
      · exact notEnd
  | atIs definable => exact Step.settles_expect last id
  | @inBody name sequence words definable inside =>
      have inner := sequence.settles_step last
      simp only [step]
      cases taken : sequence.step token with
      | on next events =>
          rw [taken] at inner
          exact inner
      | done block events => exact Step.settles_expect last id
      | refuse error consumed events =>
          rw [taken] at inner
          exact inner
  | atLabel definable named => exact Step.settles_label definable.1 last Or.inr

/-- The first word of a definition is `INSTRUCTION`. -/
theorem Spoken.first {definition : Definition} {words : List String}
    (spoken : definition.Spoken words) {word : String} {rest : List String}
    (texts : words = word :: rest) : word = Keyword.INSTRUCTION.spelling := by
  cases spoken with
  | atKeyword => cases texts
  | atName => exact (List.cons.inj texts).1.symm
  | atIs definable => exact (List.cons.inj texts).1.symm
  | inBody definable inside => exact (List.cons.inj texts).1.symm
  | atLabel definable named => exact (List.cons.inj texts).1.symm

end Definition

theorem Draft.settles_step {draft : Draft} {read : List Token} (spoken : draft.Spoken read)
    (token : Token) : (draft.step token).Settles true token (read ++ [token]) := by
  have last : token ∈ read ++ [token] := List.mem_append_right _ List.mem_cons_self
  cases spoken with
  | atKeyword => exact Step.settles_expect last id
  | atName texts => exact Step.settles_identifier last id
  | atIs identifier texts => exact Step.settles_expect last id
  | atTable opened =>
      simp only [step]
      split
      next same => exact Token.isEnd_of_keyword ((token.isKeyword_iff _).mp same)
      next => exact Step.settles_expect last id
  | @inDefinition name context definitions before tail opening current opened inside =>
      have inner := Definition.settles_step inside last
      simp only [step]
      cases taken : current.step token with
      | on next events =>
          rw [taken] at inner
          exact inner
      | done instruction events =>
          rw [taken] at inner
          dsimp only
          split
          · have text := inside.first (lexemes_cons opening tail)
            have member : opening ∈ before ++ opening :: tail ++ [token] := by simp
            exact ⟨opening, member, text, rfl⟩
          · exact inner.resolve_left Bool.false_ne_true
      | refuse error consumed events =>
          rw [taken] at inner
          exact inner
  | @inBody name context definitions words part sequence read opened inside texts =>
      have inner := sequence.settles_step last
      simp only [step]
      cases taken : sequence.step token with
      | on next events =>
          rw [taken] at inner
          exact inner
      | done block events => exact Step.settles_expect last id
      | refuse error consumed events =>
          rw [taken] at inner
          exact inner
  | atLabel opened named texts => exact Step.settles_label opened.identifier last id
  | atEnd written =>
      simp only [step]
      split
      · exact Or.inl rfl
      · exact last

/-! ## What a run settles -/

namespace Reader

variable {σ α : Type} {reader : Reader σ α} {reached : σ → List Token → Prop}
  {found : α → List Token → Token → Prop}

/-- Every step from the states that are reached settles its token. -/
def Settles (reader : Reader σ α) (reached : σ → List Token → Prop) : Prop :=
  ∀ {state : σ} {read : List Token} (token : Token), reached state read →
    (reader.step state token).Settles reader.leavesLast token (read ++ [token])

/-- No path leads over the end marker. -/
theorem Settles.isEnd_of_passes (settles : reader.Settles reached)
    (accounts : reader.Accounts reached found) {first last : σ} {read tokens : List Token}
    (reachedFirst : reached first read) (path : reader.Passes first tokens last) :
    ∀ token ∈ tokens, token.isEnd = false := by
  induction path generalizing read with
  | refl => exact List.forall_mem_nil _
  | @on state next last token tokens events step _ ih =>
      have settled := settles token reachedFirst
      have holds := accounts.step token reachedFirst
      rw [step] at settled holds
      exact List.forall_mem_cons.mpr ⟨settled, ih holds⟩

/-- An error at the end of a path is about one of the tokens up to there. -/
theorem Settles.isAbout_of_refuse (settles : reader.Settles reached)
    (accounts : reader.Accounts reached found) {before : List Token} {last : σ} {token : Token}
    {error : ParseError} {consumed : Bool} {events : List Event}
    (path : reader.Passes reader.start before last)
    (step : reader.step last token = .refuse error consumed events) (after : List Token) :
    error.IsAbout (before ++ token :: after) := by
  have settled := settles token (accounts.of_passes path)
  rw [step] at settled
  refine settled.mono ?_
  rw [List.append_cons before token after]
  exact List.subset_append_left _ after

variable {tokens : List Token} {stop : Token}

/-- With an end marker in the stream a reader does not run out of tokens. -/
theorem Settles.isAbout (settles : reader.Settles reached)
    (accounts : reader.Accounts reached found) (member : stop ∈ tokens) (ends : stop.isEnd = true)
    {error : ParseError} (failed : (reader.run tokens).result = .error error) :
    error.IsAbout tokens := by
  have outcome := reader.runFrom_ends reader.start tokens
  generalize same : reader.runFrom reader.start tokens = whole at outcome
  have run : reader.run tokens = whole := same
  rw [run] at failed
  cases outcome with
  | exhausted path =>
      have notEnd := settles.isEnd_of_passes accounts accounts.start path stop member
      rw [ends] at notEnd
      cases notEnd
  | done path step after => cases failed
  | refused path step after =>
      cases failed
      exact settles.isAbout_of_refuse accounts path step after

/-- Whatever the stream, an error is about one of its tokens unless it ends too early. -/
theorem Settles.isAbout_or_endOfStream (settles : reader.Settles reached)
    (accounts : reader.Accounts reached found) {error : ParseError}
    (failed : (reader.run tokens).result = .error error) :
    error = .endOfStream ∨ error.IsAbout tokens := by
  have outcome := reader.runFrom_ends reader.start tokens
  generalize same : reader.runFrom reader.start tokens = whole at outcome
  have run : reader.run tokens = whole := same
  rw [run] at failed
  cases outcome with
  | exhausted path => exact Or.inl (Except.error.inj failed).symm
  | done path step after => cases failed
  | refused path step after =>
      cases failed
      exact Or.inr (settles.isAbout_of_refuse accounts path step after)

/-- A reader that takes the last token of a value leaves an end marker that comes after it. -/
theorem Settles.mem_rest (settles : reader.Settles reached)
    (accounts : reader.Accounts reached found) (takes : reader.leavesLast = false)
    (member : stop ∈ tokens) (ends : stop.isEnd = true) {value : α} {rest : List Token}
    (run : reader.run tokens = ⟨.ok value, rest⟩) : stop ∈ rest := by
  have outcome := reader.runFrom_ends reader.start tokens
  rw [show reader.runFrom reader.start tokens = ⟨.ok value, rest⟩ from run] at outcome
  cases outcome with
  | @done before last token _ events path step after =>
      have settled := settles token (accounts.of_passes path)
      rw [step, takes] at settled
      rw [takes, if_neg Bool.false_ne_true]
      have apart (other : Token) (notEnd : other.isEnd = false) : stop ≠ other := by
        rintro rfl
        rw [ends] at notEnd
        cases notEnd
      rcases List.mem_append.mp member with earlier | later
      · exact absurd rfl
          (apart stop (settles.isEnd_of_passes accounts accounts.start path stop earlier))
      · refine (List.mem_cons.mp later).resolve_left (apart token ?_)
        exact settled.resolve_left Bool.false_ne_true

theorem statement_settles :
    Reader.statement.Settles (fun nest read => nest.Spoken (lexemes read)) :=
  fun _ _ => Nest.settles_step _ (List.mem_append_right _ List.mem_cons_self)

theorem block_settles :
    Reader.block.Settles (fun sequence read => sequence.Spoken (lexemes read)) :=
  fun _ _ => Sequence.settles_step _ (List.mem_append_right _ List.mem_cons_self)

theorem instruction_settles :
    Reader.instruction.Settles (fun definition read => definition.Spoken (lexemes read)) :=
  fun _ spoken => Definition.settles_step spoken (List.mem_append_right _ List.mem_cons_self)

theorem program_settles : Reader.program.Settles Draft.Spoken :=
  fun token spoken => Draft.settles_step spoken token

theorem endOfInput_accounts : endOfInput.Accounts (fun _ _ => True) (fun _ _ _ => True) where
  start := trivial
  step token _ := by
    simp only [endOfInput]
    split
    · trivial
    · exact ⟨rfl, rfl⟩

theorem endOfInput_settles : endOfInput.Settles (fun _ _ => True) := by
  intro state read token _
  simp only [endOfInput]
  split
  · exact Or.inl rfl
  · exact List.mem_append_right read List.mem_cons_self

end Reader

/-! ## Errors of a source -/

namespace Source

theorem summary_eq_error_iff (source : String) (error : CompileError) :
    Source.summary source = .error error ↔ Source.program source = .error error := by
  rw [summary]
  cases Source.program source <;> simp [Except.map]

theorem exists_isEnd_of_tokenize {source : String} {tokens : List Token}
    (scanned : tokenize source = .ok tokens) : ∃ stop ∈ tokens, stop.isEnd = true := by
  obtain ⟨words, rfl, _⟩ := tokens_of_tokenize scanned
  exact ⟨_, List.mem_append_right _ List.mem_cons_self, Token.isEnd_ending _⟩

/-- The error is about a token, whether the statement fails or something follows it. -/
theorem isAbout_of_onlyValue {tokens : List Token} {stop : Token} (member : stop ∈ tokens)
    (ends : stop.isEnd = true) {error : ParseError}
    (failed : onlyValue Reader.statement tokens = .error error) : error.IsAbout tokens := by
  rcases (onlyValue_eq_error_iff Reader.statement tokens error).mp failed with
    refused | ⟨value, taken, later⟩
  · exact Reader.statement_settles.isAbout Reader.statement_accounts member ends refused
  · have left := Reader.statement_settles.mem_rest Reader.statement_accounts rfl member ends
      (Outcome.eq_mk_of_result taken)
    have about := Reader.endOfInput_settles.isAbout Reader.endOfInput_accounts left ends later
    exact about.mono (Reader.statement.run_rest_suffix tokens).subset

/-- An error in scanning has its character at its place. -/
theorem lexical_standsIn {source : String} {error : LexError}
    (failed : tokenize source = .error error) : slice? source error.span = some error.text := by
  have outcome := tokenizes source
  rw [failed] at outcome
  cases outcome with
  | error front => exact LexError.slice?_after front

theorem error_standsIn {α : Type} {read : List Token → Except ParseError α} {source : String}
    {error : CompileError}
    (about : ∀ tokens stop fault, stop ∈ tokens → stop.isEnd = true →
      read tokens = .error fault → fault.IsAbout tokens)
    (failed : (tokens source >>= fun tokens => (read tokens).mapError .syntactic) = .error error) :
    error.StandsIn source := by
  rcases (read_eq_error_iff read source error).mp failed with
    ⟨lexical, scanned, rfl⟩ | ⟨tokens, syntactic, scanned, refused, rfl⟩
  · exact lexical_standsIn scanned
  · obtain ⟨stop, member, ends⟩ := exists_isEnd_of_tokenize scanned
    exact (about tokens stop syntactic member ends refused).standsIn (standsIn_of_tokenize scanned)

/-- An error of reading a program, its summary or a statement has a place in the source: a span
between two of its characters.  The text there is what the error reports, or `INSTRUCTION` for a
second definition of a name; for the end marker the span is the empty one at the end of the
source. -/
theorem errors_stand_in_source (source : String) (error : CompileError)
    (failed : Source.program source = .error error ∨ Source.summary source = .error error ∨
      Source.statement source = .error error) :
    error.StandsIn source ∧ ∃ span, error.span? = some span ∧ span.Within source := by
  have stands : error.StandsIn source := by
    rw [summary_eq_error_iff, ← or_assoc, or_self] at failed
    rcases failed with program | statement
    · exact error_standsIn (fun tokens stop fault member ends refused =>
        Reader.program_settles.isAbout Reader.program_accounts member ends refused) program
    · exact error_standsIn (fun tokens stop fault member ends refused =>
        isAbout_of_onlyValue member ends refused) statement
  exact ⟨stands, stands.within⟩

/-- A second definition of a name after a character of two bytes, and a condition that is missing at
the end. -/
theorem repeated_definition_stands :
    Source.program "# é\nPROGRAM p IS INSTRUCTION a IS END a INSTRUCTION a IS END a" =
        .error (.syntactic (.duplicateInstruction "a" ⟨41, 52⟩)) ∧
      slice? "# é\nPROGRAM p IS INSTRUCTION a IS END a INSTRUCTION a IS END a" ⟨41, 52⟩ =
        some "INSTRUCTION" ∧
      Source.statement "IF" = .error (.syntactic (.invalidCondition ⟨endMarker, ⟨2, 2⟩⟩)) ∧
      (Span.mk 2 2).Within "IF" := by
  have repeated : Source.program
      "# é\nPROGRAM p IS INSTRUCTION a IS END a INSTRUCTION a IS END a" =
        .error (.syntactic (.duplicateInstruction "a" ⟨41, 52⟩)) := by rfl
  have missing : Source.statement "IF" =
      .error (.syntactic (.invalidCondition ⟨endMarker, ⟨2, 2⟩⟩)) := by rfl
  obtain ⟨_, span, place, within⟩ := errors_stand_in_source _ _ (Or.inr (Or.inr missing))
  cases place
  exact ⟨repeated, (errors_stand_in_source _ _ (Or.inl repeated)).1, missing, within⟩

end Source

end BLang
