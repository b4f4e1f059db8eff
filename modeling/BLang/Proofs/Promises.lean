import BLang.Proofs.ErrorPlaces
import BLang.Proofs.Termination

/-!
# Promises are kept

A condition is made only of a text that was found to be the spelling of one, and a call only of a
token that was found to be an identifier.  For conditions reading is written once more with the
promise checked where it is given, and a broken one ends it in a breach.  No token breaks it, so the
checked readers find what the readers find, on every stream.  A call takes a token that was looked at
elsewhere, and since every routine comes to an end, no routine breaks the promise about that token.
A snippet is shown only of a span that is not reversed: the errors of a source stand in it, so their
spans are in order.
-/

namespace BLang

open Text

/-! ## Conditions -/

namespace Condition

/-- The condition of a text that is promised to be a spelling.  The promise is checked first; the
lookup itself would take capital letters as well. -/
def promised (text : String) : Except Breach Condition :=
  if isCondition text then
    match ofText? text with
    | some condition => .ok condition
    | none => .error (.notCondition text)
  else .error (.notCondition text)

/-- Spellings have no capital letters. -/
theorem ofText?_spelling (condition : Condition) :
    ofText? condition.spelling = some condition := by
  cases condition <;> decide

theorem promised_spelling (condition : Condition) : promised condition.spelling = .ok condition := by
  have kept : isCondition condition.spelling = true := by
    rw [isCondition, ofSpelling?_spelling]
    rfl
  rw [promised, if_pos kept, ofText?_spelling]

/-- The check and the exact lookup agree on every text. -/
theorem promised_eq_ofSpelling (text : String) : promised text = ofSpelling text := by
  cases found : ofSpelling? text with
  | some condition =>
      rw [← spelling_of_ofSpelling? found, promised_spelling, ofSpelling_spelling]
  | none =>
      have broken : isCondition text = false := by rw [isCondition, found, Option.isSome_none]
      rw [promised, ofSpelling, found, broken, if_neg Bool.false_ne_true]

end Condition

/-! ## Checked steps -/

namespace Nest

def checkedCondition (around : List Frame) (form : Form) (token : Token) :
    Except Breach (Step Nest Statement) :=
  if isCondition token.lexeme then
    (Condition.promised token.lexeme).map fun condition =>
      .on ⟨around, .opener form condition⟩ []
  else .ok (.refuse (.invalidCondition token) true [])

def checkedStep (nest : Nest) (token : Token) : Except Breach (Step Nest Statement) :=
  match nest.phase with
  | .condition form => checkedCondition nest.around form token
  | _ => .ok (nest.step token)

theorem checkedCondition_eq (around : List Frame) (form : Form) (token : Token) :
    checkedCondition around form token = .ok (step ⟨around, .condition form⟩ token) := by
  unfold checkedCondition step
  dsimp only
  cases found : Condition.ofSpelling? token.lexeme with
  | some condition =>
      have kept : isCondition token.lexeme = true := by rw [isCondition, found, Option.isSome_some]
      rw [if_pos kept, Condition.promised_eq_ofSpelling, Condition.ofSpelling, found]
      rfl
  | none =>
      have other : isCondition token.lexeme = false := by rw [isCondition, found, Option.isSome_none]
      rw [other, if_neg Bool.false_ne_true]

/-- A step breaks no promise. -/
theorem checkedStep_eq (nest : Nest) (token : Token) :
    nest.checkedStep token = .ok (nest.step token) := by
  rcases nest with ⟨around, phase⟩
  cases phase with
  | condition form => exact checkedCondition_eq around form token
  | _ => rfl

end Nest

/-! ## Steps around statements -/

namespace Sequence

/-- What the step of a statement is for the block around it. -/
def afterNest (sequence : Sequence) : Step Nest Statement → Step Sequence Block
  | .on next events => .on ⟨sequence.read, next⟩ events
  | .done statement events =>
      .on ⟨statement :: sequence.read, Nest.start⟩ (events ++ [.parsedStatement sequence.read])
  | .refuse error consumed events => .refuse error consumed events

def checkedStep (sequence : Sequence) (token : Token) : Except Breach (Step Sequence Block) :=
  if sequence.atRest && token.closesBlock then .ok (.done sequence.read.reverse [])
  else (sequence.nest.checkedStep token).map sequence.afterNest

theorem checkedStep_eq (sequence : Sequence) (token : Token) :
    sequence.checkedStep token = .ok (sequence.step token) := by
  unfold checkedStep step
  split
  · rfl
  · rw [Nest.checkedStep_eq]
    cases sequence.nest.step token <;> rfl

end Sequence

namespace Definition

/-- What the step of its body is for a definition. -/
def afterBody (name : String) (token : Token) : Step Sequence Block → Step Definition Instruction
  | .on next events => .on (inBody name next) events
  | .done block _ => Step.expect Keyword.END.spelling token (.on (atLabel name block) [])
  | .refuse error consumed events => .refuse error consumed events

def checkedStep (definition : Definition) (token : Token) :
    Except Breach (Step Definition Instruction) :=
  match definition with
  | inBody name sequence => (sequence.checkedStep token).map (afterBody name token)
  | other => .ok (other.step token)

theorem checkedStep_eq (definition : Definition) (token : Token) :
    definition.checkedStep token = .ok (definition.step token) := by
  cases definition with
  | inBody name sequence =>
      simp only [checkedStep, step, Sequence.checkedStep_eq]
      cases sequence.step token <;> rfl
  | _ => rfl

end Definition

namespace Draft

/-- What the step of a definition is for the program around it. -/
def afterDefinition (name : String) (context : Context) (start : Span) :
    Step Definition Instruction → Step Draft Program
  | .on next events => .on (inDefinition name context start next) events
  | .done instruction events =>
      if context.contains instruction.name then
        .refuse (.duplicateInstruction instruction.name start) true events
      else .on (atTable name (context.insert instruction)) events
  | .refuse error consumed events => .refuse error consumed events

/-- What the step of its body is for a program. -/
def afterBody (name : String) (context : Context) (token : Token) :
    Step Sequence Block → Step Draft Program
  | .on next events => .on (inBody name context next) events
  | .done block _ =>
      Step.expect Keyword.END.spelling token (.on (atLabel name context block) [])
  | .refuse error consumed events => .refuse error consumed events

def checkedStep (draft : Draft) (token : Token) : Except Breach (Step Draft Program) :=
  match draft with
  | inDefinition name context start current =>
      (current.checkedStep token).map (afterDefinition name context start)
  | inBody name context sequence =>
      (sequence.checkedStep token).map (afterBody name context token)
  | other => .ok (other.step token)

theorem checkedStep_eq (draft : Draft) (token : Token) :
    draft.checkedStep token = .ok (draft.step token) := by
  cases draft with
  | inDefinition name context start current =>
      simp only [checkedStep, step, Definition.checkedStep_eq]
      cases current.step token <;> rfl
  | inBody name context sequence =>
      simp only [checkedStep, step, Sequence.checkedStep_eq]
      cases sequence.step token <;> rfl
  | _ => rfl

end Draft

/-! ## Checked runs -/

namespace Reader

variable {σ α : Type}

/-- A run in which every step is checked; a breach ends it. -/
def checkedFrom (reader : Reader σ α) (check : σ → Token → Except Breach (Step σ α)) :
    σ → List Token → Except Breach (Outcome α)
  | _, [] => .ok ⟨.error .endOfStream, []⟩
  | state, token :: rest =>
      match check state token with
      | .error breach => .error breach
      | .ok (.on next _) => checkedFrom reader check next rest
      | .ok (.done value _) => .ok ⟨.ok value, if reader.leavesLast then token :: rest else rest⟩
      | .ok (.refuse error consumed _) =>
          .ok ⟨.error error, if consumed then rest else token :: rest⟩

def checkedRun (reader : Reader σ α) (check : σ → Token → Except Breach (Step σ α))
    (tokens : List Token) : Except Breach (Outcome α) :=
  reader.checkedFrom check reader.start tokens

theorem checkedFrom_eq {reader : Reader σ α} {check : σ → Token → Except Breach (Step σ α)}
    (kept : ∀ state token, check state token = .ok (reader.step state token)) (state : σ)
    (tokens : List Token) :
    reader.checkedFrom check state tokens = .ok (reader.runFrom state tokens) := by
  induction tokens generalizing state with
  | nil => rfl
  | cons token rest ih =>
      rw [checkedFrom, runFrom, kept]
      cases reader.step state token with
      | on next events => exact ih next
      | done value events => rfl
      | refuse error consumed events => rfl

def checkedStatement : List Token → Except Breach (Outcome Statement) :=
  statement.checkedRun Nest.checkedStep

def checkedBlock : List Token → Except Breach (Outcome Block) :=
  block.checkedRun Sequence.checkedStep

def checkedInstruction : List Token → Except Breach (Outcome Instruction) :=
  instruction.checkedRun Definition.checkedStep

def checkedProgram : List Token → Except Breach (Outcome Program) :=
  program.checkedRun Draft.checkedStep

variable (tokens : List Token)

theorem checkedStatement_eq : checkedStatement tokens = .ok (statement.run tokens) :=
  checkedFrom_eq Nest.checkedStep_eq _ tokens

theorem checkedBlock_eq : checkedBlock tokens = .ok (block.run tokens) :=
  checkedFrom_eq Sequence.checkedStep_eq _ tokens

theorem checkedInstruction_eq : checkedInstruction tokens = .ok (instruction.run tokens) :=
  checkedFrom_eq Definition.checkedStep_eq _ tokens

theorem checkedProgram_eq : checkedProgram tokens = .ok (program.run tokens) :=
  checkedFrom_eq Draft.checkedStep_eq _ tokens

end Reader

/-! ## Sources -/

namespace Source

variable {α : Type}

/-- The value of an outcome whose remaining tokens start with the end marker. -/
def lastValue (outcome : Outcome α) : Except ParseError α :=
  match outcome.result with
  | .error error => .error error
  | .ok value => (Reader.endOfInput.run outcome.rest).result.map fun _ => value

/-- Reads the tokens of a source with the promises checked. -/
def checked (source : String) (read : List Token → Except Breach (Except ParseError α)) :
    Except Breach (Except CompileError α) :=
  match tokens source with
  | .error error => .ok (.error error)
  | .ok tokens => (read tokens).map fun result => result.mapError .syntactic

def checkedProgram (source : String) : Except Breach (Except CompileError Program) :=
  checked source fun tokens => (Reader.checkedProgram tokens).map Outcome.result

def checkedStatement (source : String) : Except Breach (Except CompileError Statement) :=
  checked source fun tokens => (Reader.checkedStatement tokens).map lastValue

def checkedSummary (source : String) : Except Breach (Except CompileError Summary) :=
  (checkedProgram source).map fun result => result.map Program.summary

theorem checked_eq {check : List Token → Except Breach (Except ParseError α)}
    {read : List Token → Except ParseError α} (kept : ∀ tokens, check tokens = .ok (read tokens))
    (source : String) :
    checked source check =
      .ok (tokens source >>= fun tokens => (read tokens).mapError .syntactic) := by
  unfold checked
  cases tokens source with
  | error error => rfl
  | ok tokens =>
      dsimp only
      rw [kept]
      rfl

theorem checkedProgram_eq (source : String) :
    checkedProgram source = .ok (Source.program source) := by
  apply checked_eq
  intro tokens
  rw [Reader.checkedProgram_eq]
  rfl

theorem checkedStatement_eq (source : String) :
    checkedStatement source = .ok (Source.statement source) := by
  apply checked_eq
  intro tokens
  rw [Reader.checkedStatement_eq]
  rfl

theorem checkedSummary_eq (source : String) :
    checkedSummary source = .ok (Source.summary source) := by
  rw [checkedSummary, checkedProgram_eq]
  rfl

/-- The error is what scanning the source or reading it as a program, a statement or a summary
ends in. -/
inductive Fails (source : String) (error : CompileError) : Prop where
  | tokens (failed : Source.tokens source = .error error)
  | program (failed : Source.program source = .error error)
  | statement (failed : Source.statement source = .error error)
  | summary (failed : Source.summary source = .error error)

theorem Fails.standsIn {source : String} {error : CompileError} (fails : Fails source error) :
    error.StandsIn source := by
  have program (failed : Source.program source = .error error) : error.StandsIn source :=
    error_standsIn (fun tokens stop fault member ends refused =>
      Reader.program_settles.isAbout Reader.program_accounts member ends refused) failed
  cases fails with
  | tokens failed =>
      unfold Source.tokens at failed
      cases scanned : tokenize source with
      | error lexical =>
          rw [scanned] at failed
          cases failed
          exact lexical_standsIn scanned
      | ok tokens =>
          rw [scanned] at failed
          cases failed
  | program failed => exact program failed
  | summary failed => exact program ((summary_eq_error_iff source error).mp failed)
  | statement failed =>
      exact error_standsIn (fun tokens stop fault member ends refused =>
        isAbout_of_onlyValue member ends refused) failed

end Source

/-! ## Reports -/

/-- A snippet is shown unless the span is reversed. -/
theorem Emitter.exists_reportIn (emitter : Emitter) {diagnostic : Diagnostic} (source : String)
    (ordered : ∀ span, diagnostic.span = some span → span.start ≤ span.stop) :
    ∃ text, emitter.reportIn diagnostic source = .ok text := by
  unfold reportIn
  split
  · exact ⟨_, rfl⟩
  next span visible =>
    have shown : diagnostic.span = some span := (Option.filter_eq_some_iff.mp visible).1
    rw [if_neg (Nat.not_lt.mpr (ordered span shown))]
    exact ⟨_, rfl⟩

namespace CompileError

theorem diagnostic_span (error : CompileError) (file : Option String) :
    (error.diagnostic file).span = error.span? := by
  have bare : error.bareDiagnostic.span = error.span? := by
    cases error with
    | lexical error => rfl
    | syntactic error => exact error.diagnostic_span
    | unreadable error => rfl
  cases file <;> exact bare

/-- An error that stands in a source is shown in it. -/
theorem StandsIn.exists_report {error : CompileError} {source : String}
    (stands : error.StandsIn source) (emitter : Emitter) (file : Option String) :
    ∃ text, error.report emitter file (some source) = .ok text := by
  obtain ⟨place, known, within⟩ := stands.within
  apply emitter.exists_reportIn source
  intro span shown
  rw [diagnostic_span, known] at shown
  cases shown
  exact within.ordered

end CompileError

/-! ## No promise is broken -/

namespace Source

/-- No input breaks a promise.  A text found to be a condition is the spelling of the condition made
of it, and with that checked the readers find in any tokens, whatever their texts and places, just
what they find without.  So does reading a source.  The routines find the same in such tokens, and
no promise is broken in them or in those they call.  The text of an error in scanning can be cut
out of the source, and an error of the source is shown by every emitter, with any file or none, in
the source and without it. -/
theorem promises_are_kept :
    (∀ text, isCondition text = true →
      ∃ condition, condition.spelling = text ∧ Condition.promised text = .ok condition) ∧
    (∀ tokens, Reader.checkedStatement tokens = .ok (Reader.statement.run tokens) ∧
      Reader.checkedBlock tokens = .ok (Reader.block.run tokens) ∧
      Reader.checkedInstruction tokens = .ok (Reader.instruction.run tokens) ∧
      Reader.checkedProgram tokens = .ok (Reader.program.run tokens)) ∧
    (∀ (task : Descent.Task) (tokens : List Token),
      (task.routine tokens).Reaches (task.answer tokens) ∧
        ∀ breach, ¬ (task.routine tokens).Breaks breach) ∧
    (∀ source, checkedProgram source = .ok (Source.program source) ∧
      checkedStatement source = .ok (Source.statement source) ∧
      checkedSummary source = .ok (Source.summary source) ∧
      ∀ error, tokenize source = .error error →
        slice? source error.span = some error.text) ∧
    (∀ source error, Fails source error → ∀ (emitter : Emitter) (file shown : Option String),
      shown = some source ∨ shown = none → ∃ text, error.report emitter file shown = .ok text) := by
  refine ⟨?_, ?_, ?_, ?_, ?_⟩
  · intro text spells
    obtain ⟨condition, found⟩ := Option.isSome_iff_exists.mp spells
    have spelling := Condition.spelling_of_ofSpelling? found
    exact ⟨condition, spelling, spelling ▸ condition.promised_spelling⟩
  · intro tokens
    exact ⟨Reader.checkedStatement_eq tokens, Reader.checkedBlock_eq tokens,
      Reader.checkedInstruction_eq tokens, Reader.checkedProgram_eq tokens⟩
  · intro task tokens
    have reaches := Descent.Call.reaches_answer ⟨task, tokens⟩
    exact ⟨reaches, reaches.not_breaks⟩
  · intro source
    exact ⟨checkedProgram_eq source, checkedStatement_eq source, checkedSummary_eq source,
      fun _ => lexical_standsIn⟩
  · intro source error fails emitter file shown choice
    rcases choice with rfl | rfl
    · exact fails.standsIn.exists_report emitter file
    · exact ⟨_, rfl⟩

/-- A condition in capital letters, which the lookup alone would take. -/
def shouted : List Token := [⟨"WHILE", ⟨5, 1⟩⟩, ⟨"RANDOM", ⟨3, 0⟩⟩]

/-- Reversed spans and capital letters break no promise, and a missing condition is shown at the end
of its source.  A keyword would break the promise of a call, but no statement calls it for one. -/
theorem promises_kept_by_shouted :
    isCondition "random" = true ∧
      (∃ condition, condition.spelling = "random" ∧
        Condition.promised "random" = .ok condition) ∧
      Condition.ofText? "RANDOM" = some .random ∧
      Reader.checkedStatement shouted =
        .ok ⟨.error (.invalidCondition ⟨"RANDOM", ⟨3, 0⟩⟩), []⟩ ∧
      (Descent.Routine.call shouted).Breaks .notIdentifier ∧
      ¬ (Descent.Task.statement.routine shouted).Breaks .notIdentifier ∧
      tokenize "skip %" = .error ⟨"%", ⟨5, 6⟩⟩ ∧ slice? "skip %" ⟨5, 6⟩ = some "%" ∧
      Source.statement "IF" = .error (.syntactic (.invalidCondition ⟨endMarker, ⟨2, 2⟩⟩)) ∧
      ∃ text, (CompileError.syntactic (.invalidCondition ⟨endMarker, ⟨2, 2⟩⟩)).report
        Emitter.plain none (some "IF") = .ok text := by
  obtain ⟨conditions, streams, routines, sources, reports⟩ := promises_are_kept
  have spells : isCondition "random" = true := by decide
  have unknown : tokenize "skip %" = .error ⟨"%", ⟨5, 6⟩⟩ := by rfl
  have missing : Source.statement "IF" =
      .error (.syntactic (.invalidCondition ⟨endMarker, ⟨2, 2⟩⟩)) := by rfl
  have keyword : (Descent.Routine.call shouted).Breaks .notIdentifier := .here _ _
  exact ⟨spells, conditions _ spells, by decide, (streams shouted).1, keyword,
    (routines .statement shouted).2 _, unknown, (sources _).2.2.2 _ unknown, missing,
    reports _ _ (.statement missing) Emitter.plain none (some "IF") (Or.inl rfl)⟩

end Source

end BLang
