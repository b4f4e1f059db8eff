import BLang.Proofs.Programs

/-!
# Completions

From every state of the readers of statements, blocks and definitions some words lead to a value:
open frames are closed from the inside out, and where a name is missing one is chosen.  The reader
of programs has states without a completion, those in which the definition that is being read has
the name of an earlier one.  It has a completion from every other state.
-/

namespace BLang

namespace Reader

variable {σ α : Type} {reader : Reader σ α}

/-- Some words, with a last one, lead from the state to the value. -/
def Finishes (reader : Reader σ α) (state : σ) (value : α) : Prop :=
  ∃ words final last, reader.Takes state words final ∧
    ∀ token : Token, token.lexeme = last → ∃ events, reader.step final token = .done value events

theorem Finishes.of_done {state : σ} {value : α} (last : String)
    (done : ∀ token : Token, token.lexeme = last →
      ∃ events, reader.step state token = .done value events) : reader.Finishes state value :=
  ⟨[], state, last, .nil state, done⟩

theorem Finishes.of_takes {state next : σ} {words : List String} {value : α}
    (takes : reader.Takes state words next) (finishes : reader.Finishes next value) :
    reader.Finishes state value := by
  obtain ⟨more, final, last, later, done⟩ := finishes
  exact ⟨words ++ more, final, last, takes.append later, done⟩

theorem Finishes.of_word {state next : σ} {value : α} (word : String)
    (step : ∀ token : Token, token.lexeme = word →
      ∃ events, reader.step state token = .on next events)
    (finishes : reader.Finishes next value) : reader.Finishes state value :=
  .of_takes (.cons next step (.nil next)) finishes

end Reader

/-! ## Statements and blocks -/

namespace Nest

theorem step_of_end {frame : Frame} {outer : List Frame} {token : Token}
    (text : token.lexeme = Keyword.END.spelling) :
    step ⟨frame :: outer, .item⟩ token =
      .on ⟨outer, .closer frame.head.form (frame.head.completed frame.read.reverse)⟩ [] := by
  have closes : token.closesBlock = true := Token.closesBlock_of_keyword text
  simp only [step, closes, if_true, close_of_end text]

theorem step_of_closer {around : List Frame} {form : Form} {statement : Statement} {token : Token}
    (text : token.lexeme = form.keyword.spelling) :
    step ⟨around, .closer form statement⟩ token = finish statement around :=
  Step.expect_of_lexeme text _

/-- Open frames can be closed one after the other. -/
theorem frames_finish (frame : Frame) (outer : List Frame) :
    ∃ statement, Reader.statement.Finishes ⟨frame :: outer, .item⟩ statement := by
  induction outer generalizing frame with
  | nil =>
      refine ⟨frame.head.completed frame.read.reverse, .of_word _ (fun token text =>
        ⟨[], step_of_end text⟩) (.of_done _ fun token text => ⟨[], step_of_closer text⟩)⟩
  | cons next outer ih =>
      obtain ⟨statement, finishes⟩ :=
        ih (next.add (frame.head.completed frame.read.reverse))
      exact ⟨statement, .of_word _ (fun token text => ⟨[], step_of_end text⟩)
        (.of_word _ (fun token text => ⟨_, step_of_closer text⟩) finishes)⟩

theorem closer_finishes (around : List Frame) (form : Form) (closed : Statement) :
    ∃ statement, Reader.statement.Finishes ⟨around, .closer form closed⟩ statement := by
  cases around with
  | nil => exact ⟨closed, .of_done _ fun token text => ⟨[], step_of_closer text⟩⟩
  | cons frame outer =>
      obtain ⟨statement, finishes⟩ := frames_finish (frame.add closed) outer
      exact ⟨statement, .of_word _ (fun token text => ⟨_, step_of_closer text⟩) finishes⟩

theorem opener_finishes (around : List Frame) (form : Form) (condition : Condition) :
    ∃ statement, Reader.statement.Finishes ⟨around, .opener form condition⟩ statement := by
  obtain ⟨statement, finishes⟩ := frames_finish ⟨form.head condition, []⟩ around
  exact ⟨statement,
    .of_word _ (fun token text => ⟨[], Step.expect_of_lexeme text _⟩) finishes⟩

theorem item_finishes (around : List Frame) :
    ∃ statement, Reader.statement.Finishes ⟨around, .item⟩ statement := by
  cases around with
  | nil =>
      have named : (Statement.call (longName 0)).WellNamed := isIdentifier_longName 0
      obtain ⟨words, last, final, _, takes, finishes⟩ := Statement.completes _ named []
      exact ⟨.call (longName 0), words, final, last, takes, fun token text =>
        ⟨[], finishes token text⟩⟩
  | cons frame outer => exact frames_finish frame outer

/-- From every nest some words lead to a statement. -/
theorem finishes (nest : Nest) : ∃ statement, Reader.statement.Finishes nest statement := by
  obtain ⟨around, phase⟩ := nest
  cases phase with
  | item => exact item_finishes around
  | condition form =>
      obtain ⟨statement, finishes⟩ := opener_finishes around form .always
      refine ⟨statement, .of_word Condition.always.spelling (fun token text => ⟨[], ?_⟩) finishes⟩
      simp only [Reader.statement, step, text, Condition.always.ofSpelling?_spelling]
  | opener form condition => exact opener_finishes around form condition
  | closer form statement => exact closer_finishes around form statement

end Nest

namespace Sequence

/-- Every sequence can be brought to a place between two statements. -/
theorem comes_to_rest (sequence : Sequence) :
    ∃ words read, Reader.block.Takes sequence words ⟨read, Nest.start⟩ := by
  obtain ⟨read, nest⟩ := sequence
  obtain ⟨statement, words, final, last, takes, done⟩ := nest.finishes
  refine ⟨words ++ [last], statement :: read,
    ((carries read).takes takes).append (.cons _ (fun token text => ?_) (.nil _))⟩
  obtain ⟨events, finished⟩ := done token text
  exact step_of_nest_done finished

theorem finishes (sequence : Sequence) : ∃ block, Reader.block.Finishes sequence block := by
  obtain ⟨words, read, takes⟩ := sequence.comes_to_rest
  refine ⟨read.reverse, .of_takes takes (.of_done Keyword.END.spelling fun token text =>
    ⟨[], ?_⟩)⟩
  exact step_of_closes read (Token.closesBlock_of_keyword text)

end Sequence

/-! ## Definitions -/

namespace Definition

/-- The name of the definition, once it has been read. -/
def name? : Definition → Option String
  | atKeyword => none
  | atName => none
  | atIs name => some name
  | inBody name _ => some name
  | atLabel name _ => some name

theorem label_finishes (name : String) (body : Block) :
    Reader.instruction.Finishes (atLabel name body) ⟨name, body⟩ :=
  .of_done _ fun _ text => ⟨_, step_of_label text⟩

theorem body_finishes (name : String) (sequence : Sequence) :
    ∃ body, Reader.instruction.Finishes (inBody name sequence) ⟨name, body⟩ := by
  obtain ⟨words, read, takes⟩ := sequence.comes_to_rest
  exact ⟨read.reverse, .of_takes ((carries name).takes takes)
    (.of_word _ (fun token text => ⟨[], step_of_end name read text⟩)
      (label_finishes name read.reverse))⟩

theorem is_finishes (name : String) :
    ∃ body, Reader.instruction.Finishes (atIs name) ⟨name, body⟩ := by
  obtain ⟨body, finishes⟩ := body_finishes name Sequence.start
  exact ⟨body, .of_word _ (fun token text => ⟨[], Step.expect_of_lexeme text _⟩) finishes⟩

theorem name_finishes {name : String} (definable : Definable name) :
    ∃ body, Reader.instruction.Finishes atName ⟨name, body⟩ := by
  obtain ⟨body, finishes⟩ := is_finishes name
  exact ⟨body, .of_word _ (fun token text => ⟨[], step_of_name definable text⟩) finishes⟩

/-- From every state some words lead to a definition of the name that has been read, or of any name
that may be defined if none has been read. -/
theorem finishes (definition : Definition) {name : String} (definable : Definable name) :
    ∃ body, Reader.instruction.Finishes definition ⟨definition.name?.getD name, body⟩ := by
  cases definition with
  | atKeyword =>
      obtain ⟨body, finishes⟩ := name_finishes definable
      exact ⟨body, .of_word _ (fun token text => ⟨[], step_of_instruction text⟩) finishes⟩
  | atName => exact name_finishes definable
  | atIs name => exact is_finishes name
  | inBody name sequence => exact body_finishes name sequence
  | atLabel name body => exact ⟨body, label_finishes name body⟩

end Definition

/-! ## Programs -/

namespace Draft

/-- The definition that is being read has no name yet or one that is not in the context. -/
def Open : Draft → Prop
  | inDefinition _ context _ current =>
      ∀ name, current.name? = some name → context.contains name = false
  | _ => True

theorem end_finishes (program : Program) : Reader.program.Finishes (atEnd program) program :=
  .of_done _ fun token text => ⟨_, step_of_ending ((token.isEnd_iff).mpr text)⟩

theorem label_finishes (name : String) (context : Context) (body : Block) :
    Reader.program.Finishes (atLabel name context body) ⟨name, context, body⟩ :=
  .of_word _ (fun _ text => ⟨[], Step.label_of_lexeme text _⟩) (end_finishes _)

theorem body_finishes (name : String) (context : Context) (sequence : Sequence) :
    ∃ program, Reader.program.Finishes (inBody name context sequence) program := by
  obtain ⟨words, read, takes⟩ := sequence.comes_to_rest
  exact ⟨_, .of_takes ((carries_body name context).takes takes)
    (.of_word _ (fun token text => ⟨[], step_of_end read text⟩)
      (label_finishes name context read.reverse))⟩

theorem table_finishes (name : String) (context : Context) :
    ∃ program, Reader.program.Finishes (atTable name context) program := by
  obtain ⟨program, finishes⟩ := body_finishes name context Sequence.start
  exact ⟨program, .of_word _ (fun token text => ⟨[], step_of_begin text⟩) finishes⟩

theorem is_finishes (name : String) :
    ∃ program, Reader.program.Finishes (atIs name) program := by
  obtain ⟨program, finishes⟩ := table_finishes name Context.empty
  exact ⟨program, .of_word _ (fun token text => ⟨[], Step.expect_of_lexeme text _⟩) finishes⟩

theorem name_finishes : ∃ program, Reader.program.Finishes atName program := by
  obtain ⟨program, finishes⟩ := is_finishes (longName 0)
  exact ⟨program, .of_word _ (fun token text =>
    ⟨[], step_of_name (isIdentifier_longName 0) text⟩) finishes⟩

theorem definition_finishes (name : String) (context : Context) (start : Span)
    (current : Definition)
    (unused : ∀ name, current.name? = some name → context.contains name = false) :
    ∃ program, Reader.program.Finishes (inDefinition name context start current) program := by
  obtain ⟨fresh, identifier, own, other⟩ :=
    exists_unused_name (context.entries.map Instruction.name)
  obtain ⟨body, words, final, last, takes, done⟩ := current.finishes ⟨identifier, own⟩
  have free : context.contains (current.name?.getD fresh) = false := by
    cases known : current.name? with
    | none => exact Bool.eq_false_iff.mpr fun used => other ((context.contains_iff fresh).mp used)
    | some given => exact unused given known
  obtain ⟨program, finishes⟩ := table_finishes name (context.insert ⟨_, body⟩)
  refine ⟨program, .of_takes ((carries_definition name context start).takes takes)
    (.of_word last (fun token text => ?_) finishes)⟩
  obtain ⟨events, finished⟩ := done token text
  exact ⟨events, step_of_definition finished free⟩

/-- From every open draft some words lead to a program. -/
theorem finishes {draft : Draft} (isOpen : draft.Open) :
    ∃ program, Reader.program.Finishes draft program := by
  cases draft with
  | atKeyword =>
      obtain ⟨program, finishes⟩ := name_finishes
      exact ⟨program, .of_word _ (fun token text => ⟨[], Step.expect_of_lexeme text _⟩) finishes⟩
  | atName => exact name_finishes
  | atIs name => exact is_finishes name
  | atTable name context => exact table_finishes name context
  | inDefinition name context start current =>
      exact definition_finishes name context start current isOpen
  | inBody name context sequence => exact body_finishes name context sequence
  | atLabel name context body => exact ⟨_, label_finishes name context body⟩
  | atEnd program => exact ⟨program, end_finishes program⟩

end Draft

end BLang
