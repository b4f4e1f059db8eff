import BLang.Grammar
import BLang.Reader.Program
import BLang.Proofs.Contexts
import BLang.Proofs.Definitions

/-!
# The grammar of programs

Reading a program succeeds on exactly the streams that start with the words of its head, of its
definitions in some order and of its body, and go on with the end marker.  The state of the reader
holds the definitions in the order of their names, so the order in which they were read is not a
function of the state: it is given by a list that the context of the state lists.
-/

namespace BLang

namespace Program

/-- The words of the head of a program and of the definitions in its context. -/
structure Opened (name : String) (context : Context) (definitions : List Instruction)
    (words : List String) : Prop where
  identifier : isIdentifier name = true
  named : ∀ definition ∈ definitions, definition.WellNamed
  lists : context.Lists definitions
  texts : words = [Keyword.PROGRAM.spelling, name, Keyword.IS.spelling] ++
    definitions.flatMap Instruction.words

/-- The words of a whole program whose definitions are written in the order of the list. -/
structure Written (program : Program) (definitions : List Instruction)
    (words : List String) : Prop where
  identifier : isIdentifier program.name = true
  named : ∀ definition ∈ definitions, definition.WellNamed
  lists : program.context.Lists definitions
  body : Block.WellNamed program.body
  texts : words = wordsWith program.name definitions program.body

theorem Opened.add {name : String} {context : Context} {definitions : List Instruction}
    {words : List String} (opened : Opened name context definitions words)
    {instruction : Instruction} (named : instruction.WellNamed)
    (unused : context.contains instruction.name = false) :
    Opened name (context.insert instruction) (definitions ++ [instruction])
      (words ++ instruction.words) where
  identifier := opened.identifier
  named := by
    intro definition member
    rcases List.mem_append.mp member with earlier | last
    · exact opened.named definition earlier
    · rw [List.mem_singleton.mp last]
      exact named
  lists := opened.lists.insert unused
  texts := by simp [opened.texts]

theorem wellNamed_of_written {program : Program} {definitions : List Instruction}
    {words : List String} (written : program.Written definitions words) : program.WellNamed :=
  ⟨written.identifier,
    fun entry member => written.named entry ((written.lists.entries entry).mp member),
    written.body⟩

/-- A well-named program is written with its definitions in the order of their names. -/
theorem WellNamed.written {program : Program} (named : program.WellNamed) :
    program.Written program.context.entries program.words :=
  ⟨named.1, named.2.1, .self program.context, named.2.2, rfl⟩

end Program

open Program (Opened Written)

namespace Draft

/-- The tokens bring the reader to the draft.  Within a definition they fall into those before its
`INSTRUCTION`, that token, whose place the draft holds, and those of the definition so far. -/
inductive Spoken : Draft → List Token → Prop where
  | atKeyword : Spoken atKeyword []
  | atName {read : List Token} (texts : lexemes read = [Keyword.PROGRAM.spelling]) :
      Spoken atName read
  | atIs {name : String} {read : List Token} (identifier : isIdentifier name = true)
      (texts : lexemes read = [Keyword.PROGRAM.spelling, name]) : Spoken (atIs name) read
  | atTable {name : String} {context : Context} {definitions : List Instruction}
      {read : List Token} (opened : Opened name context definitions (lexemes read)) :
      Spoken (atTable name context) read
  | inDefinition {name : String} {context : Context} {definitions : List Instruction}
      {before tail : List Token} {opening : Token} {current : Definition}
      (opened : Opened name context definitions (lexemes before))
      (spoken : current.Spoken (lexemes (opening :: tail))) :
      Spoken (inDefinition name context opening.span current) (before ++ opening :: tail)
  | inBody {name : String} {context : Context} {definitions : List Instruction}
      {words part : List String} {sequence : Sequence} {read : List Token}
      (opened : Opened name context definitions words) (spoken : sequence.Spoken part)
      (texts : lexemes read = words ++ Keyword.BEGIN.spelling :: part) :
      Spoken (inBody name context sequence) read
  | atLabel {name : String} {context : Context} {definitions : List Instruction}
      {words : List String} {body : Block} {read : List Token}
      (opened : Opened name context definitions words) (named : Block.WellNamed body)
      (texts : lexemes read =
        words ++ Keyword.BEGIN.spelling :: Block.words body ++ [Keyword.END.spelling]) :
      Spoken (atLabel name context body) read
  | atEnd {program : Program} {definitions : List Instruction} {read : List Token}
      (written : program.Written definitions (lexemes read)) : Spoken (atEnd program) read

/-- The last word of a definition is its name. -/
theorem lexeme_of_done {instruction : Instruction} {words : List String} {text : String}
    (texts : instruction.words = words ++ [text]) : text = instruction.name := by
  rw [instruction.words_eq, ← List.cons_append] at texts
  have last := (List.append_inj' texts rfl).2
  exact (List.cons.inj last).1.symm

theorem holds_inDefinition {name : String} {context : Context} {definitions : List Instruction}
    {before tail : List Token} {opening : Token} {current : Definition}
    (opened : Opened name context definitions (lexemes before))
    (spoken : current.Spoken (lexemes (opening :: tail))) (token : Token) :
    ((inDefinition name context opening.span current).step token).Holds token
      (fun next => next.Spoken (before ++ opening :: tail ++ [token])) (fun _ => False) := by
  have inner := Definition.holds_step spoken token
  have read : before ++ opening :: tail ++ [token] = before ++ opening :: (tail ++ [token]) := by
    simp
  rw [read]
  simp only [step]
  cases taken : current.step token with
  | on next events =>
      rw [taken] at inner
      refine .inDefinition opened ?_
      rw [← List.cons_append, lexemes_append]
      exact inner
  | done instruction events =>
      rw [taken] at inner
      obtain ⟨texts, named⟩ := inner
      dsimp only
      split
      next => exact ⟨lexeme_of_done texts, rfl⟩
      next unused =>
        have added := opened.add named (Bool.eq_false_iff.mpr unused)
        have read : lexemes before ++ instruction.words =
            lexemes (before ++ opening :: (tail ++ [token])) := by
          simp [texts]
        exact .atTable (read ▸ added)
  | refuse error consumed events =>
      rw [taken] at inner
      exact inner

theorem holds_inBody {name : String} {context : Context} {definitions : List Instruction}
    {words part : List String} {sequence : Sequence} {read : List Token}
    (opened : Opened name context definitions words) (spoken : sequence.Spoken part)
    (texts : lexemes read = words ++ Keyword.BEGIN.spelling :: part) (token : Token) :
    ((inBody name context sequence).step token).Holds token
      (fun next => next.Spoken (read ++ [token])) (fun _ => False) := by
  have inner := Sequence.holds_step spoken token
  simp only [step]
  cases taken : sequence.step token with
  | on next events =>
      rw [taken] at inner
      exact .inBody opened inner (by simp [texts])
  | done block events =>
      rw [taken] at inner
      obtain ⟨blockTexts, named, _⟩ := inner
      refine Step.holds_expect fun same => ?_
      exact .atLabel opened named (by simp [texts, same, blockTexts])
  | refuse error consumed events =>
      rw [taken] at inner
      exact inner

/-- A step adds its token; the end marker is not one of the tokens of the program. -/
theorem holds_step {draft : Draft} {read : List Token} (spoken : draft.Spoken read)
    (token : Token) :
    (draft.step token).Holds token (fun next => next.Spoken (read ++ [token]))
      (fun program => (∃ definitions, program.Written definitions (lexemes read)) ∧
        token.isEnd = true) := by
  cases spoken with
  | atKeyword => exact Step.holds_expect fun same => .atName (by simp [same])
  | atName texts =>
      exact Step.holds_identifier fun identifier => .atIs identifier (by simp [texts])
  | @atIs name read identifier texts =>
      refine Step.holds_expect fun same => ?_
      have opened : Opened name Context.empty [] (lexemes (read ++ [token])) :=
        ⟨identifier, by simp, .empty, by simp [texts, same]⟩
      exact .atTable opened
  | atTable opened =>
      simp only [step]
      split
      next same =>
        have text := (token.isKeyword_iff _).mp same
        have spoken : Definition.Spoken .atName (lexemes [token]) := by
          rw [lexemes_cons, text]
          exact .atName
        exact .inDefinition opened spoken
      next =>
        refine Step.holds_expect fun same => .inBody opened Sequence.spoken_start ?_
        simp [same]
  | inDefinition opened inside =>
      exact (holds_inDefinition opened inside token).imp fun _ never => never.elim
  | inBody opened inside texts =>
      exact (holds_inBody opened inside texts token).imp fun _ never => never.elim
  | @atLabel name context definitions words body read opened named texts =>
      refine Step.holds_label fun same => ?_
      have written : Written ⟨name, context, body⟩ definitions (lexemes (read ++ [token])) :=
        ⟨opened.identifier, opened.named, opened.lists, named, by
          simp [texts, opened.texts, same, Program.wordsWith]⟩
      exact .atEnd written
  | atEnd written =>
      simp only [step]
      split
      next ends => exact ⟨⟨_, written⟩, ends⟩
      next => exact ⟨rfl, rfl⟩

end Draft

/-- A program is made up of the tokens with its words, before the end marker. -/
theorem Reader.program_accounts :
    Reader.program.Accounts Draft.Spoken
      (fun program read token => (∃ definitions, program.Written definitions (lexemes read)) ∧
        token.isEnd = true) where
  start := .atKeyword
  step token spoken := Draft.holds_step spoken token

/-! ## The words of a program are taken -/

namespace Draft

variable {name : String} {context : Context}

theorem carries_definition (name : String) (context : Context) (start : Span) :
    Reader.instruction.Carries Reader.program (inDefinition name context start) := by
  intro state next token events goes
  have taken : state.step token = .on next events := goes
  exact ⟨events, by simp only [Reader.program, step, taken]⟩

theorem carries_body (name : String) (context : Context) :
    Reader.block.Carries Reader.program (inBody name context) := by
  intro state next token events goes
  have taken : state.step token = .on next events := goes
  exact ⟨events, by simp only [Reader.program, step, taken]⟩

theorem step_of_instruction {token : Token}
    (text : token.lexeme = Keyword.INSTRUCTION.spelling) :
    step (atTable name context) token =
      .on (inDefinition name context token.span Definition.atName) [] := by
  have opens : token.isKeyword .INSTRUCTION = true := (token.isKeyword_iff _).mpr text
  simp only [step, opens, if_true]

theorem step_of_begin {token : Token} (text : token.lexeme = Keyword.BEGIN.spelling) :
    step (atTable name context) token = .on (inBody name context Sequence.start) [] := by
  have other : token.isKeyword .INSTRUCTION = false :=
    Token.isKeyword_of_lexeme text .INSTRUCTION
  simp only [step, other, Bool.false_eq_true, if_false, Step.expect_of_lexeme text]

/-- The closing label of a definition of a new name leads back to the table. -/
theorem step_of_definition {start : Span} {current : Definition} {token : Token}
    {instruction : Instruction} {events : List Event}
    (done : current.step token = .done instruction events)
    (unused : context.contains instruction.name = false) :
    step (inDefinition name context start current) token =
      .on (atTable name (context.insert instruction)) events := by
  simp only [step, done, unused, Bool.false_eq_true, if_false]

theorem step_of_end (read : List Statement) {token : Token}
    (text : token.lexeme = Keyword.END.spelling) :
    step (inBody name context ⟨read, Nest.start⟩) token =
      .on (atLabel name context read.reverse) [] := by
  have closes : token.closesBlock = true := Token.closesBlock_of_keyword text
  simp only [step, Sequence.step_of_closes read closes, Step.expect_of_lexeme text]

theorem takes_definition (instruction : Instruction) (named : instruction.WellNamed)
    (unused : context.contains instruction.name = false) :
    Reader.program.Takes (atTable name context) instruction.words
      (atTable name (context.insert instruction)) := by
  rw [instruction.words_eq]
  intro tokens texts
  -- the state after `INSTRUCTION` holds the place of that very token
  obtain ⟨opening, rest, rfl, text, restTexts⟩ := lexemes_eq_cons texts
  have inside := (carries_definition name context opening.span).takes
    (instruction.takes_middle named)
  have whole := inside.append (.cons (atTable name (context.insert instruction))
    (fun token label => ⟨_, step_of_definition (Definition.step_of_label label) unused⟩)
    (.nil _))
  exact .on (step_of_instruction text) (whole rest restTexts)

/-- Definitions of different new names lead from the table to the table that lists them as well. -/
theorem takes_definitions {listed : List Instruction} (definitions : List Instruction)
    (lists : context.Lists listed) (named : ∀ definition ∈ definitions, definition.WellNamed)
    (distinct : ((listed ++ definitions).map Instruction.name).Nodup) :
    ∃ full : Context, full.Lists (listed ++ definitions) ∧
      Reader.program.Takes (atTable name context) (definitions.flatMap Instruction.words)
        (atTable name full) := by
  induction definitions generalizing context listed with
  | nil => exact ⟨context, by rwa [List.append_nil], .nil _⟩
  | cons definition rest ih =>
      obtain ⟨firstNamed, restNamed⟩ := List.forall_mem_cons.mp named
      have unused : context.contains definition.name = false := by
        rw [← Bool.not_eq_true, lists.contains_iff]
        intro used
        rw [List.map_append] at distinct
        exact (List.nodup_append.mp distinct).2.2 _ used _ List.mem_cons_self rfl
      rw [List.append_cons] at distinct ⊢
      obtain ⟨full, fullLists, takes⟩ := ih (lists.insert unused) restNamed distinct
      exact ⟨full, fullLists, (takes_definition definition firstNamed unused).append takes⟩

theorem step_of_name {token : Token} (identifier : isIdentifier name = true)
    (text : token.lexeme = name) : step atName token = .on (atIs name) [] := by
  subst text
  exact Step.identifier_of_isIdentifier identifier _

theorem takes_head (identifier : isIdentifier name = true) :
    Reader.program.Takes atKeyword [Keyword.PROGRAM.spelling, name, Keyword.IS.spelling]
      (atTable name Context.empty) := by
  refine .cons atName ?_ (.cons (atIs name) ?_ (.cons _ ?_ (.nil _)))
  · intro token text
    exact ⟨[], Step.expect_of_lexeme text _⟩
  · intro token text
    exact ⟨[], step_of_name identifier text⟩
  · intro token text
    exact ⟨[], Step.expect_of_lexeme text _⟩

theorem takes_body (body : Block) (named : Block.WellNamed body) :
    Reader.program.Takes (atTable name context) (Keyword.BEGIN.spelling :: Block.words body)
      (inBody name context ⟨body.reverse, Nest.start⟩) := by
  have inside := (carries_body name context).takes (Block.takes_between body named [])
  rw [List.append_nil] at inside
  exact .cons _ (fun token text => ⟨[], step_of_begin text⟩) inside

theorem takes_tail (body : Block) :
    Reader.program.Takes (inBody name context ⟨body.reverse, Nest.start⟩)
      [Keyword.END.spelling, name] (atEnd ⟨name, context, body⟩) := by
  refine .cons (atLabel name context body) ?_ (.cons _ ?_ (.nil _))
  · intro token text
    refine ⟨[], (step_of_end body.reverse text).trans ?_⟩
    rw [List.reverse_reverse]
  · intro token text
    exact ⟨[], Step.label_of_lexeme text _⟩

/-- The words of a program lead to its end, whatever the order of its definitions. -/
theorem takes_program {program : Program} {definitions : List Instruction} {words : List String}
    (written : program.Written definitions words) :
    Reader.program.Takes atKeyword words (atEnd program) := by
  obtain ⟨full, fullLists, table⟩ := takes_definitions definitions .empty written.named
    written.lists.distinct
  have same : full = program.context := fullLists.unique written.lists
  subst same
  rw [written.texts]
  exact (((takes_head written.identifier).append table).append
    (takes_body program.body written.body)).append (takes_tail program.body)

theorem step_of_ending {program : Program} {token : Token} (ends : token.isEnd = true) :
    step (atEnd program) token =
      .done program [.parsedProgram program.name program.context.size] :=
  if_pos ends

end Draft

/-! ## The grammar -/

namespace Reader

theorem program_run_iff (tokens rest : List Token) (program : Program) :
    Reader.program.run tokens = ⟨.ok program, rest⟩ ↔
      ∃ definitions read stop after, tokens = read ++ rest ∧
        program.Written definitions (lexemes read) ∧ rest = stop :: after ∧
        stop.isEnd = true := by
  constructor
  · intro run
    obtain ⟨before, token, after, rfl, rfl, ⟨definitions, written⟩, ends⟩ :=
      program_accounts.of_ok run
    exact ⟨definitions, before, token, after, rfl, written, rfl, ends⟩
  · rintro ⟨definitions, read, stop, after, rfl, written, rfl, ends⟩
    have path := Draft.takes_program written read rfl
    exact (Ends.done path (Draft.step_of_ending ends) after).runFrom_eq

/-- A definition is read off exactly the streams that start with its words, if its name may be
defined and the calls of its body are identifiers.  A program is read off exactly the streams that
start with the words of its head, of definitions with different names in any order and of its body,
and go on with the end marker; its context then maps each defined name to its body and no other
name to anything. -/
theorem instruction_and_program_grammar (tokens rest : List Token) :
    (∀ instruction, Reader.instruction.run tokens = ⟨.ok instruction, rest⟩ ↔
      isIdentifier instruction.name = true ∧ isPrimitive instruction.name = false ∧
        Block.WellNamed instruction.body ∧
        ∃ read, tokens = read ++ rest ∧ lexemes read = instruction.words) ∧
    (∀ program, Reader.program.run tokens = ⟨.ok program, rest⟩ ↔
      ∃ definitions : List Instruction,
        (∀ definition ∈ definitions, definition.WellNamed) ∧
        (definitions.map Instruction.name).Nodup ∧
        (∃ read, tokens = read ++ rest ∧
          lexemes read = Program.wordsWith program.name definitions program.body) ∧
        isIdentifier program.name = true ∧ Block.WellNamed program.body ∧
        (∃ stop after, rest = stop :: after ∧ stop.lexeme = endMarker) ∧
        ∀ name body, program.context.get? name = some body ↔
          (⟨name, body⟩ : Instruction) ∈ definitions) := by
  constructor
  · intro instruction
    rw [instruction_run_iff, Instruction.WellNamed, and_assoc, and_assoc]
  · intro program
    rw [program_run_iff]
    constructor
    · rintro ⟨definitions, read, stop, after, rfl, written, rfl, ends⟩
      exact ⟨definitions, written.named, written.lists.distinct, ⟨read, rfl, written.texts⟩,
        written.identifier, written.body, ⟨stop, after, rfl, (stop.isEnd_iff).mp ends⟩,
        written.lists.get?_eq_some_iff⟩
    · rintro ⟨definitions, named, distinct, ⟨read, rfl, texts⟩, identifier, body,
        ⟨stop, after, rfl, ends⟩, found⟩
      exact ⟨definitions, read, stop, after, rfl,
        ⟨identifier, named, Context.lists_of_get? distinct found, body, texts⟩, rfl,
        (stop.isEnd_iff).mpr ends⟩

end Reader

end BLang
