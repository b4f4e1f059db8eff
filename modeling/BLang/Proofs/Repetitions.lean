import BLang.Proofs.Programs

/-!
# Second definitions of a name

A definition is compared with the earlier ones at its closing label, when nothing can be wrong with
it any more.  So a stream is refused for a second definition of a name exactly if it starts with the
head of a program and definitions of different names, and goes on with one more whole definition, of
one of these names.  The place of the error is the first token of that definition, and what is left
begins after its last.
-/

namespace BLang

/-! ## Refusals for a repetition -/

namespace Step

variable {σ τ α β : Type} {token : Token} {found : String → Span → Prop}

/-- If the token is refused for a second definition, its name and its place are as described. -/
def Repeats (found : String → Span → Prop) : Step σ α → Prop
  | .refuse (.duplicateInstruction name span) _ _ => found name span
  | _ => True

theorem repeats_expect {text : String} {step : Step σ α} (repeats : step.Repeats found) :
    (Step.expect text token step).Repeats found := by
  unfold Step.expect
  split
  · exact repeats
  · trivial

theorem repeats_identifier {step : Step σ α} (repeats : step.Repeats found) :
    (Step.identifier token step).Repeats found := by
  unfold Step.identifier
  split
  · exact repeats
  · trivial

theorem repeats_label {name : String} {step : Step σ α} (repeats : step.Repeats found) :
    (Step.label name token step).Repeats found := by
  unfold Step.label
  split
  · exact repeats
  · trivial

/-- The step is never a refusal for a repetition. -/
def RepeatsNothing : Step σ α → Prop :=
  Repeats fun _ _ => False

/-- An error that is passed on by another reader is no repetition there either. -/
theorem RepeatsNothing.passed {error : ParseError} {consumed : Bool} {events : List Event}
    (never : (refuse error consumed events : Step σ α).RepeatsNothing) :
    (refuse error consumed events : Step τ β).Repeats found := by
  cases error with
  | duplicateInstruction name span => exact never.elim
  | _ => trivial

end Step

/-! Statements, blocks and definitions know no earlier definitions, so only a program can find a
repetition. -/

namespace Nest

variable {around outer : List Frame} {frame : Frame} {token : Token}

theorem repeatsNothing_finish (statement : Statement) :
    (finish statement around).RepeatsNothing := by
  cases around with
  | nil => trivial
  | cons frame outer => trivial

theorem repeatsNothing_enter : (enter around token).RepeatsNothing := by
  unfold enter
  split
  · trivial
  · split
    · trivial
    · split
      · exact repeatsNothing_finish (.call token.lexeme)
      · trivial

theorem repeatsNothing_close : (close frame outer token).RepeatsNothing := by
  obtain ⟨head, read⟩ := frame
  cases head with
  | thenBranch condition =>
      simp only [close]
      split
      · trivial
      · split
        · trivial
        · trivial
  | elseBranch condition first => exact Step.repeats_expect trivial
  | loop condition => exact Step.repeats_expect trivial

theorem repeatsNothing_step (nest : Nest) (token : Token) : (nest.step token).RepeatsNothing := by
  obtain ⟨around, phase⟩ := nest
  cases phase with
  | item =>
      cases around with
      | nil => exact repeatsNothing_enter
      | cons frame outer =>
          simp only [step]
          split
          · exact repeatsNothing_close
          · exact repeatsNothing_enter
  | condition form =>
      simp only [step]
      split
      · trivial
      · trivial
  | opener form condition => exact Step.repeats_expect trivial
  | closer form statement => exact Step.repeats_expect (repeatsNothing_finish statement)

end Nest

theorem Sequence.repeatsNothing_step (sequence : Sequence) (token : Token) :
    (sequence.step token).RepeatsNothing := by
  unfold step
  split
  · trivial
  · have inner := sequence.nest.repeatsNothing_step token
    cases taken : sequence.nest.step token with
    | on next events => trivial
    | done statement events => trivial
    | refuse error consumed events =>
        rw [taken] at inner
        exact inner.passed

theorem Definition.repeatsNothing_step (definition : Definition) (token : Token) :
    (definition.step token).RepeatsNothing := by
  cases definition with
  | atKeyword => exact Step.repeats_expect trivial
  | atName =>
      refine Step.repeats_identifier ?_
      split
      · trivial
      · trivial
  | atIs name => exact Step.repeats_expect trivial
  | inBody name sequence =>
      have inner := sequence.repeatsNothing_step token
      simp only [step]
      cases taken : sequence.step token with
      | on next events => trivial
      | done block events => exact Step.repeats_expect trivial
      | refuse error consumed events =>
          rw [taken] at inner
          exact inner.passed
  | atLabel name block => exact Step.repeats_label trivial

/-! ## The words up to a repetition -/

/-- The first tokens have the words of the head of a program and of definitions with different names,
and those after them the words of one more definition, which has one of these names. -/
structure Program.Repeated (definitions : List Instruction) (second : Instruction)
    (before repetition : List Token) : Prop where
  head : ∃ name, isIdentifier name = true ∧
    lexemes before = [Keyword.PROGRAM.spelling, name, Keyword.IS.spelling] ++
      definitions.flatMap Instruction.words
  earlier : ∀ definition ∈ definitions, definition.WellNamed
  distinct : (definitions.map Instruction.name).Nodup
  named : second.WellNamed
  used : second.name ∈ definitions.map Instruction.name
  texts : lexemes repetition = second.words

/-- The tokens of a definition are `INSTRUCTION`, those inside it and its closing label. -/
theorem Instruction.exists_label {instruction : Instruction} {tokens : List Token}
    (texts : lexemes tokens = instruction.words) :
    ∃ opening inside label, tokens = opening :: (inside ++ [label]) ∧
      opening.lexeme = Keyword.INSTRUCTION.spelling ∧
      lexemes inside = instruction.middle ∧ label.lexeme = instruction.name := by
  rw [instruction.words_eq] at texts
  obtain ⟨opening, body, rfl, text, bodyTexts⟩ := lexemes_eq_cons texts
  obtain ⟨inside, last, rfl, insideTexts, lastTexts⟩ := lexemes_eq_append bodyTexts
  obtain ⟨label, after, rfl, labelText, afterTexts⟩ := lexemes_eq_cons lastTexts
  rw [lexemes_eq_nil afterTexts]
  exact ⟨opening, inside, label, rfl, text, insideTexts, labelText⟩

namespace Draft

/-- The tokens end in a repetition of the name, and the first token of that has the place. -/
def EndsInRepetition (tokens : List Token) (name : String) (span : Span) : Prop :=
  ∃ definitions second before opening body,
    tokens = before ++ opening :: body ∧
      Program.Repeated definitions second before (opening :: body) ∧
      second.name = name ∧ opening.span = span

/-- A repetition is found at the closing label of the second definition. -/
theorem repeats_step {draft : Draft} {read : List Token} (spoken : draft.Spoken read)
    (token : Token) : (draft.step token).Repeats (EndsInRepetition (read ++ [token])) := by
  cases spoken with
  | atKeyword => exact Step.repeats_expect trivial
  | atName texts => exact Step.repeats_identifier trivial
  | atIs identifier texts => exact Step.repeats_expect trivial
  | atTable opened =>
      simp only [step]
      split
      · trivial
      · exact Step.repeats_expect trivial
  | @inDefinition name context definitions before tail opening current opened inside =>
      have inner := Definition.holds_step inside token
      have never := current.repeatsNothing_step token
      simp only [step]
      cases taken : current.step token with
      | on next events => trivial
      | done second events =>
          rw [taken] at inner
          obtain ⟨texts, named⟩ := inner
          dsimp only
          split
          next used =>
            have repeated :
                Program.Repeated definitions second before (opening :: (tail ++ [token])) :=
              ⟨⟨name, opened.identifier, opened.texts⟩, opened.named, opened.lists.distinct, named,
                (opened.lists.contains_iff _).mp used, by simp [texts]⟩
            exact ⟨definitions, second, before, opening, tail ++ [token], by simp, repeated, rfl,
              rfl⟩
          next => trivial
      | refuse error consumed events =>
          rw [taken] at never
          exact never.passed
  | @inBody name context definitions words part sequence read opened inside texts =>
      have never := sequence.repeatsNothing_step token
      simp only [step]
      cases taken : sequence.step token with
      | on next events => trivial
      | done block events => exact Step.repeats_expect trivial
      | refuse error consumed events =>
          rw [taken] at never
          exact never.passed
  | atLabel opened named texts => exact Step.repeats_label trivial
  | atEnd written =>
      simp only [step]
      split
      · trivial
      · trivial

/-- The closing label of a second definition of a name is refused. -/
theorem step_of_repetition {name : String} {context : Context} {start : Span}
    {current : Definition} {token : Token} {second : Instruction} {events : List Event}
    (done : current.step token = .done second events)
    (used : context.contains second.name = true) :
    step (inDefinition name context start current) token =
      .refuse (.duplicateInstruction second.name start) true events := by
  simp only [step, done, used, if_true]

end Draft

namespace Reader

/-- A program is refused for a repetition exactly after the tokens that end in one. -/
theorem program_run_repetition_iff (tokens rest : List Token) (name : String) (span : Span) :
    Reader.program.run tokens = ⟨.error (.duplicateInstruction name span), rest⟩ ↔
      ∃ read, tokens = read ++ rest ∧ Draft.EndsInRepetition read name span := by
  constructor
  · intro run
    have notEnd : ParseError.duplicateInstruction name span ≠ .endOfStream := nofun
    obtain ⟨before, last, token, after, events, rfl, rfl, spoken, refused⟩ :=
      program_accounts.of_error notEnd run
    have repeats := Draft.repeats_step spoken token
    rw [show last.step token = _ from refused] at repeats
    exact ⟨before ++ [token], List.append_cons before token rest, repeats⟩
  · rintro ⟨read, rfl, definitions, second, before, opening, body, rfl, repeated, rfl, rfl⟩
    obtain ⟨title, identifier, titleTexts⟩ := repeated.head
    obtain ⟨_, inside, label, same, text, insideTexts, labelText⟩ :=
      Instruction.exists_label repeated.texts
    cases same
    obtain ⟨full, lists, table⟩ := Draft.takes_definitions definitions .empty repeated.earlier
      repeated.distinct
    have head := (Draft.takes_head identifier).append table before titleTexts
    have definition := (Draft.carries_definition title full opening.span).takes
      (second.takes_middle repeated.named) inside insideTexts
    have path := head.trans (.on (Draft.step_of_instruction text) definition)
    have closed : Reader.program.step (.inDefinition title full opening.span
        (.atLabel second.name second.body)) label =
          .refuse (.duplicateInstruction second.name opening.span) true _ :=
      Draft.step_of_repetition (Definition.step_of_label labelText)
        ((lists.contains_iff second.name).mpr repeated.used)
    have run := (Ends.refused path closed rest).runFrom_eq
    rw [List.append_assoc, List.cons_append, List.append_assoc, List.singleton_append]
    rwa [List.append_assoc, List.cons_append] at run

/-! ## Definitions read one after the other -/

/-- The values are read off the stream one after the other, and the rest is left. -/
inductive ReadsEach {σ α : Type} (reader : Reader σ α) :
    List Token → List α → List Token → Prop where
  | nil (tokens : List Token) : ReadsEach reader tokens [] tokens
  | cons {tokens between rest : List Token} {value : α} {values : List α}
      (first : reader.run tokens = ⟨.ok value, between⟩)
      (later : ReadsEach reader between values rest) :
      ReadsEach reader tokens (value :: values) rest

theorem instruction_readsEach_iff (definitions : List Instruction) (tokens rest : List Token) :
    Reader.instruction.ReadsEach tokens definitions rest ↔
      (∀ definition ∈ definitions, definition.WellNamed) ∧
        ∃ read, tokens = read ++ rest ∧ lexemes read = definitions.flatMap Instruction.words := by
  constructor
  · intro reads
    induction reads with
    | nil tokens => exact ⟨List.forall_mem_nil _, [], rfl, rfl⟩
    | cons first later ih =>
        obtain ⟨named, read, rfl, texts⟩ := (instruction_run_iff _ _ _).mp first
        obtain ⟨othersNamed, others, rfl, othersTexts⟩ := ih
        refine ⟨List.forall_mem_cons.mpr ⟨named, othersNamed⟩, read ++ others, ?_, ?_⟩
        · rw [List.append_assoc]
        · rw [lexemes_append, texts, othersTexts, List.flatMap_cons]
  · rintro ⟨named, read, rfl, texts⟩
    induction definitions generalizing read with
    | nil =>
        rw [lexemes_eq_nil texts]
        exact .nil rest
    | cons definition others ih =>
        obtain ⟨firstNamed, othersNamed⟩ := List.forall_mem_cons.mp named
        obtain ⟨front, back, rfl, frontTexts, backTexts⟩ := lexemes_eq_append texts
        rw [List.append_assoc]
        exact .cons ((instruction_run_iff _ _ _).mpr ⟨firstNamed, front, rfl, frontTexts⟩)
          (ih othersNamed back backTexts)

/-- A stream is refused for a second definition of a name exactly if it starts with `PROGRAM`, an
identifier and `IS`, definitions with different names are read off it one after the other, and after
them one more, whose name is one of theirs.  The place of the error is the `INSTRUCTION` of that last
definition, and just the tokens after its closing label are left.  The name is not primitive. -/
theorem repetition_refused_iff (tokens rest : List Token) (name : String) (span : Span) :
    (Reader.program.run tokens = ⟨.error (.duplicateInstruction name span), rest⟩ ↔
      ∃ (first title third opening label : Token) (table inside : List Token)
        (definitions : List Instruction) (second : Instruction),
        tokens = first :: title :: third :: table ∧
        first.lexeme = Keyword.PROGRAM.spelling ∧ isIdentifier title.lexeme = true ∧
        third.lexeme = Keyword.IS.spelling ∧
        Reader.instruction.ReadsEach table definitions (opening :: (inside ++ label :: rest)) ∧
        (definitions.map Instruction.name).Nodup ∧
        Reader.instruction.run (opening :: (inside ++ label :: rest)) = ⟨.ok second, rest⟩ ∧
        second.name = name ∧ name ∈ definitions.map Instruction.name ∧
        opening.lexeme = Keyword.INSTRUCTION.spelling ∧ opening.span = span ∧
        label.lexeme = name) ∧
    (Reader.program.run tokens = ⟨.error (.duplicateInstruction name span), rest⟩ →
      isPrimitive name = false) := by
  rw [program_run_repetition_iff]
  refine ⟨⟨?_, ?_⟩, ?_⟩
  · rintro ⟨read, rfl, definitions, second, before, opening, body, rfl, repeated, rfl, rfl⟩
    obtain ⟨_, identifier, headTexts⟩ := repeated.head
    obtain ⟨first, afterFirst, rfl, firstText, afterFirstTexts⟩ := lexemes_eq_cons headTexts
    obtain ⟨title, afterTitle, rfl, rfl, afterTitleTexts⟩ := lexemes_eq_cons afterFirstTexts
    obtain ⟨third, table, rfl, thirdText, tableTexts⟩ := lexemes_eq_cons afterTitleTexts
    obtain ⟨_, inside, label, same, text, _, labelText⟩ :=
      Instruction.exists_label repeated.texts
    cases same
    refine ⟨first, title, third, opening, label, table ++ opening :: (inside ++ label :: rest),
      inside, definitions, second, by simp, firstText, identifier, thirdText, ?_,
      repeated.distinct, ?_, rfl, repeated.used, text, rfl, labelText⟩
    · exact (instruction_readsEach_iff _ _ _).mpr ⟨repeated.earlier, table, rfl, tableTexts⟩
    · exact (instruction_run_iff _ _ _).mpr
        ⟨repeated.named, opening :: (inside ++ [label]), by simp, repeated.texts⟩
  · rintro ⟨first, title, third, opening, label, table, inside, definitions, second, rfl, firstText,
      identifier, thirdText, reads, distinct, run, rfl, used, text, rfl, labelText⟩
    obtain ⟨earlier, read, rfl, texts⟩ := (instruction_readsEach_iff _ _ _).mp reads
    obtain ⟨named, repetition, same, repetitionTexts⟩ := (instruction_run_iff _ _ _).mp run
    have whole : repetition = opening :: (inside ++ [label]) := by
      have split : repetition ++ rest = opening :: (inside ++ [label]) ++ rest := by simp [← same]
      exact List.append_cancel_right split
    refine ⟨first :: title :: third :: read ++ repetition, by simp [whole], definitions, second,
      first :: title :: third :: read, opening, inside ++ [label], by rw [whole], ?_, rfl, rfl⟩
    refine ⟨⟨title.lexeme, identifier, ?_⟩, earlier, distinct, named, used, whole ▸ repetitionTexts⟩
    simp [firstText, thirdText, texts]
  · rintro ⟨read, rfl, definitions, second, before, opening, body, rfl, repeated, rfl, rfl⟩
    exact repeated.named.2.1

/-- A program in which `a` is defined, then `b`, and then `a` again, up to `BEGIN`. -/
def definedTwice : List Token :=
  ["PROGRAM", "p", "IS", "INSTRUCTION", "a", "IS", "END", "a", "INSTRUCTION", "b", "IS", "a", "END",
    "b", "INSTRUCTION", "a", "IS", "IF", "less", "THEN", "move", "END", "IF", "END", "a",
    "BEGIN"].mapIdx fun index word => ⟨word, Span.point index⟩

theorem definedTwice_refused :
    Reader.program.run definedTwice =
        ⟨.error (.duplicateInstruction "a" ⟨14, 14⟩), [⟨"BEGIN", ⟨25, 25⟩⟩]⟩ ∧
      isPrimitive "a" = false := by
  have refused : Reader.program.run definedTwice =
      ⟨.error (.duplicateInstruction "a" ⟨14, 14⟩), [⟨"BEGIN", ⟨25, 25⟩⟩]⟩ := by rfl
  exact ⟨refused, (repetition_refused_iff definedTwice _ "a" _).2 refused⟩

end Reader

end BLang
