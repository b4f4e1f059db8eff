import BLang.Proofs.Completions

/-!
# Errors at the first fault

A reader that refuses a token refuses it at the first place where the tokens cannot be continued any
more: those before it are the beginning of some accepted stream, and with it they are not.  A stream
that ends too early is the beginning of an accepted one.  For programs this holds if no two
definitions announce the same name, because a second definition of a name is refused only when it is
complete.
-/

namespace BLang

namespace Reader

variable {σ α : Type} {reader : Reader σ α}

def Accepts (reader : Reader σ α) (tokens : List Token) : Prop :=
  ∃ value, (reader.run tokens).result = .ok value

/-- The reader fails on the tokens, if it does, at the first token that cannot be continued.  That
token is the last one taken, or the first one left for an error that leaves its token. -/
structure FailsPrecisely (reader : Reader σ α) (tokens : List Token) : Prop where
  fault : ∀ error, (reader.run tokens).result = .error error → error ≠ .endOfStream →
    ∃ before token after, tokens = before ++ token :: after ∧
      (reader.run tokens).rest = (if error.leavesToken then token :: after else after) ∧
      (∃ more, reader.Accepts (before ++ more)) ∧
      ∀ more, ¬ reader.Accepts (before ++ token :: more)
  exhaustion : (reader.run tokens).result = .error .endOfStream ↔
    ¬ reader.Accepts tokens ∧ ∃ more, reader.Accepts (tokens ++ more)

/-! ## Continuations -/

theorem accepts_of_finishes {before : List Token} {last : σ} {value : α}
    (path : reader.Passes reader.start before last) (finishes : reader.Finishes last value) :
    ∃ more, reader.Accepts (before ++ more) := by
  obtain ⟨words, final, lastWord, takes, done⟩ := finishes
  obtain ⟨events, finished⟩ := done (Token.unplaced lastWord) rfl
  have whole := path.trans (takes _ (lexemes_unplaced words))
  refine ⟨words.map Token.unplaced ++ [Token.unplaced lastWord], value, ?_⟩
  rw [← List.append_assoc, run, (Ends.done whole finished []).runFrom_eq]

theorem not_accepts_of_refuse {before : List Token} {last : σ} {token : Token}
    {error : ParseError} {consumed : Bool} {events : List Event}
    (path : reader.Passes reader.start before last)
    (step : reader.step last token = .refuse error consumed events) (more : List Token) :
    ¬ reader.Accepts (before ++ token :: more) := by
  rintro ⟨value, accepted⟩
  rw [run, (Ends.refused path step more).runFrom_eq] at accepted
  cases accepted

theorem accepts_of_done {before : List Token} {last : σ} {token : Token} {value : α}
    {events : List Event} (path : reader.Passes reader.start before last)
    (step : reader.step last token = .done value events) (more : List Token) :
    reader.Accepts (before ++ token :: more) :=
  ⟨value, by rw [run, (Ends.done path step more).runFrom_eq]⟩

/-- A reader fails precisely on tokens if every state on the way through them has a completion. -/
theorem failsPrecisely_of_finishes {reached : σ → List Token → Prop}
    {found : α → List Token → Token → Prop} (accounts : reader.Accounts reached found)
    {tokens : List Token}
    (finishes : ∀ before last, before <+: tokens → reader.Passes reader.start before last →
      ∃ value, reader.Finishes last value) : reader.FailsPrecisely tokens := by
  have continues (before : List Token) (last : σ) (start : before <+: tokens)
      (path : reader.Passes reader.start before last) :
      ∃ more, reader.Accepts (before ++ more) := by
    obtain ⟨value, finish⟩ := finishes before last start path
    exact accepts_of_finishes path finish
  have ends := reader.runFrom_ends reader.start tokens
  generalize same : reader.runFrom reader.start tokens = outcome at ends
  have run : reader.run tokens = outcome := same
  cases ends with
  | @exhausted tokens last path =>
      have refused : ¬ reader.Accepts tokens := by
        rintro ⟨value, accepted⟩
        rw [run] at accepted
        cases accepted
      constructor
      · intro error failed notEnd
        rw [run] at failed
        exact absurd (Except.error.inj failed).symm notEnd
      · rw [run]
        exact iff_of_true rfl ⟨refused, continues tokens last (List.prefix_refl _) path⟩
  | @done before last token value events path step after =>
      constructor
      · intro error failed _
        rw [run] at failed
        cases failed
      · rw [run]
        exact iff_of_false nofun fun both => both.1 (accepts_of_done path step after)
  | @refused before last token error consumed events path step after =>
      have holds := accounts.step token (accounts.of_passes path)
      rw [step] at holds
      obtain ⟨concerns, rfl⟩ := holds
      constructor
      · intro other failed _
        rw [run] at failed
        cases Except.error.inj failed
        refine ⟨before, token, after, rfl, ?_, continues before last ⟨_, rfl⟩ path,
          not_accepts_of_refuse path step⟩
        rw [run]
        cases error.leavesToken <;> rfl
      · rw [run]
        apply iff_of_false
        · intro ended
          rw [Except.error.inj ended] at concerns
          exact concerns
        · rintro ⟨_, more, accepted⟩
          rw [List.append_assoc] at accepted
          exact not_accepts_of_refuse path step _ accepted

end Reader

/-! ## Names of definitions -/

/-- The words that follow the keyword of a definition. -/
def announcedNames : List String → List String
  | first :: second :: rest =>
      if first = Keyword.INSTRUCTION.spelling then second :: announcedNames (second :: rest)
      else announcedNames (second :: rest)
  | _ => []

theorem announcedNames_cons_sublist (word : String) (words : List String) :
    (announcedNames words).Sublist (announcedNames (word :: words)) := by
  cases words with
  | nil => exact List.nil_sublist _
  | cons next rest =>
      rw [announcedNames.eq_def (word :: next :: rest)]
      dsimp only
      split
      · exact List.sublist_cons_self _ _
      · exact List.Sublist.refl _

theorem announcedNames_append_sublist (left right : List String) :
    (announcedNames left ++ announcedNames right).Sublist (announcedNames (left ++ right)) := by
  induction left using announcedNames.induct with
  | case1 second rest ih =>
      simp only [announcedNames, List.cons_append, if_true]
      exact ih.cons_cons second
  | case2 first second rest other ih =>
      simp only [announcedNames, List.cons_append, other, if_false]
      exact ih
  | case3 left short =>
      match left with
      | [] => exact List.Sublist.refl _
      | [word] => exact announcedNames_cons_sublist word right
      | first :: second :: rest => exact absurd rfl (short first second rest)

theorem announcedNames_sublist {front words : List String} (start : front <+: words) :
    (announcedNames front).Sublist (announcedNames words) := by
  obtain ⟨back, rfl⟩ := start
  exact (List.sublist_append_left _ _).trans (announcedNames_append_sublist front back)

theorem Instruction.announces (instruction : Instruction) :
    [instruction.name].Sublist (announcedNames instruction.words) := by
  rw [instruction.words_eq, middle, List.append_assoc, List.append_assoc, List.cons_append,
    announcedNames, if_pos rfl]
  exact (List.nil_sublist _).cons_cons _

theorem announcedNames_definitions (definitions : List Instruction) :
    (definitions.map Instruction.name).Sublist
      (announcedNames (definitions.flatMap Instruction.words)) := by
  induction definitions with
  | nil => exact List.nil_sublist _
  | cons definition rest ih =>
      rw [List.map_cons, List.flatMap_cons, ← List.singleton_append]
      exact (definition.announces.append ih).trans (announcedNames_append_sublist _ _)

theorem Program.Opened.announces {name : String} {context : Context}
    {definitions : List Instruction} {words : List String}
    (opened : Program.Opened name context definitions words) :
    (definitions.map Instruction.name).Sublist (announcedNames words) := by
  rw [opened.texts]
  exact ((announcedNames_definitions definitions).trans (List.sublist_append_right _ _)).trans
    (announcedNames_append_sublist _ _)

/-- The name of the definition that is being read follows its keyword. -/
theorem Definition.Spoken.announces {definition : Definition} {words : List String}
    (spoken : definition.Spoken words) {name : String} (known : definition.name? = some name) :
    [name].Sublist (announcedNames words) := by
  have leading (rest : List String) : [name].Sublist
      (announcedNames (Keyword.INSTRUCTION.spelling :: name :: rest)) := by
    rw [announcedNames, if_pos rfl]
    exact (List.nil_sublist _).cons_cons name
  cases spoken with
  | atKeyword => cases known
  | atName => cases known
  | atIs definable =>
      cases known
      exact leading []
  | inBody definable inside =>
      cases known
      exact leading _
  | atLabel definable named =>
      cases known
      exact leading _

/-- While the announced names are different, the definition that is being read is a new one. -/
theorem Draft.Spoken.isOpen {draft : Draft} {read : List Token} (spoken : draft.Spoken read)
    (distinct : (announcedNames (lexemes read)).Nodup) : draft.Open := by
  cases spoken with
  | @inDefinition name context definitions before tail opening current opened inside =>
      intro known given
      have earlier := opened.announces
      have latest := inside.announces given
      rw [lexemes_append] at distinct
      have both := (distinct.sublist (announcedNames_append_sublist _ _)).sublist
        (earlier.append latest)
      rw [← Bool.not_eq_true, opened.lists.contains_iff]
      intro listed
      exact (List.nodup_append.mp both).2.2 known listed known (List.mem_singleton_self known) rfl
  | atKeyword => trivial
  | atName texts => trivial
  | atIs identifier texts => trivial
  | atTable opened => trivial
  | inBody opened inside texts => trivial
  | atLabel opened named texts => trivial
  | atEnd written => trivial

/-! ## The readers fail precisely -/

namespace Reader

theorem program_failsPrecisely {tokens : List Token}
    (distinct : (announcedNames (lexemes tokens)).Nodup) :
    Reader.program.FailsPrecisely tokens := by
  refine failsPrecisely_of_finishes program_accounts fun before last start path => ?_
  have front : lexemes before <+: lexemes tokens := start.map Token.lexeme
  exact Draft.finishes ((program_accounts.of_passes path).isOpen
    (distinct.sublist (announcedNames_sublist front)))

/-- The readers of statements, blocks and definitions fail on every stream at the first token that
cannot be continued, and report an early end exactly on the proper beginnings of accepted streams.
So does the reader of programs on every stream in which no two words `INSTRUCTION` are followed by
the same word. -/
theorem readers_fail_precisely (tokens : List Token) :
    Reader.statement.FailsPrecisely tokens ∧ Reader.block.FailsPrecisely tokens ∧
      Reader.instruction.FailsPrecisely tokens ∧
      ((announcedNames (lexemes tokens)).Nodup → Reader.program.FailsPrecisely tokens) := by
  refine ⟨?_, ?_, ?_, program_failsPrecisely⟩
  · exact failsPrecisely_of_finishes statement_accounts fun _ last _ _ => last.finishes
  · exact failsPrecisely_of_finishes block_accounts fun _ last _ _ => last.finishes
  · refine failsPrecisely_of_finishes instruction_accounts fun _ last _ _ => ?_
    have definable : Definable (longName 0) := ⟨isIdentifier_longName 0, isPrimitive_longName 0⟩
    obtain ⟨body, finishes⟩ := last.finishes definable
    exact ⟨_, finishes⟩

/-- A program whose second definition closes a condition like a loop. -/
def misplacedLoop : List Token :=
  ["PROGRAM", "p", "IS", "INSTRUCTION", "a", "IS", "END", "a", "INSTRUCTION", "b", "IS", "IF",
    "less", "THEN", "END", "WHILE"].map Token.unplaced

theorem misplacedLoop_fails_precisely : (announcedNames (lexemes misplacedLoop)).Nodup ∧
    (Reader.program.run misplacedLoop).result =
      .error (.unexpected "'IF'" (Token.unplaced "WHILE")) ∧
    Reader.program.FailsPrecisely misplacedLoop := by
  have distinct : (announcedNames (lexemes misplacedLoop)).Nodup := by decide
  exact ⟨distinct, rfl, (readers_fail_precisely misplacedLoop).2.2.2 distinct⟩

end Reader

end BLang
