import BLang.Reader.Block
import BLang.Proofs.Statements

/-!
# The grammar of statements and blocks

Reading a statement succeeds on exactly the streams that start with the words of a well-named
statement.  Reading a block succeeds on those that start with the words of a well-named block and go
on with a token that closes a block, which is left.  Since the words determine the outcome, no two
statements and no two blocks have the same words.
-/

namespace BLang

namespace Sequence

/-- The words bring the reader to the sequence, and all calls in it are well named. -/
def Spoken (sequence : Sequence) (words : List String) : Prop :=
  Block.WellNamed sequence.read.reverse ∧
    ∃ part, sequence.nest.Spoken part ∧ words = Block.words sequence.read.reverse ++ part

theorem spoken_rest (read : List Statement) (named : Block.WellNamed read.reverse) :
    Spoken ⟨read, Nest.start⟩ (Block.words read.reverse) :=
  ⟨named, [], (Nest.spoken_start_iff []).mpr rfl, (List.append_nil _).symm⟩

theorem spoken_start : start.Spoken [] :=
  spoken_rest [] trivial

/-- A token that closes a block is refused by the reader of statements, so the test for it takes
nothing away from that reader. -/
theorem nest_step_of_closes {nest : Nest} {token : Token} (rest : nest = Nest.start)
    (closes : token.closesBlock = true) :
    nest.step token =
      .refuse (.unexpected "identifier, 'IF' or 'WHILE'" token) false [] := by
  obtain ⟨loop, conditional, call⟩ := Token.closesBlock_starts_nothing closes
  subst rest
  simp [Nest.start, Nest.step, Nest.enter, loop, conditional, call]

/-- Unless the block is at its end, the reader of statements makes the step. -/
theorem step_of_nest (sequence : Sequence) (token : Token)
    (goes : ∀ error consumed events,
      sequence.nest.step token ≠ .refuse error consumed events) :
    (sequence.atRest && token.closesBlock) = false := by
  rw [Bool.and_eq_false_iff]
  by_cases closes : token.closesBlock = true
  · refine Or.inl (decide_eq_false fun rest => ?_)
    exact goes _ _ _ (nest_step_of_closes rest closes)
  · exact Or.inr (Bool.eq_false_iff.mpr closes)

theorem step_of_nest_on {read : List Statement} {nest next : Nest} {token : Token}
    {events : List Event} (goes : nest.step token = .on next events) :
    step ⟨read, nest⟩ token = .on ⟨read, next⟩ events := by
  have inside := step_of_nest ⟨read, nest⟩ token (by simp [goes])
  simp [step, inside, goes]

theorem step_of_nest_done {read : List Statement} {nest : Nest} {token : Token}
    {statement : Statement} {events : List Event}
    (done : nest.step token = .done statement events) :
    ∃ events, step ⟨read, nest⟩ token = .on ⟨statement :: read, Nest.start⟩ events := by
  have inside := step_of_nest ⟨read, nest⟩ token (by simp [done])
  exact ⟨events ++ [.parsedStatement read], by simp [step, inside, done]⟩

theorem step_of_closes (read : List Statement) {token : Token}
    (closes : token.closesBlock = true) :
    step ⟨read, Nest.start⟩ token = .done read.reverse [] := by
  simp [step, atRest, closes]

/-- A step adds its token to the words; the token that closes the block is not one of them. -/
theorem holds_step {sequence : Sequence} {words : List String} (spoken : sequence.Spoken words)
    (token : Token) :
    (sequence.step token).Holds token (fun next => next.Spoken (words ++ [token.lexeme]))
      (fun block => Block.words block = words ∧ Block.WellNamed block ∧
        token.closesBlock = true) := by
  obtain ⟨read, nest⟩ := sequence
  obtain ⟨named, part, spokenPart, rfl⟩ := spoken
  unfold step
  split
  next ended =>
    obtain ⟨rest, closes⟩ := (Bool.and_eq_true _ _).mp ended
    have start : nest = Nest.start := of_decide_eq_true rest
    subst start
    rw [(Nest.spoken_start_iff part).mp spokenPart, List.append_nil]
    exact ⟨rfl, named, closes⟩
  next =>
    have inner := Nest.holds_step spokenPart token
    cases taken : nest.step token with
    | on next events =>
        rw [taken] at inner
        exact ⟨named, _, inner, List.append_assoc _ _ _⟩
    | done statement events =>
        rw [taken] at inner
        have whole : Block.WellNamed (statement :: read).reverse := by
          rw [List.reverse_cons, Block.wellNamed_append]
          exact ⟨named, inner.2, trivial⟩
        have texts : Block.words read.reverse ++ part ++ [token.lexeme] =
            Block.words (statement :: read).reverse := by
          rw [List.reverse_cons, Block.words_append, List.append_assoc, ← inner.1, Block.words,
            Block.words, List.append_nil]
        exact texts ▸ spoken_rest (statement :: read) whole
    | refuse error consumed events =>
        rw [taken] at inner
        exact inner

end Sequence

/-- A block is made up of the tokens with its words, before one that closes it. -/
theorem Reader.block_accounts :
    Reader.block.Accounts (fun sequence read => sequence.Spoken (lexemes read))
      (fun block read token => Block.words block = lexemes read ∧ Block.WellNamed block ∧
        token.closesBlock = true) where
  start := Sequence.spoken_start
  step token spoken := by
    simp only [lexemes_append, lexemes_cons, lexemes_nil]
    exact Sequence.holds_step spoken token

theorem Sequence.carries (read : List Statement) :
    Reader.statement.Carries Reader.block (Sequence.mk read) :=
  fun _ _ _ _ goes => ⟨_, Sequence.step_of_nest_on goes⟩

/-- The words of a well-named statement lead from one place between statements to the next. -/
theorem Statement.takes_between (statement : Statement) (named : statement.WellNamed)
    (read : List Statement) :
    Reader.block.Takes ⟨read, Nest.start⟩ statement.words ⟨statement :: read, Nest.start⟩ := by
  obtain ⟨front, last, final, texts, takes, finishes⟩ := statement.completes named []
  rw [texts]
  refine ((Sequence.carries read).takes takes).append (.cons _ (fun token text => ?_) (.nil _))
  exact Sequence.step_of_nest_done (finishes token text)

theorem Block.takes_between (block : Block) (named : Block.WellNamed block)
    (read : List Statement) :
    Reader.block.Takes ⟨read, Nest.start⟩ (Block.words block)
      ⟨block.reverse ++ read, Nest.start⟩ := by
  induction block generalizing read with
  | nil => exact .nil _
  | cons statement rest ih =>
      rw [List.reverse_cons, List.append_assoc]
      exact (statement.takes_between named.1 read).append (ih named.2 (statement :: read))

/-! ## The grammar -/

namespace Reader

theorem statement_run_iff (tokens rest : List Token) (statement : Statement) :
    Reader.statement.run tokens = ⟨.ok statement, rest⟩ ↔
      statement.WellNamed ∧
        ∃ read, tokens = read ++ rest ∧ lexemes read = statement.words := by
  constructor
  · intro run
    obtain ⟨before, token, after, rfl, rfl, texts, named⟩ := statement_accounts.of_ok run
    exact ⟨named, before ++ [token], by simp, texts.symm⟩
  · rintro ⟨named, read, rfl, texts⟩
    obtain ⟨front, last, final, words, takes, finishes⟩ := statement.completes named []
    obtain ⟨_, _, _, run⟩ := run_of_takes takes
      (fun token text => ⟨[], finishes token text⟩) (texts.trans words) rest
    exact run

theorem block_run_iff (tokens rest : List Token) (block : Block) :
    Reader.block.run tokens = ⟨.ok block, rest⟩ ↔
      Block.WellNamed block ∧
        (∃ read, tokens = read ++ rest ∧ lexemes read = Block.words block) ∧
        ∃ stop after, rest = stop :: after ∧ stop.closesBlock = true := by
  constructor
  · intro run
    obtain ⟨before, token, after, rfl, rfl, texts, named, closes⟩ := block_accounts.of_ok run
    exact ⟨named, ⟨before, rfl, texts.symm⟩, token, after, rfl, closes⟩
  · rintro ⟨named, ⟨read, rfl, texts⟩, stop, after, rfl, closes⟩
    have path := block.takes_between named [] read texts
    have ended := Sequence.step_of_closes (block.reverse ++ []) closes
    rw [List.append_nil, List.reverse_reverse] at ended
    rw [List.append_nil] at path
    exact (Ends.done path ended after).runFrom_eq

/-- A statement is read off exactly the streams that start with its words, and a block off exactly
those that start with its words and go on with `END`, `ELSE` or the end marker; all calls in them
are identifiers. -/
theorem statement_and_block_grammar (tokens rest : List Token) :
    (∀ statement, Reader.statement.run tokens = ⟨.ok statement, rest⟩ ↔
      statement.WellNamed ∧
        ∃ read, tokens = read ++ rest ∧ lexemes read = statement.words) ∧
    (∀ block, Reader.block.run tokens = ⟨.ok block, rest⟩ ↔
      Block.WellNamed block ∧
        (∃ read, tokens = read ++ rest ∧ lexemes read = Block.words block) ∧
        ∃ stop after, rest = stop :: after ∧
          (stop.lexeme = Keyword.END.spelling ∨ stop.lexeme = Keyword.ELSE.spelling ∨
            stop.lexeme = endMarker)) := by
  refine ⟨statement_run_iff tokens rest, fun block => ?_⟩
  simp only [← Token.closesBlock_iff]
  exact block_run_iff tokens rest block

end Reader

/-! ## Different trees have different words -/

theorem Block.eq_of_words {first second : Block} (firstNamed : Block.WellNamed first)
    (secondNamed : Block.WellNamed second) (same : Block.words first = Block.words second) :
    first = second := by
  let stop := Token.unplaced Keyword.END.spelling
  have closes : stop.closesBlock = true := stop.closesBlock_iff.mpr (Or.inl rfl)
  have run (block : Block) (named : Block.WellNamed block)
      (texts : Block.words first = Block.words block) :
      Reader.block.run ((Block.words first).map Token.unplaced ++ [stop]) =
        ⟨.ok block, [stop]⟩ := by
    apply (Reader.block_run_iff _ _ block).mpr
    exact ⟨named, ⟨_, rfl, (lexemes_unplaced _).trans texts⟩, stop, [], rfl, closes⟩
  cases (run first firstNamed rfl).symm.trans (run second secondNamed same)
  rfl

theorem Statement.reads_words (statement : Statement) (named : statement.WellNamed) :
    Reader.statement.Reads statement.words statement := by
  intro rest
  rw [List.map_append]
  exact (Reader.statement_run_iff _ _ statement).mpr ⟨named, _, rfl, lexemes_unplaced _⟩

/-- The words of a statement do not start those of another, whatever follows them. -/
theorem Statement.eq_of_words_append {first second : Statement} {left right : List String}
    (firstNamed : first.WellNamed) (secondNamed : second.WellNamed)
    (same : first.words ++ left = second.words ++ right) : first = second ∧ left = right :=
  (first.reads_words firstNamed).eq_of_append (second.reads_words secondNamed) same

end BLang
