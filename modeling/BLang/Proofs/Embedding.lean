import BLang.Proofs.Joining
import BLang.Proofs.RoundTrip

/-!
# A source as the body of a program

A source set between the head and the end of a program without definitions is on lines of its own, so
the words of the whole are its words between those of the head and those of the end.  A program with
such words has no definitions, and its body has the words of the source.  Hence the whole is read as
a program exactly if the source is read as a block, and the body is a single statement exactly if
the source is read as that statement.
-/

namespace BLang

namespace Program

/-- The words before the body of a program without definitions. -/
def head (name : String) : List String :=
  [Keyword.PROGRAM.spelling, name, Keyword.IS.spelling, Keyword.BEGIN.spelling]

/-- The words after the body of a program. -/
def tail (name : String) : List String :=
  [Keyword.END.spelling, name]

/-- A program has the words between head and tail in its body, and no definitions. -/
theorem written_between_iff (program : Program) {name : String} (words : List String)
    (identifier : isIdentifier name = true) :
    (∃ definitions, program.Written definitions (head name ++ words ++ tail name)) ↔
      ∃ block, Block.WellNamed block ∧ words = Block.words block ∧
        program = ⟨name, .empty, block⟩ := by
  constructor
  · rintro ⟨definitions, written⟩
    have texts := written.texts
    cases definitions with
    | cons definition rest =>
        -- the fourth word would be both `BEGIN` and `INSTRUCTION`
        simp [head, wordsWith, Instruction.words, Keyword.spelling] at texts
    | nil =>
        have context : program.context = .empty := written.lists.unique .empty
        obtain ⟨programName, _, body⟩ := program
        simp only [head, tail, wordsWith, List.flatMap_nil, List.append_nil, List.cons_append,
          List.nil_append, List.cons.injEq, true_and] at texts context
        obtain ⟨rfl, same⟩ := texts
        exact ⟨body, written.body, List.append_cancel_right same, by rw [context]⟩
  · rintro ⟨block, named, rfl, rfl⟩
    refine ⟨[], identifier, List.forall_mem_nil _, .empty, named, ?_⟩
    simp [head, tail, wordsWith]

end Program

namespace Source

/-! ## What is read off the words of a source -/

variable (source : String)

theorem program_eq_ok_iff_hasWords (program : Program) :
    Source.program source = .ok program ↔
      ∃ words, HasWords source words ∧ ∃ definitions, program.Written definitions words := by
  rw [program_eq_ok_iff]
  constructor
  · rintro ⟨tokens, definitions, scanned, written⟩
    exact ⟨_, hasWords_iff.mpr ⟨tokens, rfl, scanned⟩, definitions, written⟩
  · rintro ⟨words, has, definitions, written⟩
    obtain ⟨tokens, rfl, scanned⟩ := hasWords_iff.mp has
    exact ⟨tokens, definitions, scanned, written⟩

/-- A reader of given words reads them off a source, with nothing after them, exactly if they are
the words of the source. -/
theorem onlyValue_eq_ok_iff_hasWords {σ α : Type} (reader : Reader σ α) {value : α} {named : Prop}
    {words : List String}
    (sound : ∀ tokens rest, reader.run tokens = ⟨.ok value, rest⟩ →
      named ∧ ∃ read, tokens = read ++ rest ∧ lexemes read = words)
    (complete : named → ∀ read length, lexemes read = words →
      reader.run (read ++ [Token.ending length]) = ⟨.ok value, [Token.ending length]⟩) :
    (∃ tokens, tokenize source = .ok tokens ∧ onlyValue reader tokens = .ok value) ↔
      named ∧ HasWords source words := by
  simp only [onlyValue_eq_ok_iff]
  constructor
  · rintro ⟨tokens, scanned, taken, looked⟩
    obtain ⟨found, rfl, wordsOf⟩ := tokens_of_tokenize scanned
    obtain ⟨wellNamed, read, same, texts⟩ := sound _ _ (Outcome.eq_mk_of_result taken)
    obtain ⟨stop, after, rest, ends⟩ := (Reader.endOfInput_run_iff _).mp looked
    rw [rest] at same
    obtain ⟨rfl, _⟩ := append_ending_inj wordsOf.isEnd_eq_false ends same
    exact ⟨wellNamed, hasWords_iff.mpr ⟨_, texts, scanned⟩⟩
  · rintro ⟨wellNamed, has⟩
    obtain ⟨tokens, texts, scanned⟩ := hasWords_iff.mp has
    refine ⟨_, scanned, ?_⟩
    rw [complete wellNamed tokens _ texts]
    exact ⟨rfl, (Reader.endOfInput_run_iff _).mpr ⟨_, [], rfl, Token.isEnd_ending _⟩⟩

theorem onlyStatement_iff (statement : Statement) :
    (∃ tokens, tokenize source = .ok tokens ∧
        onlyValue Reader.statement tokens = .ok statement) ↔
      statement.WellNamed ∧ HasWords source statement.words := by
  apply onlyValue_eq_ok_iff_hasWords
  · exact fun tokens rest => (Reader.statement_run_iff tokens rest statement).mp
  · intro named read length texts
    exact (Reader.statement_run_iff _ _ statement).mpr ⟨named, read, rfl, texts⟩

theorem onlyBlock_iff (block : Block) :
    (∃ tokens, tokenize source = .ok tokens ∧ onlyValue Reader.block tokens = .ok block) ↔
      Block.WellNamed block ∧ HasWords source (Block.words block) := by
  apply onlyValue_eq_ok_iff_hasWords
  · intro tokens rest run
    obtain ⟨named, taken, _⟩ := (Reader.block_run_iff tokens rest block).mp run
    exact ⟨named, taken⟩
  · intro named read length texts
    have closes : (Token.ending length).closesBlock = true :=
      (Token.closesBlock_iff _).mpr (Or.inr (Or.inr rfl))
    exact (Reader.block_run_iff _ _ block).mpr ⟨named, ⟨read, rfl, texts⟩, _, [], rfl, closes⟩

/-! ## The words of a source between head and tail -/

/-- The source between the head and the tail of a program without definitions. -/
def asBody (name source : String) : String :=
  "PROGRAM " ++ name ++ " IS BEGIN\n" ++ source ++ "\nEND " ++ name

/-- A line of words has these words. -/
theorem hasWords_spaced {words : List String}
    (all : ∀ word ∈ words, isWord word.toList = true) :
    HasWords (String.ofList (Row.spaced words)) words := by
  -- the line break that ends the row is followed by a source without words
  have line : HasWords (String.ofList (Row.spaced words) ++ "\n" ++ "") words := by
    apply hasWords_of_spells
    simpa using Row.spells_spaced words all
  obtain ⟨left, right, found, none, same⟩ := hasWords_joined.mp line
  rw [none.unique (hasWords_of_spells .nil), List.append_nil] at same
  rwa [same] at found ⊢

theorem asBody_eq (name : String) :
    asBody name source = String.ofList (Row.spaced (Program.head name)) ++ "\n" ++ source ++ "\n" ++
      String.ofList (Row.spaced (Program.tail name)) := by
  apply String.toList_injective
  simp [asBody, Program.head, Program.tail, Row.spaced, Keyword.spelling]

variable {source}

theorem hasWords_asBody {name : String} {words : List String}
    (identifier : isIdentifier name = true) :
    HasWords (asBody name source) words ↔
      ∃ inner, HasWords source inner ∧ words = Program.head name ++ inner ++ Program.tail name := by
  have word := isWord_of_isIdentifier identifier
  have head : HasWords (String.ofList (Row.spaced (Program.head name))) (Program.head name) := by
    apply hasWords_spaced
    simp [Program.head, isWord_keyword, word]
  have tail : HasWords (String.ofList (Row.spaced (Program.tail name))) (Program.tail name) := by
    apply hasWords_spaced
    simp [Program.tail, isWord_keyword, word]
  rw [asBody_eq, hasWords_joined]
  constructor
  · rintro ⟨front, last, before, after, rfl⟩
    obtain ⟨first, inner, opening, middle, rfl⟩ := hasWords_joined.mp before
    exact ⟨inner, middle, by rw [opening.unique head, after.unique tail]⟩
  · rintro ⟨inner, middle, rfl⟩
    exact ⟨_, _, hasWords_joined.mpr ⟨_, _, head, middle, rfl⟩, tail, rfl⟩

/-- The whole is a program exactly if the source is a block. -/
theorem program_asBody_iff (name : String) (identifier : isIdentifier name = true)
    (program : Program) :
    Source.program (asBody name source) = .ok program ↔
      ∃ block, Block.WellNamed block ∧ HasWords source (Block.words block) ∧
        program = ⟨name, .empty, block⟩ := by
  rw [program_eq_ok_iff_hasWords]
  constructor
  · rintro ⟨_, has, written⟩
    obtain ⟨inner, middle, rfl⟩ := (hasWords_asBody identifier).mp has
    obtain ⟨block, named, rfl, same⟩ := (program.written_between_iff inner identifier).mp written
    exact ⟨block, named, middle, same⟩
  · rintro ⟨block, named, has, same⟩
    exact ⟨_, (hasWords_asBody identifier).mpr ⟨_, has, rfl⟩,
      (program.written_between_iff _ identifier).mpr ⟨block, named, rfl, same⟩⟩

/-! ## The readers agree -/

/-- Set between the head and the end of a program without definitions, a source is read as a program
exactly if it can be scanned, a block is read off its tokens and the end marker follows the block.
Then the program has the given name, an empty context and this block for its body.  A statement is
read off the source exactly if such a program has only that statement in its body. -/
theorem readers_agree_on_bodies (name source : String) (identifier : isIdentifier name = true) :
    (∀ program, Source.program (asBody name source) = .ok program ↔
      ∃ tokens block, tokenize source = .ok tokens ∧
        (Reader.block.run tokens).result = .ok block ∧
        (Reader.endOfInput.run (Reader.block.run tokens).rest).result = .ok () ∧
        program = ⟨name, .empty, block⟩) ∧
    (∀ statement, Source.statement source = .ok statement ↔
      ∃ program, Source.program (asBody name source) = .ok program ∧
        program.body = [statement]) := by
  constructor
  · intro program
    rw [program_asBody_iff name identifier]
    constructor
    · rintro ⟨block, named, has, rfl⟩
      obtain ⟨tokens, scanned, only⟩ := (onlyBlock_iff source block).mpr ⟨named, has⟩
      obtain ⟨taken, looked⟩ := (onlyValue_eq_ok_iff _ _ _).mp only
      exact ⟨tokens, block, scanned, taken, looked, rfl⟩
    · rintro ⟨tokens, block, scanned, taken, looked, rfl⟩
      have only := (onlyValue_eq_ok_iff _ _ _).mpr ⟨taken, looked⟩
      obtain ⟨named, has⟩ := (onlyBlock_iff source block).mp ⟨tokens, scanned, only⟩
      exact ⟨block, named, has, rfl⟩
  · intro statement
    have single : Source.statement source = .ok statement ↔
        statement.WellNamed ∧ HasWords source statement.words :=
      (read_eq_ok_iff (onlyValue Reader.statement) source statement).trans
        (onlyStatement_iff source statement)
    rw [single]
    simp only [program_asBody_iff name identifier]
    constructor
    · rintro ⟨named, has⟩
      refine ⟨⟨name, .empty, [statement]⟩, ⟨[statement], ⟨named, trivial⟩, ?_, rfl⟩, rfl⟩
      rwa [Block.words, Block.words, List.append_nil]
    · rintro ⟨_, ⟨block, named, has, rfl⟩, rfl⟩
      rw [Block.words, Block.words, List.append_nil] at has
      exact ⟨named.1, has⟩

/-- A call of the surrounding program's name, and a comment that would end the program. -/
def commentedCall : String := "IF random THEN\n  patrol\nEND IF # END patrol"

/-- The comment does not reach the end of the program. -/
theorem readers_agree_on_commentedCall :
    isIdentifier "patrol" = true ∧
      Source.statement commentedCall = .ok (.ifThen .random [.call "patrol"]) ∧
      ∃ program, Source.program (asBody "patrol" commentedCall) = .ok program ∧
        program.body = [.ifThen .random [.call "patrol"]] := by
  have identifier : isIdentifier "patrol" = true := by decide
  have read : Source.statement commentedCall = .ok (.ifThen .random [.call "patrol"]) := by rfl
  exact ⟨identifier, read,
    ((readers_agree_on_bodies "patrol" commentedCall identifier).2 _).mp read⟩

end Source

end BLang
