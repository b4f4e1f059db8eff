import BLang.Layout
import BLang.Reader.Single
import BLang.Proofs.Programs
import BLang.Proofs.Scanning

/-!
# The round trip

The layout of a program, a statement or a block spells its words, whatever the indentation, and a
well-named one is read back from its words.  In the other direction nothing has to be known about a
text: whatever is read from it is well named, so a tree with other names is never read back, even if
its text can be read.
-/

namespace BLang

/-! ## The words of a layout -/

mutual

theorem Statement.rows_words (indent : Nat) :
    (statement : Statement) → (statement.rows indent).flatMap Row.words = statement.words
  | .call name => rfl
  | .ifThen condition body => by
      simp [Statement.rows, Statement.words, Block.rows_words (indent + indentStep) body]
  | .ifThenElse condition body other => by
      simp [Statement.rows, Statement.words, Block.rows_words (indent + indentStep) body,
        Block.rows_words (indent + indentStep) other]
  | .whileDo condition body => by
      simp [Statement.rows, Statement.words, Block.rows_words (indent + indentStep) body]

theorem Block.rows_words (indent : Nat) :
    (block : List Statement) → (Block.rows indent block).flatMap Row.words = Block.words block
  | [] => rfl
  | statement :: rest => by
      rw [Block.rows, List.flatMap_append, statement.rows_words indent,
        Block.rows_words indent rest, Block.words]

end

theorem Instruction.rows_words (instruction : Instruction) :
    instruction.rows.flatMap Row.words = instruction.words := by
  simp [rows, words, Block.rows_words, Row.blank]

theorem Program.rows_words (program : Program) :
    program.rows.flatMap Row.words = program.words := by
  have definitions : (program.context.entries.flatMap Instruction.rows).flatMap Row.words =
      program.context.entries.flatMap Instruction.words := by
    rw [List.flatMap_assoc]
    exact congrArg (fun words => program.context.entries.flatMap words)
      (funext Instruction.rows_words)
  simp [rows, words, wordsWith, Block.rows_words, Row.blank, definitions]

/-! ## Well-named trees have words only -/

theorem isWord_opening (first last : Keyword) (condition : Condition) :
    ∀ word ∈ [first.spelling, condition.spelling, last.spelling], isWord word.toList = true := by
  simp only [List.forall_mem_cons]
  exact ⟨isWord_keyword first, isWord_condition condition, isWord_keyword last,
    List.forall_mem_nil _⟩

theorem isWord_closing (first last : Keyword) :
    ∀ word ∈ [first.spelling, last.spelling], isWord word.toList = true := by
  simp only [List.forall_mem_cons]
  exact ⟨isWord_keyword first, isWord_keyword last, List.forall_mem_nil _⟩

mutual

theorem Statement.isWord_words :
    (statement : Statement) → statement.WellNamed →
      ∀ word ∈ statement.words, isWord word.toList = true
  | .call name, named => by
      simpa [Statement.words] using isWord_of_isIdentifier named
  | .ifThen condition body, named => by
      rw [Statement.words, List.forall_mem_append, List.forall_mem_append]
      exact ⟨⟨isWord_opening _ _ condition, Block.isWord_words body named⟩, isWord_closing _ _⟩
  | .ifThenElse condition body other, named => by
      have second : ∀ word ∈ Keyword.ELSE.spelling :: Block.words other,
          isWord word.toList = true :=
        List.forall_mem_cons.mpr ⟨isWord_keyword .ELSE, Block.isWord_words other named.2⟩
      rw [Statement.words, List.forall_mem_append, List.forall_mem_append,
        List.forall_mem_append]
      exact ⟨⟨⟨isWord_opening _ _ condition, Block.isWord_words body named.1⟩, second⟩,
        isWord_closing _ _⟩
  | .whileDo condition body, named => by
      rw [Statement.words, List.forall_mem_append, List.forall_mem_append]
      exact ⟨⟨isWord_opening _ _ condition, Block.isWord_words body named⟩, isWord_closing _ _⟩

theorem Block.isWord_words :
    (block : List Statement) → Block.WellNamed block →
      ∀ word ∈ Block.words block, isWord word.toList = true
  | [], _ => by simp [Block.words]
  | statement :: rest, named => by
      rw [Block.words, List.forall_mem_append]
      exact ⟨statement.isWord_words named.1, Block.isWord_words rest named.2⟩

end

theorem Instruction.isWord_words (instruction : Instruction) (named : instruction.WellNamed) :
    ∀ word ∈ instruction.words, isWord word.toList = true := by
  have name := isWord_of_isIdentifier named.1
  have body := Block.isWord_words instruction.body named.2.2
  simp only [words, List.forall_mem_append, List.forall_mem_cons]
  have none := List.forall_mem_nil fun word : String => isWord word.toList = true
  exact ⟨⟨⟨isWord_keyword _, name, isWord_keyword _, none⟩, body⟩, isWord_keyword _, name, none⟩

theorem Program.isWord_words (program : Program) (named : program.WellNamed) :
    ∀ word ∈ program.words, isWord word.toList = true := by
  have name := isWord_of_isIdentifier named.1
  have body := Block.isWord_words program.body named.2.2
  have definitions : ∀ word ∈ program.context.entries.flatMap Instruction.words,
      isWord word.toList = true := by
    intro word member
    obtain ⟨entry, listed, within⟩ := List.mem_flatMap.mp member
    exact entry.isWord_words (named.2.1 entry listed) word within
  simp only [words, wordsWith, List.forall_mem_append, List.forall_mem_cons]
  exact ⟨⟨⟨⟨isWord_keyword _, name, isWord_keyword _, List.forall_mem_nil _⟩, definitions⟩,
    isWord_keyword _, body⟩, isWord_keyword _, name, List.forall_mem_nil _⟩

/-! ## The text of a layout -/

open Scanner (Spells)

/-- Words with single spaces between them and the end of a line after them. -/
theorem Row.spells_spaced (words : List String)
    (all : ∀ word ∈ words, isWord word.toList = true) :
    Spells (spaced words ++ ['\n']) words := by
  have newline : isGap '\n' = true := by decide
  have space : isGap ' ' = true := by decide
  induction words with
  | nil => exact .gap newline
  | cons word rest ih =>
      obtain ⟨first, others⟩ := List.forall_mem_cons.mp all
      cases rest with
      | nil => exact .word first newline
      | cons next later =>
          have spells := (Spells.word first space).append (ih others)
          simpa [spaced] using spells

theorem Row.spells (row : Row) (all : ∀ word ∈ row.words, isWord word.toList = true) :
    Spells row.chars row.words := by
  have indent : ∀ char ∈ List.replicate row.indent ' ', isGap char = true := by
    intro char member
    rw [List.eq_of_mem_replicate member]
    decide
  rw [chars, List.append_assoc]
  exact (Spells.gaps indent).append (spells_spaced row.words all)

/-- A layout of scannable words spells them row by row. -/
theorem spells_textOfRows (rows : List Row)
    (all : ∀ word ∈ rows.flatMap Row.words, isWord word.toList = true) :
    Spells (textOfRows rows).toList (rows.flatMap Row.words) := by
  rw [textOfRows, String.toList_ofList]
  induction rows with
  | nil => exact .nil
  | cons row rest ih =>
      rw [List.flatMap_cons, List.forall_mem_append] at all
      rw [List.flatMap_cons, List.flatMap_cons]
      exact (row.spells all.1).append (ih all.2)

/-- A layout of scannable words is scanned to them and the end marker. -/
theorem tokenize_textOfRows {rows : List Row} {words : List String}
    (texts : rows.flatMap Row.words = words)
    (all : ∀ word ∈ words, isWord word.toList = true) :
    ∃ tokens, lexemes tokens = words ∧ tokenize (textOfRows rows) =
      .ok (tokens ++ [Token.ending (textOfRows rows).utf8ByteSize]) := by
  subst texts
  exact (spells_textOfRows rows all).tokenize_eq

theorem Statement.tokenize_text (statement : Statement) (named : statement.WellNamed)
    (indent : Nat) :
    ∃ tokens, lexemes tokens = statement.words ∧ tokenize (statement.text indent) =
      .ok (tokens ++ [Token.ending (statement.text indent).utf8ByteSize]) :=
  tokenize_textOfRows (statement.rows_words indent) (statement.isWord_words named)

theorem Block.tokenize_text (block : Block) (named : Block.WellNamed block) (indent : Nat) :
    ∃ tokens, lexemes tokens = Block.words block ∧ tokenize (Block.text block indent) =
      .ok (tokens ++ [Token.ending (Block.text block indent).utf8ByteSize]) :=
  tokenize_textOfRows (Block.rows_words indent block) (Block.isWord_words block named)

theorem Program.tokenize_text (program : Program) (named : program.WellNamed) :
    ∃ tokens, lexemes tokens = program.words ∧
      tokenize program.text = .ok (tokens ++ [Token.ending program.text.utf8ByteSize]) :=
  tokenize_textOfRows program.rows_words (program.isWord_words named)

/-! ## The round trip -/

namespace Program

/-- A well-named program is read from its text, and only the end marker is left. -/
theorem run_text (program : Program) (named : program.WellNamed) :
    ∃ tokens, tokenize program.text = .ok tokens ∧
      Reader.program.run tokens =
        ⟨.ok program, [Token.ending program.text.utf8ByteSize]⟩ := by
  obtain ⟨tokens, texts, scanned⟩ := program.tokenize_text named
  refine ⟨_, scanned, (Reader.program_run_iff _ _ program).mpr ?_⟩
  exact ⟨program.context.entries, tokens, _, [], rfl, texts ▸ named.written, rfl,
    Token.isEnd_ending _⟩

/-- What is read from any tokens is well named. -/
theorem wellNamed_of_run {program : Program} {tokens : List Token}
    (run : (Reader.program.run tokens).result = .ok program) : program.WellNamed := by
  obtain ⟨definitions, read, stop, after, _, written, _⟩ :=
    (Reader.program_run_iff tokens _ program).mp (Outcome.eq_mk_of_result run)
  exact wellNamed_of_written written

/-- A program is read back from its own text exactly if it is well named: its name is an identifier,
so is every call at any depth, and every definition has a name that is an identifier and not
primitive.  Then nothing but the end marker is left, at the byte length of the text. -/
theorem read_back_iff_wellNamed (program : Program) :
    ((∃ tokens, tokenize program.text = .ok tokens ∧
        (Reader.program.run tokens).result = .ok program) ↔ program.WellNamed) ∧
      (program.WellNamed → ∃ tokens, tokenize program.text = .ok tokens ∧
        Reader.program.run tokens =
          ⟨.ok program, [⟨endMarker, Span.point program.text.utf8ByteSize⟩]⟩) := by
  refine ⟨⟨?_, ?_⟩, program.run_text⟩
  · rintro ⟨tokens, _, run⟩
    exact wellNamed_of_run run
  · intro named
    obtain ⟨tokens, scanned, run⟩ := program.run_text named
    exact ⟨tokens, scanned, by rw [run]⟩

/-- Two definitions, one with both branches of a condition and one with an empty loop. -/
def patrol : Program where
  name := "patrol"
  context :=
    ⟨[⟨"advance", [.ifThenElse .nextIsEmpty [.call "move"] [.call "turn-left"]]⟩,
      ⟨"guard", [.whileDo .random []]⟩], by decide⟩
  body := [.whileDo .always [.call "advance", .call "guard"]]

theorem patrol_read_back : patrol.WellNamed ∧ ∃ tokens, tokenize patrol.text = .ok tokens ∧
    Reader.program.run tokens =
      ⟨.ok patrol, [⟨endMarker, Span.point patrol.text.utf8ByteSize⟩]⟩ := by
  have named : patrol.WellNamed := by decide
  exact ⟨named, (read_back_iff_wellNamed patrol).2 named⟩

end Program

namespace Reader

theorem endOfInput_run_iff (tokens : List Token) :
    (endOfInput.run tokens).result = .ok () ↔
      ∃ stop after, tokens = stop :: after ∧ stop.isEnd = true := by
  cases tokens with
  | nil => simp [run, runFrom]
  | cons token rest =>
      cases ends : token.isEnd <;> simp [run, runFrom, endOfInput, ends]

/-- A statement is read back from its text at any indentation, with nothing after it, exactly if
every call in it has an identifier for its name, and so is a block. -/
theorem statements_and_blocks_read_back (indent : Nat) :
    (∀ statement : Statement,
      (∃ tokens rest, tokenize (statement.text indent) = .ok tokens ∧
        Reader.statement.run tokens = ⟨.ok statement, rest⟩ ∧
        (endOfInput.run rest).result = .ok ()) ↔ statement.WellNamed) ∧
    (∀ block : Block,
      (∃ tokens rest, tokenize (Block.text block indent) = .ok tokens ∧
        Reader.block.run tokens = ⟨.ok block, rest⟩ ∧
        (endOfInput.run rest).result = .ok ()) ↔ Block.WellNamed block) := by
  have ended (length : Nat) : (endOfInput.run [Token.ending length]).result = .ok () :=
    (endOfInput_run_iff _).mpr ⟨_, [], rfl, Token.isEnd_ending length⟩
  constructor
  · intro statement
    constructor
    · rintro ⟨tokens, rest, _, run, _⟩
      exact ((statement_run_iff _ _ _).mp run).1
    · intro named
      obtain ⟨tokens, texts, scanned⟩ := statement.tokenize_text named indent
      exact ⟨_, _, scanned, (statement_run_iff _ _ _).mpr ⟨named, tokens, rfl, texts⟩, ended _⟩
  · intro block
    constructor
    · rintro ⟨tokens, rest, _, run, _⟩
      exact ((block_run_iff _ _ _).mp run).1
    · intro named
      obtain ⟨tokens, texts, scanned⟩ := Block.tokenize_text block named indent
      have closes (length : Nat) : (Token.ending length).closesBlock = true :=
        (Token.closesBlock_iff _).mpr (Or.inr (Or.inr rfl))
      exact ⟨_, _, scanned,
        (block_run_iff _ _ _).mpr ⟨named, ⟨tokens, rfl, texts⟩, _, [], rfl, closes _⟩, ended _⟩

end Reader

end BLang
