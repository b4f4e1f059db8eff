import BLang.Proofs.ByteOrder
import BLang.Proofs.RoundTrip
import BLang.Proofs.Sources
import Mathlib.Tactic.TFAE

/-!
# The canonical form of a source

The text of a program that was read from a source is read as the same program, and its words are
those of the source with the definitions in the order of their names.  The order of definitions is
the only thing of the words that a program does not keep: complete definitions that follow one
another can be put into any order, and nothing else can be changed.
-/

namespace BLang

open Text

/-- The words are the same but for the order of some definitions that follow one another. -/
def DefinitionsReordered (left right : List String) : Prop :=
  ∃ (front back : List String) (first second : List Instruction),
    (∀ definition ∈ first, definition.WellNamed) ∧ first.Perm second ∧
      left = front ++ first.flatMap Instruction.words ++ back ∧
      right = front ++ second.flatMap Instruction.words ++ back

/-- The second words are the first with the definitions in the order of the bytes of their names;
no `INSTRUCTION` stands outside these definitions. -/
def DefinitionsSorted (words sorted : List String) : Prop :=
  ∃ (front back : List String) (definitions ordered : List Instruction),
    (∀ definition ∈ definitions, definition.WellNamed) ∧ ordered.Perm definitions ∧
      (ordered.Pairwise fun left right => bytes left.name < bytes right.name) ∧
      Keyword.INSTRUCTION.spelling ∉ front ∧ Keyword.INSTRUCTION.spelling ∉ back ∧
      words = front ++ definitions.flatMap Instruction.words ++ back ∧
      sorted = front ++ ordered.flatMap Instruction.words ++ back

/-! ## Where definitions begin -/

theorem instruction_eq_keyword_iff (keyword : Keyword) :
    Keyword.INSTRUCTION.spelling = keyword.spelling ↔ keyword = .INSTRUCTION :=
  ⟨fun same => (Keyword.spelling_injective same).symm, fun same => same ▸ rfl⟩

theorem instruction_ne_condition (condition : Condition) :
    Keyword.INSTRUCTION.spelling ≠ condition.spelling := by
  cases condition <;> decide

mutual

theorem Statement.instruction_not_mem :
    (statement : Statement) → statement.WellNamed →
      Keyword.INSTRUCTION.spelling ∉ statement.words
  | .call name, named => by
      rw [Statement.words, List.mem_singleton]
      exact (ne_keyword_of_isIdentifier named .INSTRUCTION).symm
  | .ifThen condition body, named => by
      have inside := Block.instruction_not_mem body named
      simp [Statement.words, inside, instruction_ne_condition, instruction_eq_keyword_iff]
  | .ifThenElse condition body other, named => by
      have first := Block.instruction_not_mem body named.1
      have second := Block.instruction_not_mem other named.2
      simp [Statement.words, first, second, instruction_ne_condition,
        instruction_eq_keyword_iff]
  | .whileDo condition body, named => by
      have inside := Block.instruction_not_mem body named
      simp [Statement.words, inside, instruction_ne_condition, instruction_eq_keyword_iff]

theorem Block.instruction_not_mem :
    (block : List Statement) → Block.WellNamed block →
      Keyword.INSTRUCTION.spelling ∉ Block.words block
  | [], _ => List.not_mem_nil
  | statement :: rest, named => by
      rw [Block.words, List.mem_append, not_or]
      exact ⟨statement.instruction_not_mem named.1, Block.instruction_not_mem rest named.2⟩

end

/-- After `INSTRUCTION` the words of a definition hold no other `INSTRUCTION`. -/
theorem Instruction.instruction_not_mem (instruction : Instruction)
    (named : instruction.WellNamed) :
    Keyword.INSTRUCTION.spelling ∉ instruction.middle ++ [instruction.name] := by
  have name := (ne_keyword_of_isIdentifier named.1 .INSTRUCTION).symm
  have inside := Block.instruction_not_mem instruction.body named.2.2
  simp [middle, name, inside, instruction_eq_keyword_iff]

/-- A mark that is not in the first of two lists is in the second. -/
theorem exists_append_of_not_mem {α : Type} {part whole front back : List α} {mark : α}
    (unmarked : mark ∉ part) (same : part ++ whole = front ++ mark :: back) :
    ∃ inner, front = part ++ inner ∧ whole = inner ++ mark :: back := by
  rcases List.append_eq_append_iff.mp same with ⟨inner, rfl, rest⟩ | ⟨inner, rfl, rest⟩
  · exact ⟨inner, rfl, rest⟩
  · cases inner with
    | nil => exact ⟨[], by simp, rest.symm⟩
    | cons first others =>
        have begins := (List.cons.inj rest).1
        exact absurd (begins ▸ List.mem_append_right front List.mem_cons_self) unmarked

/-- Every `INSTRUCTION` in the words of definitions begins one of them. -/
theorem exists_definitions_before {definitions : List Instruction} {rest front back : List String}
    (named : ∀ definition ∈ definitions, definition.WellNamed)
    (unmarked : Keyword.INSTRUCTION.spelling ∉ rest)
    (same : definitions.flatMap Instruction.words ++ rest =
      front ++ Keyword.INSTRUCTION.spelling :: back) :
    ∃ earlier later, definitions = earlier ++ later ∧ front = earlier.flatMap Instruction.words ∧
      later.flatMap Instruction.words ++ rest = Keyword.INSTRUCTION.spelling :: back := by
  induction definitions generalizing front with
  | nil =>
      rw [List.flatMap_nil, List.nil_append] at same
      exact absurd (same ▸ List.mem_append_right front List.mem_cons_self) unmarked
  | cons definition others ih =>
      obtain ⟨firstNamed, othersNamed⟩ := List.forall_mem_cons.mp named
      cases front with
      | nil => exact ⟨[], definition :: others, rfl, rfl, same⟩
      | cons word front =>
          rw [List.flatMap_cons, definition.words_eq, List.append_assoc, List.cons_append,
            List.cons_append] at same
          obtain ⟨rfl, inner⟩ := List.cons.inj same
          obtain ⟨front, rfl, after⟩ :=
            exists_append_of_not_mem (definition.instruction_not_mem firstNamed) inner
          obtain ⟨earlier, later, rfl, rfl, begins⟩ := ih othersNamed after
          refine ⟨definition :: earlier, later, rfl, ?_, begins⟩
          rw [List.flatMap_cons, definition.words_eq, List.cons_append]

theorem Instruction.reads_words (instruction : Instruction) (named : instruction.WellNamed) :
    Reader.instruction.Reads instruction.words instruction := by
  intro rest
  rw [List.map_append]
  exact (Reader.instruction_run_iff _ _ instruction).mpr ⟨named, _, rfl, lexemes_unplaced _⟩

/-- Definitions with which the words of others begin are the first of these. -/
theorem exists_definitions_after {first definitions : List Instruction} {back rest : List String}
    (firstNamed : ∀ definition ∈ first, definition.WellNamed)
    (named : ∀ definition ∈ definitions, definition.WellNamed)
    (unmarked : Keyword.INSTRUCTION.spelling ∉ rest)
    (same : definitions.flatMap Instruction.words ++ rest =
      first.flatMap Instruction.words ++ back) :
    ∃ last, definitions = first ++ last ∧ back = last.flatMap Instruction.words ++ rest := by
  induction first generalizing definitions with
  | nil => exact ⟨definitions, rfl, same.symm⟩
  | cons definition first ih =>
      obtain ⟨definitionNamed, restNamed⟩ := List.forall_mem_cons.mp firstNamed
      cases definitions with
      | nil =>
          rw [List.flatMap_nil, List.nil_append, List.flatMap_cons, definition.words_eq] at same
          exact absurd (same ▸ List.mem_cons_self) unmarked
      | cons other others =>
          obtain ⟨otherNamed, othersNamed⟩ := List.forall_mem_cons.mp named
          rw [List.flatMap_cons, List.flatMap_cons, List.append_assoc, List.append_assoc] at same
          obtain ⟨rfl, after⟩ := (other.reads_words otherNamed).eq_of_append
            (definition.reads_words definitionNamed) same
          obtain ⟨last, rfl, rfl⟩ := ih restNamed othersNamed after
          exact ⟨last, rfl, rfl⟩

/-! ## Definitions in another order -/

theorem Context.Lists.perm {context : Context} {definitions other : List Instruction}
    (lists : context.Lists definitions) (perm : definitions.Perm other) : context.Lists other where
  distinct := (perm.map Instruction.name).nodup_iff.mp lists.distinct
  entries entry := (lists.entries entry).trans perm.mem_iff

theorem Context.Lists.entries_perm {context : Context} {definitions : List Instruction}
    (lists : context.Lists definitions) : context.entries.Perm definitions := by
  have entriesApart := List.Nodup.of_map Instruction.name context.names_nodup
  have apart := List.Nodup.of_map Instruction.name lists.distinct
  exact (List.perm_ext_iff_of_nodup entriesApart apart).mpr lists.entries

namespace Program

/-- A program is written with its definitions in any order. -/
theorem Written.perm {program : Program} {definitions other : List Instruction}
    {words : List String} (written : program.Written definitions words)
    (perm : definitions.Perm other) :
    program.Written other (wordsWith program.name other program.body) where
  identifier := written.identifier
  named definition member := written.named definition (perm.mem_iff.mpr member)
  lists := written.lists.perm perm
  body := written.body
  texts := rfl

/-- The words of a program before its definitions. -/
def opening (program : Program) : List String :=
  [Keyword.PROGRAM.spelling, program.name, Keyword.IS.spelling]

/-- The words of a program after its definitions, with the end marker. -/
def ending (program : Program) : List String :=
  Keyword.BEGIN.spelling :: Block.words program.body ++
    [Keyword.END.spelling, program.name, endMarker]

theorem Written.words_append_endMarker {program : Program} {definitions : List Instruction}
    {words : List String} (written : program.Written definitions words) :
    words ++ [endMarker] =
      program.opening ++ definitions.flatMap Instruction.words ++ program.ending := by
  simp [written.texts, wordsWith, opening, ending]

theorem instruction_not_mem_opening {program : Program}
    (identifier : isIdentifier program.name = true) :
    Keyword.INSTRUCTION.spelling ∉ program.opening := by
  have name := (ne_keyword_of_isIdentifier identifier .INSTRUCTION).symm
  simp [opening, name, instruction_eq_keyword_iff]

theorem instruction_not_mem_ending {program : Program}
    (identifier : isIdentifier program.name = true) (named : Block.WellNamed program.body) :
    Keyword.INSTRUCTION.spelling ∉ program.ending := by
  have name := (ne_keyword_of_isIdentifier identifier .INSTRUCTION).symm
  have inside := Block.instruction_not_mem program.body named
  have marker := keyword_ne_endMarker .INSTRUCTION
  simp [ending, name, inside, marker, instruction_eq_keyword_iff]

/-- Definitions in the words of a program can be put into another order. -/
theorem Written.reordered {program : Program} {definitions : List Instruction}
    {words other : List String} (written : program.Written definitions words)
    (reordered : DefinitionsReordered (words ++ [endMarker]) other) :
    ∃ reorderedDefinitions otherWords, program.Written reorderedDefinitions otherWords ∧
      other = otherWords ++ [endMarker] := by
  obtain ⟨front, back, first, second, firstNamed, perm, same, rfl⟩ := reordered
  cases first with
  | nil =>
      cases perm.nil_eq
      exact ⟨definitions, words, written, same.symm⟩
  | cons definition others =>
      have unmarked := instruction_not_mem_ending written.identifier written.body
      have begins : (definition :: others).flatMap Instruction.words ++ back =
          Keyword.INSTRUCTION.spelling :: (definition.middle ++ [definition.name] ++
            others.flatMap Instruction.words ++ back) := by
        simp [definition.words_eq]
      rw [written.words_append_endMarker, List.append_assoc, List.append_assoc front,
        begins] at same
      obtain ⟨inner, rfl, table⟩ :=
        exists_append_of_not_mem (instruction_not_mem_opening written.identifier) same
      obtain ⟨earlier, later, rfl, rfl, rest⟩ :=
        exists_definitions_before written.named unmarked table
      rw [← begins] at rest
      obtain ⟨last, rfl, rfl⟩ := exists_definitions_after firstNamed
        (fun other member => written.named other (List.mem_append_right _ member)) unmarked rest
      have moved := written.perm ((perm.append_right last).append_left earlier)
      refine ⟨_, _, moved, ?_⟩
      simp [moved.words_append_endMarker]

/-- The words of one program, written twice, are those of its definitions in two orders. -/
theorem Written.definitionsReordered {program : Program} {definitions others : List Instruction}
    {words otherWords : List String} (written : program.Written definitions words)
    (otherWritten : program.Written others otherWords) :
    DefinitionsReordered (words ++ [endMarker]) (otherWords ++ [endMarker]) :=
  ⟨program.opening, program.ending, definitions, others, written.named,
    written.lists.entries_perm.symm.trans otherWritten.lists.entries_perm,
    written.words_append_endMarker, otherWritten.words_append_endMarker⟩

/-- A program is laid out with its definitions in the order of the bytes of their names. -/
theorem Written.definitionsSorted {program : Program} {definitions : List Instruction}
    {words : List String} (written : program.Written definitions words) :
    DefinitionsSorted (words ++ [endMarker]) (program.words ++ [endMarker]) := by
  have ordered : program.context.entries.Pairwise fun left right =>
      bytes left.name < bytes right.name :=
    program.context.ordered.imp (precedes_iff_bytes_lt _ _).mp
  have laidOut := (wellNamed_of_written written).written
  exact ⟨program.opening, program.ending, definitions, program.context.entries, written.named,
    written.lists.entries_perm, ordered, instruction_not_mem_opening written.identifier,
    instruction_not_mem_ending written.identifier written.body, written.words_append_endMarker,
    laidOut.words_append_endMarker⟩

/-- Words are those of one program at most, whatever the order of its definitions. -/
theorem Written.program_eq {left right : Program} {definitions others : List Instruction}
    {words : List String} (written : left.Written definitions words)
    (otherWritten : right.Written others words) : left = right := by
  let stop := Token.ending 0
  have run {program : Program} {definitions : List Instruction}
      (written : program.Written definitions words) :
      Reader.program.run (words.map Token.unplaced ++ [stop]) = ⟨.ok program, [stop]⟩ := by
    rw [← lexemes_unplaced words] at written
    exact (Reader.program_run_iff _ _ program).mpr
      ⟨definitions, _, stop, [], rfl, written, rfl, Token.isEnd_ending 0⟩
  cases (run written).symm.trans (run otherWritten)
  rfl

end Program

/-! ## The canonical form -/

namespace Source

theorem lexemes_of_program {source : String} {program : Program} {tokens : List Token}
    (read : Source.program source = .ok program) (scanned : tokenize source = .ok tokens) :
    ∃ definitions words, program.Written definitions words ∧
      lexemes tokens = words ++ [endMarker] := by
  obtain ⟨words, definitions, scannedWords, written⟩ := (program_eq_ok_iff _ _).mp read
  cases scanned.symm.trans scannedWords
  exact ⟨definitions, _, written, lexemes_append _ _⟩

theorem exists_tokens_of_program {source : String} {program : Program}
    (read : Source.program source = .ok program) : ∃ tokens, tokenize source = .ok tokens := by
  obtain ⟨words, _, scanned, _⟩ := (program_eq_ok_iff _ _).mp read
  exact ⟨_, scanned⟩

/-- The text of a program that was read is read as this program. -/
theorem program_text {source : String} {program : Program}
    (read : Source.program source = .ok program) : Source.program program.text = .ok program := by
  obtain ⟨_, _, _, written⟩ := (program_eq_ok_iff _ _).mp read
  have named := Program.wellNamed_of_written written
  obtain ⟨words, texts, scanned⟩ := program.tokenize_text named
  exact (program_eq_ok_iff _ _).mpr ⟨words, _, scanned, texts ▸ named.written⟩

/-- The words of a program's text are those of the source with the definitions in the order of the
bytes of their names. -/
theorem definitionsSorted_text {source : String} {program : Program} {tokens printed : List Token}
    (read : Source.program source = .ok program) (scanned : tokenize source = .ok tokens)
    (textScanned : tokenize program.text = .ok printed) :
    DefinitionsSorted (lexemes tokens) (lexemes printed) := by
  obtain ⟨definitions, words, written, texts⟩ := lexemes_of_program read scanned
  obtain ⟨printedWords, printedTexts, printedScanned⟩ :=
    program.tokenize_text (Program.wellNamed_of_written written)
  cases textScanned.symm.trans printedScanned
  rw [texts, lexemes_append, printedTexts]
  exact written.definitionsSorted

/-- Two sources hold the same program exactly if their words differ in the order of definitions
only. -/
theorem program_eq_iff_definitionsReordered {first second : String} {left right : Program}
    {firstTokens secondTokens : List Token} (firstRead : Source.program first = .ok left)
    (secondRead : Source.program second = .ok right)
    (firstScanned : tokenize first = .ok firstTokens)
    (secondScanned : tokenize second = .ok secondTokens) :
    left = right ↔ DefinitionsReordered (lexemes firstTokens) (lexemes secondTokens) := by
  obtain ⟨definitions, words, written, texts⟩ := lexemes_of_program firstRead firstScanned
  obtain ⟨others, otherWords, otherWritten, otherTexts⟩ :=
    lexemes_of_program secondRead secondScanned
  rw [texts, otherTexts]
  constructor
  · rintro rfl
    exact written.definitionsReordered otherWritten
  · intro reordered
    obtain ⟨_, words, leftWritten, same⟩ := written.reordered reordered
    cases List.append_cancel_right same
    exact leftWritten.program_eq otherWritten

/-- The text of a program is a canonical form of the sources it is read from.  It is read as this
program again, and its words are those of the source with the definitions in the order of the bytes
of their names.  Two sources hold the same program exactly if the texts of their programs are the
same, and exactly if their words differ in the order of definitions only. -/
theorem text_is_canonical_form :
    (∀ source program, Source.program source = .ok program →
      Source.program program.text = .ok program ∧
      ∃ tokens printed, tokenize source = .ok tokens ∧ tokenize program.text = .ok printed ∧
        DefinitionsSorted (lexemes tokens) (lexemes printed)) ∧
    (∀ first second left right firstTokens secondTokens,
      Source.program first = .ok left → Source.program second = .ok right →
      tokenize first = .ok firstTokens → tokenize second = .ok secondTokens →
      [left = right, left.text = right.text,
        DefinitionsReordered (lexemes firstTokens) (lexemes secondTokens)].TFAE) := by
  constructor
  · intro source program read
    have textRead := program_text read
    obtain ⟨tokens, scanned⟩ := exists_tokens_of_program read
    obtain ⟨printed, textScanned⟩ := exists_tokens_of_program textRead
    exact ⟨textRead, tokens, printed, scanned, textScanned,
      definitionsSorted_text read scanned textScanned⟩
  · intro first second left right firstTokens secondTokens firstRead secondRead firstScanned
      secondScanned
    tfae_have 1 ↔ 3 :=
      program_eq_iff_definitionsReordered firstRead secondRead firstScanned secondScanned
    tfae_have 1 → 2 := congrArg Program.text
    tfae_have 2 → 1 := by
      intro same
      have leftText := program_text firstRead
      rw [same, program_text secondRead] at leftText
      exact (Except.ok.inj leftText).symm
    tfae_finish

/-- A definition before one whose name comes earlier, and a comment. -/
def unorderedPatrol : String :=
  "PROGRAM p IS INSTRUCTION b IS a END b INSTRUCTION a IS END a # é
BEGIN b END p"

/-- The same definitions in the order of their names. -/
def orderedPatrol : String :=
  "PROGRAM p IS
INSTRUCTION a IS END a
INSTRUCTION b IS a END b BEGIN b END p"

def shortPatrol : Program where
  name := "p"
  context :=
    ⟨[⟨"a", []⟩, ⟨"b", [.call "a"]⟩], by decide⟩
  body := [.call "b"]

theorem shortPatrol_is_canonical :
    Source.program unorderedPatrol = .ok shortPatrol ∧
      Source.program orderedPatrol = .ok shortPatrol ∧
      Source.program shortPatrol.text = .ok shortPatrol ∧
      ∃ unordered ordered, tokenize unorderedPatrol = .ok unordered ∧
        tokenize orderedPatrol = .ok ordered ∧
        DefinitionsReordered (lexemes unordered) (lexemes ordered) := by
  have unorderedRead : Source.program unorderedPatrol = .ok shortPatrol := by rfl
  have orderedRead : Source.program orderedPatrol = .ok shortPatrol := by rfl
  obtain ⟨unordered, unorderedScanned⟩ := exists_tokens_of_program unorderedRead
  obtain ⟨ordered, orderedScanned⟩ := exists_tokens_of_program orderedRead
  have forms := text_is_canonical_form.2 _ _ _ _ _ _ unorderedRead orderedRead unorderedScanned
    orderedScanned
  exact ⟨unorderedRead, orderedRead, (text_is_canonical_form.1 _ _ unorderedRead).1, unordered,
    ordered, unorderedScanned, orderedScanned, (forms.out 0 2).mp rfl⟩

end Source

end BLang
