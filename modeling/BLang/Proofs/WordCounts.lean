import BLang.Proofs.CanonicalForm

/-!
# The summary of a source

The summary of a program can be counted in the words of its source.  A call is an identifier, and
every other statement has one `THEN` or one `DO`.  The other identifiers are the names of the program
and of its definitions, each of which stands at both ends.  So there are as many of these words as
there are statements and, twice, names.  There are as many definitions as words `INSTRUCTION`, since
each has just one.
-/

namespace BLang

/-- Whether the word is an identifier or opens the first body of a statement. -/
def isCounted (word : String) : Bool :=
  isIdentifier word || decide (word = Keyword.THEN.spelling) ||
    decide (word = Keyword.DO.spelling)

theorem isIdentifier_keyword (keyword : Keyword) : isIdentifier keyword.spelling = false :=
  Bool.eq_false_iff.mpr fun identifier => ne_keyword_of_isIdentifier identifier keyword rfl

/-- No word is an identifier and opens a body, or opens both kinds of bodies. -/
theorem countP_isCounted (words : List String) :
    words.countP isCounted = words.countP isIdentifier + words.count Keyword.THEN.spelling +
      words.count Keyword.DO.spelling := by
  have differ : Keyword.DO.spelling ≠ Keyword.THEN.spelling := by decide
  induction words with
  | nil => rfl
  | cons word rest ih =>
      by_cases opensBranch : word = Keyword.THEN.spelling
      · subst opensBranch
        simp [isCounted, isIdentifier_keyword, ih, differ.symm]
        omega
      · by_cases opensLoop : word = Keyword.DO.spelling
        · subst opensLoop
          simp [isCounted, isIdentifier_keyword, ih, differ]
          omega
        · simp [List.countP_cons, isCounted, ih, opensBranch, opensLoop]
          omega

theorem isCounted_of_isIdentifier {word : String} (identifier : isIdentifier word = true) :
    isCounted word = true := by
  simp [isCounted, identifier]

@[simp] theorem isCounted_keyword (keyword : Keyword) :
    isCounted keyword.spelling = (decide (keyword = .THEN) || decide (keyword = .DO)) := by
  cases keyword <;> decide

@[simp] theorem isCounted_condition (condition : Condition) :
    isCounted condition.spelling = false := by
  cases condition <;> decide

/-! ## The words of statements -/

mutual

theorem Statement.countP_words :
    (statement : Statement) → statement.WellNamed →
      statement.words.countP isCounted = statement.size
  | .call name, named => by
      rw [Statement.words, List.countP_singleton, isCounted_of_isIdentifier named]
      rfl
  | .ifThen condition body, named => by
      have inside := Block.countP_words body named
      simp [Statement.words, Statement.size, inside]
      omega
  | .ifThenElse condition body other, named => by
      have first := Block.countP_words body named.1
      have second := Block.countP_words other named.2
      simp [Statement.words, Statement.size, first, second]
      omega
  | .whileDo condition body, named => by
      have inside := Block.countP_words body named
      simp [Statement.words, Statement.size, inside]
      omega

theorem Block.countP_words :
    (block : List Statement) → Block.WellNamed block →
      (Block.words block).countP isCounted = Block.size block
  | [], _ => rfl
  | statement :: rest, named => by
      rw [Block.words, List.countP_append, statement.countP_words named.1,
        Block.countP_words rest named.2, Block.size]

end

/-! ## The words of definitions -/

/-- The name of a definition counts twice, at its beginning and at its end. -/
theorem Instruction.countP_words (instruction : Instruction) (named : instruction.WellNamed) :
    instruction.words.countP isCounted = 2 + Block.size instruction.body := by
  have name := isCounted_of_isIdentifier named.1
  have inside := Block.countP_words instruction.body named.2.2
  simp [words, name, inside]
  omega

theorem Instruction.count_instruction (instruction : Instruction)
    (named : instruction.WellNamed) :
    instruction.words.count Keyword.INSTRUCTION.spelling = 1 := by
  rw [instruction.words_eq, List.count_cons_self,
    List.count_eq_zero_of_not_mem (instruction.instruction_not_mem named)]

variable {definitions : List Instruction}

theorem countP_definitions (named : ∀ definition ∈ definitions, definition.WellNamed) :
    (definitions.flatMap Instruction.words).countP isCounted =
      2 * definitions.length + Program.definitionsSize definitions := by
  induction definitions with
  | nil => rfl
  | cons definition rest ih =>
      obtain ⟨firstNamed, restNamed⟩ := List.forall_mem_cons.mp named
      rw [List.flatMap_cons, List.countP_append, definition.countP_words firstNamed, ih restNamed,
        Program.definitionsSize, List.length_cons]
      omega

theorem count_definitions (named : ∀ definition ∈ definitions, definition.WellNamed) :
    (definitions.flatMap Instruction.words).count Keyword.INSTRUCTION.spelling =
      definitions.length := by
  induction definitions with
  | nil => rfl
  | cons definition rest ih =>
      obtain ⟨firstNamed, restNamed⟩ := List.forall_mem_cons.mp named
      rw [List.flatMap_cons, List.count_append, definition.count_instruction firstNamed,
        ih restNamed, List.length_cons, Nat.add_comm]

/-- The order of definitions does not matter for their size. -/
theorem definitionsSize_perm {other : List Instruction} (perm : definitions.Perm other) :
    Program.definitionsSize definitions = Program.definitionsSize other := by
  induction perm with
  | nil => rfl
  | cons definition _ ih => rw [Program.definitionsSize, Program.definitionsSize, ih]
  | swap first second rest =>
      simp only [Program.definitionsSize]
      omega
  | trans _ _ left right => exact left.trans right

/-! ## The words of programs -/

namespace Program

variable {program : Program} {words : List String}

theorem Written.countP_words (written : program.Written definitions words) :
    (words ++ [endMarker]).countP isCounted = program.size + 2 * (1 + program.context.size) := by
  have name := isCounted_of_isIdentifier written.identifier
  have inside := Block.countP_words program.body written.body
  have table := countP_definitions written.named
  have perm := written.lists.entries_perm
  have marker : isCounted endMarker = false := by decide
  rw [size, Context.size, perm.length_eq, definitionsSize_perm perm, written.texts]
  simp [wordsWith, name, inside, table, marker]
  omega

theorem Written.count_instruction (written : program.Written definitions words) :
    (words ++ [endMarker]).count Keyword.INSTRUCTION.spelling = program.context.size := by
  have before := instruction_not_mem_opening written.identifier
  have after := instruction_not_mem_ending written.identifier written.body
  rw [written.words_append_endMarker, List.count_append, List.count_append,
    List.count_eq_zero_of_not_mem before, List.count_eq_zero_of_not_mem after,
    count_definitions written.named, Context.size, written.lists.entries_perm.length_eq,
    Nat.zero_add, Nat.add_zero]

/-- The name of a program is its second word. -/
theorem Written.second (written : program.Written definitions words) :
    (words ++ [endMarker])[1]? = some program.name := by
  rw [written.texts]
  rfl

end Program

namespace Source

theorem summary_eq_ok_iff (source : String) (summary : Summary) :
    Source.summary source = .ok summary ↔
      ∃ program, Source.program source = .ok program ∧ program.summary = summary := by
  rw [Source.summary]
  cases Source.program source <;> simp [Except.map]

/-- The summary of a source tells the second of its words, the number of its words `INSTRUCTION`, and
a number of statements that is, with two words for the name of the program and for that of each
definition, the number of its identifiers and its words `THEN` and `DO`. -/
theorem summary_counts_words (source : String) (summary : Summary)
    (accepted : Source.summary source = .ok summary) :
    ∃ tokens, tokenize source = .ok tokens ∧
      (lexemes tokens)[1]? = some summary.name ∧
      summary.instructions = (lexemes tokens).count Keyword.INSTRUCTION.spelling ∧
      summary.statements + 2 * (1 + summary.instructions) =
        (lexemes tokens).countP isIdentifier + (lexemes tokens).count Keyword.THEN.spelling +
          (lexemes tokens).count Keyword.DO.spelling := by
  obtain ⟨program, read, rfl⟩ := (summary_eq_ok_iff source summary).mp accepted
  obtain ⟨tokens, scanned⟩ := exists_tokens_of_program read
  obtain ⟨definitions, words, written, texts⟩ := lexemes_of_program read scanned
  refine ⟨tokens, scanned, ?_⟩
  rw [texts, ← countP_isCounted]
  exact ⟨written.second, written.count_instruction.symm, written.countP_words.symm⟩

/-- A definition, a branch with two bodies and a loop, between comments. -/
def countedPatrol : String :=
  "# 12\nPROGRAM p IS INSTRUCTION a IS IF random THEN move ELSE a END IF END a BEGIN # THEN a\n" ++
    "WHILE true DO END WHILE a END p"

theorem countedPatrol_counts :
    Source.summary countedPatrol = .ok ⟨"p", 1, 5⟩ ∧
      ∃ tokens, tokenize countedPatrol = .ok tokens ∧
        (lexemes tokens)[1]? = some "p" ∧
        1 = (lexemes tokens).count Keyword.INSTRUCTION.spelling ∧
        5 + 2 * (1 + 1) = (lexemes tokens).countP isIdentifier +
          (lexemes tokens).count Keyword.THEN.spelling +
            (lexemes tokens).count Keyword.DO.spelling := by
  have accepted : Source.summary countedPatrol = .ok ⟨"p", 1, 5⟩ := by
    decide +kernel
  exact ⟨accepted, summary_counts_words countedPatrol _ accepted⟩

end Source

end BLang
