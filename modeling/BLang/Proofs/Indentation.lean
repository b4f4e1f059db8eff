import BLang.Proofs.Lexis
import BLang.Proofs.RoundTrip

/-!
# Indentation

A statement that stands further in has the same rows, each with more spaces before its words.  The
text of a row is one line unless one of its words breaks it, and the only words that can do so are
the names of calls.  So a text is moved line by line exactly if no call in it has a newline in its
name, and the bodies of a program are the texts of their blocks moved by four and by two.
-/

namespace BLang

namespace Text

/-! ## Lines of a text -/

/-- The characters with spaces before every line.  A line begins after every newline, and with the
first character if `fresh` says so. -/
def indentLines (indent : Nat) (fresh : Bool) : List Char → List Char
  | [] => []
  | char :: rest =>
      (if fresh then List.replicate indent ' ' else []) ++
        char :: indentLines indent (char == '\n') rest

/-- The text with spaces before every line. -/
def indented (indent : Nat) (text : String) : String :=
  String.ofList (indentLines indent true text.toList)

def OneLine (text : String) : Prop :=
  '\n' ∉ text.toList

instance (text : String) : Decidable (OneLine text) :=
  inferInstanceAs (Decidable (_ ∉ _))

/-- The last line of the text, too, ends with a newline. -/
def EndsLines (text : String) : Prop :=
  ∀ last, text.toList.getLast? = some last → last = '\n'

variable {indent : Nat} {line : List Char}

theorem indentLines_line (single : '\n' ∉ line) (fresh : Bool) (rest : List Char) :
    indentLines indent fresh (line ++ '\n' :: rest) =
      (if fresh then List.replicate indent ' ' else []) ++ line ++
        '\n' :: indentLines indent true rest := by
  induction line generalizing fresh with
  | nil => simp [indentLines]
  | cons char tail ih =>
      obtain ⟨other, later⟩ := List.ne_and_not_mem_of_not_mem_cons single
      have inside : (char == '\n') = false := beq_false_of_ne other.symm
      simp [indentLines, inside, ih later]

theorem indentLines_zero (fresh : Bool) (chars : List Char) : indentLines 0 fresh chars = chars := by
  induction chars generalizing fresh with
  | nil => rfl
  | cons char rest ih => simp [indentLines, ih]

theorem indented_zero (text : String) : indented 0 text = text := by
  rw [indented, indentLines_zero, String.ofList_toList]

/-- Every newline begins a line but the last, so spaces are put before as many lines as there are
newlines. -/
theorem length_indentLines (line : List Char) (fresh : Bool) (rest : List Char) :
    (indentLines indent fresh (line ++ '\n' :: rest)).length =
      (if fresh then indent else 0) + line.length + 1 + indent * line.count '\n' +
        (indentLines indent true rest).length := by
  induction line generalizing fresh with
  | nil => cases fresh <;> simp [indentLines, Nat.add_assoc, Nat.add_comm]
  | cons char tail ih =>
      have lines : indent * (char :: tail).count '\n' =
          (if char == '\n' then indent else 0) + indent * tail.count '\n' := by
        rw [List.count_cons, Nat.mul_add, Nat.add_comm]
        split <;> simp
      rw [lines, List.cons_append, indentLines, List.length_append, List.length_cons, ih,
        List.length_cons]
      cases fresh <;> simp <;> omega

end Text

open Text

/-! ## Rows -/

namespace Row

/-- The row with more spaces before its words. -/
def shifted (indent : Nat) (row : Row) : Row :=
  ⟨indent + row.indent, row.words⟩

theorem chars_shifted (indent : Nat) (row : Row) :
    (row.shifted indent).chars = List.replicate indent ' ' ++ row.chars := by
  simp only [shifted, chars, ← List.replicate_append_replicate, List.append_assoc]

theorem shifted_zero : shifted 0 = id :=
  funext fun row => congrArg (Row.mk · row.words) (Nat.zero_add row.indent)

/-- A newline in a row is one in its words. -/
theorem newline_mem_spaced_iff (words : List String) :
    '\n' ∈ spaced words ↔ ∃ word ∈ words, '\n' ∈ word.toList := by
  induction words with
  | nil => simp [spaced]
  | cons word rest ih =>
      cases rest with
      | nil => simp [spaced]
      | cons next later => simp [spaced, ih]

end Row

theorem textOfRows_append (left right : List Row) :
    textOfRows (left ++ right) = textOfRows left ++ textOfRows right := by
  rw [textOfRows, List.flatMap_append, String.ofList_append]
  rfl

theorem endsLines_textOfRows (rows : List Row) : EndsLines (textOfRows rows) := by
  intro last found
  rw [textOfRows, String.toList_ofList] at found
  induction rows using List.reverseRecOn with
  | nil => cases found
  | append_singleton rows row _ =>
      rw [List.flatMap_append, List.flatMap_singleton, Row.chars, ← List.append_assoc,
        List.getLast?_concat] at found
      exact (Option.some.inj found).symm

/-- Rows without newlines in their words are moved as lines. -/
theorem textOfRows_shifted (indent : Nat) {rows : List Row}
    (single : ∀ row ∈ rows, '\n' ∉ Row.spaced row.words) :
    textOfRows (rows.map (Row.shifted indent)) = indented indent (textOfRows rows) := by
  rw [textOfRows, indented, textOfRows, String.toList_ofList]
  congr 1
  induction rows with
  | nil => rfl
  | cons row rest ih =>
      obtain ⟨first, others⟩ := List.forall_mem_cons.mp single
      have line : '\n' ∉ List.replicate row.indent ' ' ++ Row.spaced row.words := by
        simp [first]
      rw [List.map_cons, List.flatMap_cons, List.flatMap_cons, ih others, Row.chars_shifted,
        Row.chars, List.append_assoc _ ['\n'], List.singleton_append, indentLines_line line]
      simp

/-- A newline in the words of a row makes one more line to be moved, which the row is not. -/
theorem length_indentLines_rows (indent : Nat) (rows : List Row) :
    (indentLines indent true (rows.flatMap Row.chars)).length =
      ((rows.map (Row.shifted indent)).flatMap Row.chars).length +
        indent * (rows.flatMap fun row => Row.spaced row.words).count '\n' := by
  induction rows with
  | nil => rfl
  | cons row rest ih =>
      have margin : (List.replicate row.indent ' ').count '\n' = 0 :=
        List.count_eq_zero_of_not_mem (by simp)
      rw [List.flatMap_cons, Row.chars, List.append_assoc _ ['\n'], List.singleton_append,
        length_indentLines, ih, List.map_cons, List.flatMap_cons, List.length_append,
        Row.chars_shifted, List.flatMap_cons, List.count_append, List.count_append, margin,
        Row.chars]
      simp [Nat.mul_add]
      omega

/-- Rows are moved as lines exactly if no word of them breaks its line. -/
theorem textOfRows_shifted_iff (indent : Nat) (rows : List Row) :
    textOfRows (rows.map (Row.shifted indent)) = indented indent (textOfRows rows) ↔
      indent = 0 ∨ ∀ word ∈ rows.flatMap Row.words, OneLine word := by
  have rowWise : (∀ row ∈ rows, '\n' ∉ Row.spaced row.words) ↔
      ∀ word ∈ rows.flatMap Row.words, OneLine word := by
    simp only [Row.newline_mem_spaced_iff, List.mem_flatMap, OneLine]
    grind
  rw [← rowWise]
  constructor
  · intro same
    refine (Nat.eq_zero_or_pos indent).imp id fun moved row member newline => ?_
    have lengths := congrArg (fun text => text.toList.length) same
    simp only [textOfRows, indented, String.toList_ofList, length_indentLines_rows] at lengths
    have newlines : indent * (rows.flatMap fun row => Row.spaced row.words).count '\n' = 0 := by
      omega
    have none := (Nat.mul_eq_zero.mp newlines).resolve_left moved.ne'
    exact List.count_eq_zero.mp none (List.mem_flatMap.mpr ⟨row, member, newline⟩)
  · rintro (rfl | single)
    · rw [indented_zero, Row.shifted_zero, List.map_id]
    · exact textOfRows_shifted indent single

/-! ## Statements -/

mutual

/-- The names of the calls in a statement, at any depth. -/
def Statement.calls : Statement → List String
  | .call name => [name]
  | .ifThen _ body => Block.calls body
  | .ifThenElse _ body other => Block.calls body ++ Block.calls other
  | .whileDo _ body => Block.calls body

def Block.calls : List Statement → List String
  | [] => []
  | statement :: rest => statement.calls ++ Block.calls rest

end

theorem oneLine_of_isWord {text : String} (word : isWord text.toList = true) : OneLine text := by
  intro newline
  have part := isWordPart_of_isWord word '\n' newline
  exact absurd part (by decide)

@[simp] theorem oneLine_keyword (keyword : Keyword) : OneLine keyword.spelling :=
  oneLine_of_isWord (isWord_keyword keyword)

@[simp] theorem oneLine_condition (condition : Condition) : OneLine condition.spelling :=
  oneLine_of_isWord (isWord_condition condition)

mutual

/-- Of the words of a statement only the names of its calls can break a line. -/
theorem Statement.oneLine_words_iff :
    (statement : Statement) →
      ((∀ word ∈ statement.words, OneLine word) ↔ ∀ name ∈ statement.calls, OneLine name)
  | .call name => Iff.rfl
  | .ifThen condition body => by
      simp [Statement.words, Statement.calls, ← Block.oneLine_words_iff body, or_imp, forall_and]
  | .ifThenElse condition body other => by
      simp [Statement.words, Statement.calls, ← Block.oneLine_words_iff body,
        ← Block.oneLine_words_iff other, or_imp, forall_and]
  | .whileDo condition body => by
      simp [Statement.words, Statement.calls, ← Block.oneLine_words_iff body, or_imp, forall_and]

theorem Block.oneLine_words_iff :
    (block : List Statement) →
      ((∀ word ∈ Block.words block, OneLine word) ↔ ∀ name ∈ Block.calls block, OneLine name)
  | [] => Iff.rfl
  | statement :: rest => by
      simp only [Block.words, Block.calls, List.forall_mem_append, statement.oneLine_words_iff,
        Block.oneLine_words_iff rest]

end

mutual

/-- Further in, a statement has the same rows with more spaces. -/
theorem Statement.rows_shifted (further indent : Nat) :
    (statement : Statement) →
      statement.rows (further + indent) = (statement.rows indent).map (Row.shifted further)
  | .call name => rfl
  | .ifThen condition body => by
      simp [Statement.rows, Row.shifted, Nat.add_assoc,
        Block.rows_shifted further (indent + indentStep) body]
  | .ifThenElse condition body other => by
      simp [Statement.rows, Row.shifted, Nat.add_assoc,
        Block.rows_shifted further (indent + indentStep) body,
        Block.rows_shifted further (indent + indentStep) other]
  | .whileDo condition body => by
      simp [Statement.rows, Row.shifted, Nat.add_assoc,
        Block.rows_shifted further (indent + indentStep) body]

theorem Block.rows_shifted (further indent : Nat) :
    (block : List Statement) →
      Block.rows (further + indent) block = (Block.rows indent block).map (Row.shifted further)
  | [] => rfl
  | statement :: rest => by
      rw [Block.rows, Block.rows, List.map_append, statement.rows_shifted further indent,
        Block.rows_shifted further indent rest]

end

theorem Statement.text_eq_indented_iff (statement : Statement) (indent : Nat) :
    statement.text indent = indented indent (statement.text 0) ↔
      indent = 0 ∨ ∀ name ∈ statement.calls, OneLine name := by
  rw [← statement.oneLine_words_iff, ← statement.rows_words 0, ← textOfRows_shifted_iff,
    ← statement.rows_shifted indent 0]
  rfl

theorem Block.text_eq_indented_iff (block : Block) (indent : Nat) :
    Block.text block indent = indented indent (Block.text block 0) ↔
      indent = 0 ∨ ∀ name ∈ Block.calls block, OneLine name := by
  rw [← Block.oneLine_words_iff block, ← Block.rows_words 0 block, ← textOfRows_shifted_iff,
    ← Block.rows_shifted indent 0 block]
  rfl

/-! ## Programs -/

theorem Instruction.text_eq (instruction : Instruction) :
    textOfRows instruction.rows = "  INSTRUCTION " ++ instruction.name ++ " IS\n" ++
      Block.text instruction.body 4 ++ "  END " ++ instruction.name ++ "\n" ++ "\n" := by
  apply String.toList_injective
  simp [rows, textOfRows, Block.text, Row.chars, Row.spaced, Row.blank, indentStep,
    Keyword.spelling]

namespace Program

variable (program : Program)

/-- The text of a program ends with its body, two columns further in than the words around it. -/
theorem exists_text_body : ∃ before, program.text =
    before ++ ("BEGIN\n" ++ Block.text program.body 2 ++ "END " ++ program.name ++ "\n") := by
  refine ⟨textOfRows ([⟨0, [Keyword.PROGRAM.spelling, program.name, Keyword.IS.spelling]⟩,
    Row.blank] ++ program.context.entries.flatMap Instruction.rows), ?_⟩
  rw [text, rows, List.append_assoc, textOfRows_append]
  congr 1
  apply String.toList_injective
  simp [textOfRows, Block.text, Row.chars, Row.spaced, indentStep, Keyword.spelling]

variable {program}

theorem rows_infix {entry : Instruction} (member : entry ∈ program.context.entries) :
    entry.rows <:+: program.rows := by
  obtain ⟨earlier, later, split⟩ := List.append_of_mem member
  have listed : entry.rows <:+: program.context.entries.flatMap Instruction.rows := by
    rw [split, List.flatMap_append, List.flatMap_cons]
    exact List.infix_append' _ _ _
  exact (listed.trans (List.infix_append _ _ _)).trans (List.prefix_append _ _).isInfix

/-- The text of a program holds the body of each definition, four columns further in. -/
theorem exists_text_definition {entry : Instruction} (member : entry ∈ program.context.entries) :
    ∃ before after, program.text = before ++ ("  INSTRUCTION " ++ entry.name ++ " IS\n" ++
      Block.text entry.body 4 ++ "  END " ++ entry.name ++ "\n") ++ after := by
  obtain ⟨before, after, whole⟩ := rows_infix member
  refine ⟨textOfRows before, "\n" ++ textOfRows after, ?_⟩
  rw [text, ← whole, textOfRows_append, textOfRows_append, entry.text_eq]
  simp only [String.append_assoc]

end Program

/-- However far it stands in, the text of a statement or a block is the text without indentation
with that many spaces before every line, and every line ends with a newline.  This is so exactly if
nothing is to be moved or no call has a newline in its name.  So the bodies of definitions and of
the program stand in the text of a program as the texts of their blocks, by four and by two spaces
further in. -/
theorem indentation_shifts_lines :
    (∀ (statement : Statement) (indent : Nat),
      (statement.text indent = indented indent (statement.text 0) ↔
        indent = 0 ∨ ∀ name ∈ statement.calls, OneLine name) ∧
      EndsLines (statement.text indent)) ∧
    (∀ (block : Block) (indent : Nat),
      (Block.text block indent = indented indent (Block.text block 0) ↔
        indent = 0 ∨ ∀ name ∈ Block.calls block, OneLine name) ∧
      EndsLines (Block.text block indent)) ∧
    ∀ program : Program,
      (∀ entry ∈ program.context.entries, (∀ name ∈ Block.calls entry.body, OneLine name) →
        ∃ before after, program.text = before ++ ("  INSTRUCTION " ++ entry.name ++ " IS\n" ++
          indented 4 (Block.text entry.body 0) ++ "  END " ++ entry.name ++ "\n") ++ after) ∧
      ((∀ name ∈ Block.calls program.body, OneLine name) →
        ∃ before, program.text = before ++ ("BEGIN\n" ++
          indented 2 (Block.text program.body 0) ++ "END " ++ program.name ++ "\n")) := by
  refine ⟨fun statement indent => ⟨statement.text_eq_indented_iff indent, ?_⟩,
    fun block indent => ⟨Block.text_eq_indented_iff block indent, ?_⟩, fun program => ⟨?_, ?_⟩⟩
  · exact endsLines_textOfRows _
  · exact endsLines_textOfRows _
  · intro entry member single
    rw [← (Block.text_eq_indented_iff entry.body 4).mpr (Or.inr single)]
    exact Program.exists_text_definition member
  · intro single
    rw [← (Block.text_eq_indented_iff program.body 2).mpr (Or.inr single)]
    exact program.exists_text_body

namespace Program

def look : Instruction :=
  ⟨"look", [.ifThenElse .nextIsEmpty [.call "move"] []]⟩

def sentry : Program :=
  ⟨"sentry", Context.ofList [look], [.whileDo .always [.call "look"]]⟩

/-- The two bodies of a program are moved, and the lines of a call that breaks its own are not. -/
theorem sentry_indented :
    look ∈ sentry.context.entries ∧
    (∃ before after, sentry.text = before ++ ("  INSTRUCTION " ++ "look" ++ " IS\n" ++
      indented 4 "IF next-is-empty THEN\n  move\nELSE\nEND IF\n" ++ "  END " ++ "look" ++ "\n") ++
        after) ∧
    (∃ before, sentry.text = before ++ ("BEGIN\n" ++
      indented 2 "WHILE true DO\n  look\nEND WHILE\n" ++ "END " ++ "sentry" ++ "\n")) ∧
    indented 2 "WHILE true DO\n  look\nEND WHILE\n" =
      "  WHILE true DO\n    look\n  END WHILE\n" ∧
    (Statement.call "turn\nback").text 1 ≠ indented 1 ((Statement.call "turn\nback").text 0) := by
  obtain ⟨statements, _, programs⟩ := indentation_shifts_lines
  obtain ⟨definitions, body⟩ := programs sentry
  have listed : look ∈ sentry.context.entries := by decide
  refine ⟨listed, definitions look listed (by decide), body (by decide), by decide +kernel, ?_⟩
  rw [Ne, (statements (.call "turn\nback") 1).1]
  decide

end Program

end BLang
