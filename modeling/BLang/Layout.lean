import BLang.Word
import BLang.Program

/-! # Layout

A program, a block or a statement is laid out as lines of words, each line with its indentation.
Bodies stand two spaces further in than the words around them, and an empty line follows the head of
a program and each of its definitions. The text of a layout writes one space between the words of a
line and ends every line. -/
namespace BLang

/-- A line of a layout. -/
structure Row where
  indent : Nat
  words : List String
  deriving DecidableEq

namespace Row

/-- Words with one space between each two. -/
def spaced : List String → List Char
  | [] => []
  | [word] => word.toList
  | word :: rest => word.toList ++ ' ' :: spaced rest

def chars (row : Row) : List Char :=
  List.replicate row.indent ' ' ++ spaced row.words ++ ['\n']

def blank : Row := ⟨0, []⟩

theorem chars_blank : blank.chars = ['\n'] := rfl

end Row

/-- The number of spaces by which a body stands further in. -/
def indentStep : Nat := 2

def textOfRows (rows : List Row) : String :=
  String.ofList (rows.flatMap Row.chars)

mutual

def Statement.rows (indent : Nat) : Statement → List Row
  | .call name => [⟨indent, [name]⟩]
  | .ifThen condition body =>
      ⟨indent, [Keyword.IF.spelling, condition.spelling, Keyword.THEN.spelling]⟩ ::
        Block.rows (indent + indentStep) body ++
        [⟨indent, [Keyword.END.spelling, Keyword.IF.spelling]⟩]
  | .ifThenElse condition body other =>
      ⟨indent, [Keyword.IF.spelling, condition.spelling, Keyword.THEN.spelling]⟩ ::
        Block.rows (indent + indentStep) body ++
        ⟨indent, [Keyword.ELSE.spelling]⟩ ::
        Block.rows (indent + indentStep) other ++
        [⟨indent, [Keyword.END.spelling, Keyword.IF.spelling]⟩]
  | .whileDo condition body =>
      ⟨indent, [Keyword.WHILE.spelling, condition.spelling, Keyword.DO.spelling]⟩ ::
        Block.rows (indent + indentStep) body ++
        [⟨indent, [Keyword.END.spelling, Keyword.WHILE.spelling]⟩]

def Block.rows (indent : Nat) : List Statement → List Row
  | [] => []
  | statement :: rest => statement.rows indent ++ Block.rows indent rest

end

theorem Block.rows_append (indent : Nat) (left right : Block) :
    Block.rows indent (left ++ right) = Block.rows indent left ++ Block.rows indent right := by
  induction left with
  | nil => simp [Block.rows]
  | cons statement rest ih => simp only [List.cons_append, Block.rows, ih, List.append_assoc]

def Statement.text (statement : Statement) (indent : Nat) : String :=
  textOfRows (statement.rows indent)

def Block.text (block : Block) (indent : Nat) : String :=
  textOfRows (Block.rows indent block)

def Instruction.rows (instruction : Instruction) : List Row :=
  ⟨indentStep, [Keyword.INSTRUCTION.spelling, instruction.name, Keyword.IS.spelling]⟩ ::
    Block.rows (2 * indentStep) instruction.body ++
    [⟨indentStep, [Keyword.END.spelling, instruction.name]⟩, Row.blank]

def Program.rows (program : Program) : List Row :=
  [⟨0, [Keyword.PROGRAM.spelling, program.name, Keyword.IS.spelling]⟩, Row.blank] ++
    program.context.entries.flatMap Instruction.rows ++
    ⟨0, [Keyword.BEGIN.spelling]⟩ ::
    Block.rows indentStep program.body ++
    [⟨0, [Keyword.END.spelling, program.name]⟩]

def Program.text (program : Program) : String :=
  textOfRows program.rows

end BLang
