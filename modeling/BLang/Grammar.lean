import BLang.Layout

/-! # The grammar

The words of a statement, a block, a definition and a program in the order in which they are
written, and the names that make them readable again. Reading and printing are both measured against
these sequences. -/
namespace BLang

mutual

def Statement.words : Statement → List String
  | .call name => [name]
  | .ifThen condition body =>
      [Keyword.IF.spelling, condition.spelling, Keyword.THEN.spelling] ++ Block.words body ++
        [Keyword.END.spelling, Keyword.IF.spelling]
  | .ifThenElse condition body other =>
      [Keyword.IF.spelling, condition.spelling, Keyword.THEN.spelling] ++ Block.words body ++
        Keyword.ELSE.spelling :: Block.words other ++
        [Keyword.END.spelling, Keyword.IF.spelling]
  | .whileDo condition body =>
      [Keyword.WHILE.spelling, condition.spelling, Keyword.DO.spelling] ++ Block.words body ++
        [Keyword.END.spelling, Keyword.WHILE.spelling]

def Block.words : List Statement → List String
  | [] => []
  | statement :: rest => statement.words ++ Block.words rest

end

theorem Block.words_append (left right : Block) :
    Block.words (left ++ right) = Block.words left ++ Block.words right := by
  induction left with
  | nil => simp [Block.words]
  | cons statement rest ih => simp only [List.cons_append, Block.words, ih, List.append_assoc]

mutual

/-- Every call, at any depth, has an identifier for its name. -/
def Statement.WellNamed : Statement → Prop
  | .call name => isIdentifier name = true
  | .ifThen _ body => Block.WellNamed body
  | .ifThenElse _ body other => Block.WellNamed body ∧ Block.WellNamed other
  | .whileDo _ body => Block.WellNamed body

def Block.WellNamed : List Statement → Prop
  | [] => True
  | statement :: rest => statement.WellNamed ∧ Block.WellNamed rest

end

mutual

/-- Whether every call of a statement is well named, decided part by part. -/
def Statement.decideWellNamed : (statement : Statement) → Decidable statement.WellNamed
  | .call name => inferInstanceAs (Decidable (isIdentifier name = true))
  | .ifThen _ body => Block.decideWellNamed body
  | .ifThenElse _ body other =>
      @instDecidableAnd _ _ (Block.decideWellNamed body) (Block.decideWellNamed other)
  | .whileDo _ body => Block.decideWellNamed body

def Block.decideWellNamed : (block : List Statement) → Decidable (Block.WellNamed block)
  | [] => isTrue trivial
  | statement :: rest =>
      @instDecidableAnd _ _ statement.decideWellNamed (Block.decideWellNamed rest)

end

instance (statement : Statement) : Decidable statement.WellNamed :=
  statement.decideWellNamed

instance (block : Block) : Decidable (Block.WellNamed block) :=
  Block.decideWellNamed block

theorem Block.wellNamed_append (left right : Block) :
    Block.WellNamed (left ++ right) ↔ Block.WellNamed left ∧ Block.WellNamed right := by
  induction left with
  | nil => simp [Block.WellNamed]
  | cons statement rest ih => simp only [List.cons_append, Block.WellNamed, ih, and_assoc]

namespace Instruction

def words (instruction : Instruction) : List String :=
  [Keyword.INSTRUCTION.spelling, instruction.name, Keyword.IS.spelling] ++
    Block.words instruction.body ++ [Keyword.END.spelling, instruction.name]

/-- The name may be defined and the calls of the body are well named. -/
def WellNamed (instruction : Instruction) : Prop :=
  isIdentifier instruction.name = true ∧ isPrimitive instruction.name = false ∧
    Block.WellNamed instruction.body

instance (instruction : Instruction) : Decidable instruction.WellNamed :=
  inferInstanceAs (Decidable (_ ∧ _ ∧ _))

end Instruction

namespace Program

/-- The words of a program whose definitions are written in the given order. -/
def wordsWith (name : String) (definitions : List Instruction) (body : Block) : List String :=
  [Keyword.PROGRAM.spelling, name, Keyword.IS.spelling] ++
    definitions.flatMap Instruction.words ++ Keyword.BEGIN.spelling :: Block.words body ++
    [Keyword.END.spelling, name]

def words (program : Program) : List String :=
  wordsWith program.name program.context.entries program.body

def WellNamed (program : Program) : Prop :=
  isIdentifier program.name = true ∧
    (∀ entry ∈ program.context.entries, entry.WellNamed) ∧ Block.WellNamed program.body

instance (program : Program) : Decidable program.WellNamed :=
  inferInstanceAs (Decidable (_ ∧ _ ∧ _))

end Program

end BLang
