import BLang.Context

/-! # Programs

A program has a name, the instructions it defines and a body. Its summary tells how many
instructions it defines and how many statements it has in all. -/
namespace BLang

structure Program where
  name : String
  context : Context
  body : Block
  deriving DecidableEq

namespace Program

/-- The body of an instruction the program defines. -/
def instruction? (program : Program) (name : String) : Option Block :=
  program.context.get? name

/-- The number of statements in the bodies of definitions, nested ones included. -/
def definitionsSize : List Instruction → Nat
  | [] => 0
  | entry :: rest => Block.size entry.body + definitionsSize rest

/-- The statements of the body and of all instruction bodies, nested ones included. -/
def size (program : Program) : Nat :=
  definitionsSize program.context.entries + Block.size program.body

end Program

structure Summary where
  name : String
  instructions : Nat
  statements : Nat
  deriving DecidableEq

def Program.summary (program : Program) : Summary :=
  ⟨program.name, program.context.size, program.size⟩

end BLang
