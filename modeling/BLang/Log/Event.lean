import BLang.Statement

/-! # Log events

What is worth recording while a source is read. Each statement of a block is recorded with those
before it in the block, a definition with the length of its body and a program with the number of
its definitions. -/
namespace BLang

inductive Event where
  | readingSource (path : String)
  | parsedStatement (earlier : Block)
  | parsedInstruction (name : String) (statements : Nat)
  | parsedProgram (name : String) (instructions : Nat)
  deriving DecidableEq

/-- How much detail an event brings. -/
inductive Level where
  | debug
  | trace
  deriving DecidableEq

namespace Event

def level : Event → Level
  | parsedStatement _ => .trace
  | _ => .debug

/-- The part of the system that reads programs. -/
def programPart : String := "bl_syntax::parser::program"

/-- The part of the system an event comes from. -/
def part : Event → String
  | readingSource _ => "bl_driver"
  | parsedStatement _ => "bl_syntax::parser::stmt"
  | parsedInstruction _ _ => programPart
  | parsedProgram _ _ => programPart

end Event

/-- An event with the number of tokens of the program in whose reading it happened, if there is
one. -/
structure Record where
  scope : Option Nat
  event : Event
  deriving DecidableEq

end BLang
