import BLang.Context
import BLang.Reader.Block

/-! # Reading a definition

A definition is `INSTRUCTION`, a name, `IS`, a block, `END` and the name again. The name must be an
identifier and must not be primitive. -/
namespace BLang

/-- What comes next in a definition, with what has been read of it. -/
inductive Definition where
  | atKeyword
  | atName
  | atIs (name : String)
  | inBody (name : String) (sequence : Sequence)
  | atLabel (name : String) (body : Block)
  deriving DecidableEq

/-- A token that must be an identifier. -/
def Step.identifier {σ α : Type} (token : Token) (step : Step σ α) : Step σ α :=
  if isIdentifier token.lexeme then step else .refuse (.invalidIdentifier token) true []

/-- A token that must repeat the name with which the closed part was opened. -/
def Step.label {σ α : Type} (name : String) (token : Token) (step : Step σ α) : Step σ α :=
  if token.is name then step else .refuse (.mismatchedLabel name token) true []

namespace Definition

def step (definition : Definition) (token : Token) : Step Definition Instruction :=
  match definition with
  | atKeyword => Step.expect Keyword.INSTRUCTION.spelling token (.on atName [])
  | atName =>
      Step.identifier token
        (if isPrimitive token.lexeme then .refuse (.primitiveRedefinition token) true []
        else .on (atIs token.lexeme) [])
  | atIs name => Step.expect Keyword.IS.spelling token (.on (inBody name Sequence.start) [])
  | inBody name sequence =>
      match sequence.step token with
      | .on next events => .on (inBody name next) events
      | .done block _ => Step.expect Keyword.END.spelling token (.on (atLabel name block) [])
      | .refuse error consumed events => .refuse error consumed events
  | atLabel name block =>
      Step.label name token (.done ⟨name, block⟩ [.parsedInstruction name block.length])

end Definition

/-- Reads one definition. -/
def Reader.instruction : Reader Definition Instruction :=
  ⟨Definition.atKeyword, Definition.step, false⟩

end BLang
