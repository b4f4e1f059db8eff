import BLang.Program
import BLang.Reader.Instruction

/-! # Reading a program

A program is `PROGRAM`, a name, `IS`, definitions, `BEGIN`, a block, `END` and the name again, and
nothing but the end marker may follow. A definition is compared with the earlier ones once it is
complete; a second one of the same name is refused at its last token, and the place of the error is
its first. -/
namespace BLang

/-- What comes next in a program, with what has been read of it. -/
inductive Draft where
  | atKeyword
  | atName
  | atIs (name : String)
  | atTable (name : String) (context : Context)
  | inDefinition (name : String) (context : Context) (start : Span) (current : Definition)
  | inBody (name : String) (context : Context) (sequence : Sequence)
  | atLabel (name : String) (context : Context) (body : Block)
  | atEnd (program : Program)
  deriving DecidableEq

namespace Draft

def step (draft : Draft) (token : Token) : Step Draft Program :=
  match draft with
  | atKeyword => Step.expect Keyword.PROGRAM.spelling token (.on atName [])
  | atName => Step.identifier token (.on (atIs token.lexeme) [])
  | atIs name => Step.expect Keyword.IS.spelling token (.on (atTable name Context.empty) [])
  | atTable name context =>
      if token.isKeyword .INSTRUCTION then
        .on (inDefinition name context token.span Definition.atName) []
      else
        Step.expect Keyword.BEGIN.spelling token (.on (inBody name context Sequence.start) [])
  | inDefinition name context start current =>
      match current.step token with
      | .on next events => .on (inDefinition name context start next) events
      | .done instruction events =>
          if context.contains instruction.name then
            .refuse (.duplicateInstruction instruction.name start) true events
          else .on (atTable name (context.insert instruction)) events
      | .refuse error consumed events => .refuse error consumed events
  | inBody name context sequence =>
      match sequence.step token with
      | .on next events => .on (inBody name context next) events
      | .done block _ =>
          Step.expect Keyword.END.spelling token (.on (atLabel name context block) [])
      | .refuse error consumed events => .refuse error consumed events
  | atLabel name context block =>
      Step.label name token (.on (atEnd ⟨name, context, block⟩) [])
  | atEnd program =>
      if token.isEnd then .done program [.parsedProgram program.name program.context.size]
      else .refuse (.trailingInput token) false []

end Draft

/-- Reads a program up to the end marker. -/
def Reader.program : Reader Draft Program :=
  ⟨Draft.atKeyword, Draft.step, true⟩

end BLang
