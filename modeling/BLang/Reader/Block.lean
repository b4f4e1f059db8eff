import BLang.Reader.Statement

/-! # Reading a block

Statements are read one after the other until `END`, `ELSE` or the end marker stands where the next
one would start. That token is left. -/
namespace BLang

/-- The statements read so far, latest first, and the one that is being read. -/
structure Sequence where
  read : List Statement
  nest : Nest
  deriving DecidableEq

namespace Sequence

def start : Sequence := ⟨[], Nest.start⟩

/-- Whether the next token may start a statement or end the block. -/
def atRest (sequence : Sequence) : Bool :=
  decide (sequence.nest = Nest.start)

def step (sequence : Sequence) (token : Token) : Step Sequence Block :=
  if sequence.atRest && token.closesBlock then .done sequence.read.reverse []
  else
    match sequence.nest.step token with
    | .on next events => .on ⟨sequence.read, next⟩ events
    | .done statement events =>
        .on ⟨statement :: sequence.read, Nest.start⟩
          (events ++ [.parsedStatement sequence.read])
    | .refuse error consumed events => .refuse error consumed events

end Sequence

/-- Reads statements as far as they go. -/
def Reader.block : Reader Sequence Block :=
  ⟨Sequence.start, Sequence.step, true⟩

end BLang
