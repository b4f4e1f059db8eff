import BLang.Statement
import BLang.Reader

/-! # Reading a statement

The state of reading is the nest of unfinished statements around the current place, innermost first,
and what comes next there. A frame of the nest holds what is known of an unfinished statement and
the statements of its current body, latest first. A finished statement joins the body around it, or
is the result when there is none. -/
namespace BLang

/-- The two kinds of statements that have bodies. -/
inductive Form where
  | conditional
  | loop
  deriving DecidableEq

namespace Form

/-- The keyword that starts the statement and ends it after `END`. -/
def keyword : Form → Keyword
  | conditional => .IF
  | loop => .WHILE

/-- The keyword between the condition and the body. -/
def opener : Form → Keyword
  | conditional => .THEN
  | loop => .DO

end Form

/-- The part of an unfinished statement before its current body. -/
inductive Head where
  | thenBranch (condition : Condition)
  | elseBranch (condition : Condition) (body : Block)
  | loop (condition : Condition)
  deriving DecidableEq

def Form.head : Form → Condition → Head
  | conditional, condition => .thenBranch condition
  | loop, condition => .loop condition

structure Frame where
  head : Head
  read : List Statement
  deriving DecidableEq

/-- What comes next in the innermost frame. -/
inductive Phase where
  | item
  | condition (form : Form)
  | opener (form : Form) (condition : Condition)
  | closer (form : Form) (statement : Statement)
  deriving DecidableEq

structure Nest where
  around : List Frame
  phase : Phase
  deriving DecidableEq

namespace Nest

def start : Nest := ⟨[], .item⟩

/-- Hands a finished statement to the frames around it. -/
def finish (statement : Statement) : List Frame → Step Nest Statement
  | [] => .done statement []
  | frame :: outer =>
      .on ⟨⟨frame.head, statement :: frame.read⟩ :: outer, .item⟩
        [.parsedStatement frame.read]

/-- A token that must start a statement. -/
def enter (around : List Frame) (token : Token) : Step Nest Statement :=
  if token.isKeyword .WHILE then .on ⟨around, .condition .loop⟩ []
  else if token.isKeyword .IF then .on ⟨around, .condition .conditional⟩ []
  else if isIdentifier token.lexeme then finish (.call token.lexeme) around
  else .refuse (.unexpected "identifier, 'IF' or 'WHILE'" token) false []

/-- A token that closes the current body of the innermost frame. -/
def close (frame : Frame) (outer : List Frame) (token : Token) : Step Nest Statement :=
  let body := frame.read.reverse
  match frame.head with
  | .thenBranch condition =>
      if token.isKeyword .ELSE then .on ⟨⟨.elseBranch condition body, []⟩ :: outer, .item⟩ []
      else if token.isKeyword .END then
        .on ⟨outer, .closer .conditional (.ifThen condition body)⟩ []
      else .refuse (.unexpected "'ELSE' or 'END'" token) true []
  | .elseBranch condition first =>
      Step.expect Keyword.END.spelling token
        (.on ⟨outer, .closer .conditional (.ifThenElse condition first body)⟩ [])
  | .loop condition =>
      Step.expect Keyword.END.spelling token
        (.on ⟨outer, .closer .loop (.whileDo condition body)⟩ [])

def step (nest : Nest) (token : Token) : Step Nest Statement :=
  match nest.phase with
  | .item =>
      match nest.around with
      | [] => enter [] token
      | frame :: outer =>
          if token.closesBlock then close frame outer token else enter (frame :: outer) token
  | .condition form =>
      match Condition.ofSpelling? token.lexeme with
      | some condition => .on ⟨nest.around, .opener form condition⟩ []
      | none => .refuse (.invalidCondition token) true []
  | .opener form condition =>
      Step.expect form.opener.spelling token
        (.on ⟨⟨form.head condition, []⟩ :: nest.around, .item⟩ [])
  | .closer form statement =>
      Step.expect form.keyword.spelling token (finish statement nest.around)

end Nest

/-- Reads one statement. -/
def Reader.statement : Reader Nest Statement :=
  ⟨Nest.start, Nest.step, false⟩

end BLang
