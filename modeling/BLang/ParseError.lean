import BLang.Text.Fields
import BLang.Diagnostic
import BLang.Token.Scanner

/-! # Parse errors

Why tokens are not a statement, a block, a definition or a program. Every error but the last is
about one token of the source; for a second definition of a name that is the word `INSTRUCTION` with
which it starts, so the error holds the name and that place. -/
namespace BLang

inductive ParseError where
  | unexpected (expected : String) (found : Token)
  | invalidCondition (found : Token)
  | invalidIdentifier (found : Token)
  | primitiveRedefinition (name : Token)
  | duplicateInstruction (name : String) (span : Span)
  | mismatchedLabel (expected : String) (found : Token)
  | trailingInput (found : Token)
  | endOfStream
  deriving DecidableEq

/-- A text between single quotes. -/
def quoted (text : String) : String :=
  "'" ++ text ++ "'"

namespace ParseError

def message : ParseError → String
  | unexpected expected found => "expected " ++ expected ++ ", found " ++ quoted found.lexeme
  | invalidCondition found => quoted found.lexeme ++ " is not a valid condition"
  | invalidIdentifier found => quoted found.lexeme ++ " is not a valid identifier"
  | primitiveRedefinition name => "cannot redefine primitive instruction " ++ quoted name.lexeme
  | duplicateInstruction name _ => "instruction " ++ quoted name ++ " is already defined"
  | mismatchedLabel expected found =>
      "closing label " ++ quoted found.lexeme ++ " does not match " ++ quoted expected
  | trailingInput found => "unexpected " ++ quoted found.lexeme ++ " after end of program"
  | endOfStream => "token stream ended without an end-of-input marker"

def span? : ParseError → Option Span
  | unexpected _ found => some found.span
  | invalidCondition found => some found.span
  | invalidIdentifier found => some found.span
  | primitiveRedefinition name => some name.span
  | duplicateInstruction _ span => some span
  | mismatchedLabel _ found => some found.span
  | trailingInput found => some found.span
  | endOfStream => none

/-- The diagnostic before anything is said beyond the message and the place. -/
def bareDiagnostic (error : ParseError) : Diagnostic :=
  { Diagnostic.error error.message with span := error.span? }

def diagnostic (error : ParseError) : Diagnostic :=
  let bare := error.bareDiagnostic
  match error with
  | unexpected expected _ => bare.withLabel ("expected " ++ expected ++ " here")
  | invalidCondition _ =>
      (bare.withLabel "not a condition").withNote
        "conditions look like 'next-is-empty', 'random' or 'less-or-equal'"
  | invalidIdentifier _ =>
      (bare.withLabel "not an identifier").withNote
        "identifiers start with a letter and contain only letters, digits and '-'"
  | primitiveRedefinition _ =>
      (bare.withLabel "primitive instruction").withNote
        ("primitive instructions: " ++ Text.joined ", " primitives)
  | duplicateInstruction _ _ =>
      (bare.withLabel "second definition starts here").withHelp "rename one of the instructions"
  | mismatchedLabel expected _ =>
      (bare.withLabel ("expected " ++ quoted expected)).withHelp
        ("close the block with 'END " ++ expected ++ "'")
  | trailingInput _ => bare.withLabel "nothing may follow the program"
  | endOfStream =>
      bare.withNote "the tokenizer must terminate the stream with the end-of-input marker"

theorem diagnostic_message (error : ParseError) : error.diagnostic.message = error.message := by
  cases error <;> rfl

theorem diagnostic_span (error : ParseError) : error.diagnostic.span = error.span? := by
  cases error <;> rfl

end ParseError

def LexError.diagnostic (error : LexError) : Diagnostic :=
  ((Diagnostic.error error.message).withSpan error.span).withLabel "unrecognized input"

end BLang
