import BLang.Files
import BLang.Layout
import BLang.Diagnostic.Emitter
import BLang.Reader.Program
import BLang.Reader.Single

/-! # Compiling a source

A source is scanned, and its tokens are read as a program, a statement or a block. A scan that fails
decides before anything is read. A statement or a block must be followed by the end marker; a
program looks for it by itself. What happens while a source is read is recorded apart from the
result. -/
namespace BLang

inductive CompileError where
  | lexical (error : LexError)
  | syntactic (error : ParseError)
  | unreadable (error : ReadError)
  deriving DecidableEq

namespace CompileError

def message : CompileError → String
  | lexical error => "Lexical error: " ++ error.message
  | syntactic error => "Parse error: " ++ error.message
  | unreadable error => "IO error: " ++ error.message

def bareDiagnostic : CompileError → Diagnostic
  | lexical error => error.diagnostic
  | syntactic error => error.diagnostic
  | unreadable error => Diagnostic.error ("IO error: " ++ error.message)

def diagnostic (error : CompileError) : Option String → Diagnostic
  | some file => error.bareDiagnostic.withFile file
  | none => error.bareDiagnostic

/-- The error shown in its source, or without one. -/
def report (error : CompileError) (emitter : Emitter) (file source : Option String) :
    Except Breach String :=
  match source with
  | some source => emitter.reportIn (error.diagnostic file) source
  | none => .ok (emitter.report (error.diagnostic file))

end CompileError

namespace Source

def tokens (source : String) : Except CompileError (List Token) :=
  (tokenize source).mapError .lexical

/-- The value a reader finds in tokens that hold nothing else. -/
def onlyValue {σ α : Type} (reader : Reader σ α) (tokens : List Token) : Except ParseError α :=
  let outcome := reader.run tokens
  match outcome.result with
  | .error error => .error error
  | .ok value => (Reader.endOfInput.run outcome.rest).result.map fun _ => value

def program (source : String) : Except CompileError Program :=
  tokens source >>= fun tokens => (Reader.program.run tokens).result.mapError .syntactic

def statement (source : String) : Except CompileError Statement :=
  tokens source >>= fun tokens => (onlyValue Reader.statement tokens).mapError .syntactic

def block (source : String) : Except CompileError Block :=
  tokens source >>= fun tokens => (onlyValue Reader.block tokens).mapError .syntactic

def summary (source : String) : Except CompileError Summary :=
  (program source).map Program.summary

/-- What happens while a source is read as a program, with the number of its tokens. -/
def programRecords (source : String) : List Record :=
  match tokens source with
  | .error _ => []
  | .ok tokens => (Reader.program.events tokens).map fun event => ⟨some tokens.length, event⟩

/-- What happens while a source is read as a statement. -/
def statementRecords (source : String) : List Record :=
  match tokens source with
  | .error _ => []
  | .ok tokens => (Reader.statement.events tokens).map fun event => ⟨none, event⟩

/-- The text of a file. -/
def load (files : FileAccess) (path : String) : Except CompileError String :=
  (files path >>= decodeText).mapError .unreadable

def programOfFile (files : FileAccess) (path : String) : Except CompileError Program :=
  load files path >>= program

def statementOfFile (files : FileAccess) (path : String) : Except CompileError Statement :=
  load files path >>= statement

end Source

end BLang
