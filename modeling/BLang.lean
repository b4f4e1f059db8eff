import BLang.Breach
import BLang.Command.Arguments
import BLang.Command.Run
import BLang.Command.Usage
import BLang.Condition
import BLang.Context
import BLang.Diagnostic
import BLang.Diagnostic.Emitter
import BLang.Diagnostic.Snippet
import BLang.Files
import BLang.Grammar
import BLang.Layout
import BLang.Log.Event
import BLang.Log.Filter
import BLang.Log.Line
import BLang.Main
import BLang.ParseError
import BLang.Program
import BLang.Reader
import BLang.Reader.Block
import BLang.Reader.Instruction
import BLang.Reader.Program
import BLang.Reader.Single
import BLang.Reader.Statement
import BLang.Source
import BLang.Span
import BLang.Statement
import BLang.Text.Blank
import BLang.Text.Bytes
import BLang.Text.Control
import BLang.Text.Fields
import BLang.Text.Ink
import BLang.Text.Line
import BLang.Text.Order
import BLang.Text.Similarity
import BLang.Text.Slice
import BLang.Text.Width
import BLang.Text.Width.Invisible
import BLang.Text.Width.Wide
import BLang.Token
import BLang.Token.Scanner
import BLang.Word
import BLang.Proofs.Runs
import BLang.Proofs.Statements
import BLang.Proofs.Blocks
import BLang.Proofs.Contexts
import BLang.Proofs.Definitions
import BLang.Proofs.Programs
import BLang.Proofs.Repetitions
import BLang.Proofs.Completions
import BLang.Proofs.FirstFault
import BLang.Proofs.Lookahead
import BLang.Proofs.RoundTrip
import BLang.Proofs.Lexis
import BLang.Proofs.Tokenizing
import BLang.Proofs.Sources
import BLang.Proofs.ByteOrder
import BLang.Proofs.CanonicalForm
import BLang.Proofs.ErrorPlaces
import BLang.Proofs.Relocation
import BLang.Proofs.Joining
import BLang.Proofs.Embedding
import BLang.Proofs.Promises
import BLang.Proofs.Commands
import BLang.Proofs.Sessions
import BLang.Proofs.Verbosity
import BLang.Proofs.Remainders
import BLang.Proofs.WordCounts
import BLang.Proofs.SourceLines
import BLang.Proofs.SnippetTexts
import BLang.Proofs.SnippetMarks
import BLang.Proofs.SnippetPlaces
import BLang.Proofs.Colors
import BLang.Proofs.Indentation
import BLang.Proofs.Hosting
import BLang.Proofs.Descent
import BLang.Proofs.Termination
