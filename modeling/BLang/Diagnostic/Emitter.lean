import BLang.Breach
import BLang.Text.Bytes
import BLang.Diagnostic.Snippet

/-! # Showing diagnostics

A diagnostic is shown as a short report, or in its source if it has a span that ends within the
source. An emitter with colours makes its report of inked pieces, whose colours appear if the display
has them, and one without colours writes plain lines. The colours of a snippet do not depend on the
display. A snippet of a reversed span is a breach. -/
namespace BLang

open Text

namespace Diagnostic

/-- Where the error is: the file, the span or both. -/
def location (diagnostic : Diagnostic) : Option String :=
  let place := diagnostic.span.map fun span => Nat.repr span.start ++ ".." ++ Nat.repr span.stop
  match diagnostic.file, place with
  | some file, some place => some (file ++ ":" ++ place)
  | some file, none => some file
  | none, place => place

def locationPieces (diagnostic : Diagnostic) : List Piece :=
  match diagnostic.location with
  | some location =>
      [bare "  ", inked .boldBlue "-->", bare " ", bare location, newline]
  | none => []

def notePieces (note : String) : List Piece :=
  [bare "  ", inked .boldBlue "=", bare " ", inked .gray ("note: " ++ note), newline]

def helpPieces : Option String → List Piece
  | some help =>
      [bare "  ", inked .boldGreen "=", bare " ", inked .green ("help: " ++ help), newline]
  | none => []

/-- The report of a diagnostic without its source, in colours. -/
def pieces (diagnostic : Diagnostic) : List Piece :=
  [inked .boldRed "error", bare ": ", inked .bold diagnostic.message, newline] ++
    diagnostic.locationPieces ++ diagnostic.notes.flatMap notePieces ++
    helpPieces diagnostic.help

/-- The lines of a report without colours. -/
def lines (diagnostic : Diagnostic) : List String :=
  ["error: " ++ diagnostic.message] ++ diagnostic.location.toList.map ("  --> " ++ ·) ++
    diagnostic.notes.map ("  = note: " ++ ·) ++ diagnostic.help.toList.map ("  = help: " ++ ·)

/-- The report of a diagnostic without its source, without colours. -/
def plainText (diagnostic : Diagnostic) : String :=
  String.join (diagnostic.lines.map (· ++ "\n"))

end Diagnostic

structure Emitter where
  display : Bool
  colors : Bool
  deriving DecidableEq

namespace Emitter

def plain : Emitter := ⟨false, false⟩

def report (emitter : Emitter) (diagnostic : Diagnostic) : String :=
  if emitter.colors then painted emitter.display diagnostic.pieces else diagnostic.plainText

/-- Whether reports have colours in the end. -/
def colorReports (emitter : Emitter) : Bool :=
  emitter.colors && emitter.display

/-- The span to be shown in a source, if there is one that ends within it. -/
def visibleSpan (diagnostic : Diagnostic) (source : List Char) : Option Span :=
  diagnostic.span.filter fun span => decide (span.stop ≤ byteLength source)

def reportIn (emitter : Emitter) (diagnostic : Diagnostic) (source : String) :
    Except Breach String :=
  match visibleSpan diagnostic source.toList with
  | none => .ok (emitter.report diagnostic)
  | some span =>
      if span.stop < span.start then .error .reversedSpan
      else .ok (painted emitter.colors (Snippet.pieces diagnostic source.toList span))

end Emitter

end BLang
