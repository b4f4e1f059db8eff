import BLang.Text.Fields
import BLang.Text.Ink
import BLang.Text.Line
import BLang.Text.Width
import BLang.Diagnostic

/-! # Source snippets

A snippet shows the lines of a source that a span touches, with the marked characters in red and the
label of the span below them. The numbers of the span count characters here. To the left of the rows
stands a margin with the line numbers. If the span reaches over several lines and has a label, a
line beside the text leads from the first line past the skipped ones to the last and on to the
label. Help and the last note stand at the foot. -/
namespace BLang.Snippet

open Text

/-- The margin of a row: the number of a source line, no number, or skipped lines. -/
inductive Gutter where
  | line (number : Nat)
  | unnumbered
  | skipped
  deriving DecidableEq

def Gutter.pieces (width : Nat) : Gutter → List Piece
  | line number =>
      [bare " ", inked .margin (alignRight width (Nat.repr (number + 1)) ++ " │"), bare " "]
  | unnumbered => [bare " ", inked .faintMargin (spaces (width + 1) ++ "│"), bare " "]
  | skipped => [bare " ", inked .faintMargin (spaces (width + 1) ++ "┆"), bare " "]

/-- The part of a row between margin and text, where the line beside the text is drawn. -/
inductive Link where
  | absent
  | opening
  | joining
  | passing
  | skipping
  | closing
  | vacant
  deriving DecidableEq

def Link.pieces : Link → List Piece
  | absent => []
  | opening => [inked .red "╭", inked .red "─", inked .red "▶", inked .red " "]
  | joining => [inked .red "├", inked .red "─", inked .red "▶", inked .red " "]
  | passing => [inked .red "│", bare " ", bare "  "]
  | skipping => [inked .red "┆", bare " ", bare "  "]
  | closing => [inked .red "╰", inked .red "─", inked .red "─", inked .red "─"]
  | vacant => [bare "  ", bare "  "]

structure Row where
  gutter : Gutter
  link : Link
  content : List Piece
  deriving DecidableEq

def Row.pieces (width : Nat) (row : Row) : List Piece :=
  row.gutter.pieces width ++ row.link.pieces ++ row.content ++ [newline]

/-- The shown part of a line ends before its trailing blanks. -/
def shown (line : Line) : List Char :=
  trimEnd line.chars

/-- Whether the character at a position of the source is marked. -/
def marks (span : Span) (position : Nat) : Bool :=
  decide (span.start ≤ position) && decide (position < span.stop)

/-- The characters of a line from a position on, as they are shown. -/
def cells (span : Span) (line : Line) (position : Nat) : List Char → List Piece
  | [] => []
  | char :: rest =>
      let ink := if marks span (line.offset + position) then Ink.red else Ink.unmarked
      let cell :=
        if isBlank char then List.replicate (columns char position) (inked ink " ")
        else [inked ink (String.singleton char)]
      cell ++ cells span line (position + 1) rest

def sourceRow (span : Span) (line : Line) (link : Link) : Row :=
  ⟨.line line.number, link, cells span line 0 (shown line)⟩

/-- A stroke over some columns, of which the first may differ. -/
def stroke (head tail : Piece) : Nat → List Piece
  | 0 => []
  | count + 1 => head :: List.replicate count tail

/-- Strokes below some positions of a line, of which the characters from there on are given. There
is one column below each position after the last character. -/
def strokesFrom (draw : Nat → Piece × Piece) (position : Nat) : Nat → List Char → List Piece
  | 0, _ => []
  | count + 1, [] =>
      stroke (draw position).1 (draw position).2 1 ++ strokesFrom draw (position + 1) count []
  | count + 1, char :: rest =>
      stroke (draw position).1 (draw position).2 (columns char position) ++
        strokesFrom draw (position + 1) count rest

/-- Strokes below the first positions of a line. -/
def strokes (line : Line) (count : Nat) (draw : Nat → Piece × Piece) : List Piece :=
  strokesFrom draw 0 count (shown line)

/-- The position in its line to which the label of a span within that line is attached. -/
def anchor (span : Span) (line : Line) : Nat :=
  max ((span.start + span.stop) / 2) span.start - line.offset

/-- The stroke under a marked position, with a hook where the label is attached. -/
def underline (span : Span) (line : Line) (position : Nat) : Piece × Piece :=
  if position = anchor span line then
    if marks span (line.offset + position) then (inked .red "┬", inked .red "─")
    else (inked .red "│", inked .red " ")
  else if marks span (line.offset + position) then (inked .red "─", inked .red "─")
  else (bare " ", bare " ")

/-- The stroke from the hook to the label. -/
def pointer (span : Span) (line : Line) (position : Nat) : Piece × Piece :=
  if position = anchor span line then (inked .red "╰", inked .red "─")
  else if anchor span line < position then (inked .red "─", inked .red "─")
  else (bare " ", bare " ")

def labelPiece (label : String) : Piece :=
  bare (" " ++ label)

/-- The two rows that put a label under a span within one line. -/
def labelRows (span : Span) (line : Line) (label : String) : List Row :=
  let count := span.stop - line.offset + 2
  [⟨.unnumbered, .absent, strokes line count (underline span line)⟩,
    ⟨.unnumbered, .absent, strokes line count (pointer span line) ++ [labelPiece label]⟩]

/-- The rows of a span within one line. A span that ends behind the line shows none of it. -/
def singleRows (span : Span) (line : Line) (label : Option String) : List Row :=
  if span.stop ≤ line.stop then
    sourceRow span line .absent ::
      (match label with
      | some label => labelRows span line label
      | none => [])
  else [⟨.unnumbered, .absent, []⟩]

/-- The two rows that lead from the last line of a span to its label. -/
def closingRows (line : Line) (label : String) : List Row :=
  let count := line.chars.length + 2
  [⟨.unnumbered, .passing, strokes line count fun _ => (bare " ", bare " ")⟩,
    ⟨.unnumbered, .closing,
      (strokes line count fun _ => (inked .red "─", inked .red "─")) ++ [labelPiece label]⟩]

def skippedRow : Row := ⟨.skipped, .skipping, []⟩

/-- The rows of a labelled span that reaches from one line to a later one. The last line is left out
if the last marked position lies behind it. -/
def labelledRows (span : Span) (final : Nat) (first last : Line) (label : String) : List Row :=
  let reached := decide (final < last.stop)
  sourceRow span first .opening ::
    (if first.number + 1 < last.number || !reached then [skippedRow] else []) ++
    (if reached then sourceRow span last .joining :: closingRows last label else [])

/-- The row of a span without a label that reaches over several lines. -/
def unlabelledRow (span : Span) (first : Line) : Row :=
  ⟨if span.start = first.offset then .skipped else .unnumbered, .absent, []⟩

/-- The last marked position of a span, or its start if it is empty. -/
def final (span : Span) : Nat :=
  max span.start (span.stop - 1)

def bodyRows (span : Span) (first last : Line) (label : Option String) : List Row :=
  if first.number = last.number then singleRows span first label
  else
    match label with
    | some label => labelledRows span (final span) first last label
    | none => [unlabelledRow span first]

/-- The line beside the text of the rows at the foot. The foot is drawn as if it belonged to the
first line of the source. -/
def footLink (source : List Char) (span : Span) (first last : Line) (label : Option String) :
    Link :=
  if first.number ≠ last.number ∧ label.isSome then
    if (lines source).head?.any fun line => decide (line.stop = span.start) then .passing
    else .vacant
  else .absent

def footRows (link : Link) (title : String) : Option String → List Row
  | none => []
  | some text =>
      [⟨.unnumbered, link, []⟩,
        ⟨.unnumbered, link, [inked .footer title, bare (": " ++ text)]⟩]

/-- The number of columns for the line numbers. -/
def gutterWidth (last : Line) : Nat :=
  (Nat.repr (last.number + 1)).length

def headPieces (span : Span) (first : Line) (width : Nat) (file : String) : List Piece :=
  [bare (spaces (width + 2)), inked .margin "╭", inked .margin "─", inked .margin "[",
    bare (file ++ ":" ++ Nat.repr (first.number + 1) ++ ":" ++
      Nat.repr (span.start - first.offset + 1)),
    inked .margin "]", newline, bare (spaces (width + 2)), inked .margin "│", newline]

def closePieces (width : Nat) : List Piece :=
  [inked .margin (String.ofList (List.replicate (width + 2) '─') ++ "╯"), newline]

/-- The name of a source that has no file. -/
def anonymous : String := "<input>"

def titlePieces (diagnostic : Diagnostic) : List Piece :=
  [inked .red "Error:", bare (" " ++ diagnostic.message), newline]

/-- The snippet below the title, for a span that starts in one line and ends in another. -/
def framePieces (diagnostic : Diagnostic) (source : List Char) (span : Span)
    (first last : Line) : List Piece :=
  let width := gutterWidth last
  let link := footLink source span first last diagnostic.label
  let rows := bodyRows span first last diagnostic.label ++
    footRows link "Help" diagnostic.help ++ footRows link "Note" diagnostic.notes.getLast?
  headPieces span first width (diagnostic.file.getD anonymous) ++
    rows.flatMap (Row.pieces width) ++ closePieces width

/-- A diagnostic shown in its source. A span that starts or ends beyond the last character leaves
only the title. -/
def pieces (diagnostic : Diagnostic) (source : List Char) (span : Span) : List Piece :=
  titlePieces diagnostic ++
    match lineAt? source span.start, lineAt? source (final span) with
    | some first, some last => framePieces diagnostic source span first last
    | _, _ => []

end BLang.Snippet
