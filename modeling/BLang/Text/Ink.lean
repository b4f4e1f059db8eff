/-! # Coloured text

A text to be displayed is a list of pieces, each in an ink or in none. On a display with colours an
inked piece stands between the sequences that select its ink and the one that resets the display. If
a painted piece brings a reset of its own, the ink is selected again after it; a marked piece is
taken as it is. Without colours only the texts remain. -/
namespace BLang.Text

inductive Ink where
  | red | green | yellow | blue | magenta | gray
  | bold | dim | italic
  | boldRed | boldGreen | boldBlue
  | heading | alarm
  | margin | faintMargin | unmarked | footer
  deriving DecidableEq

/-- The codes of the sequences that select the ink. -/
def Ink.codes : Ink → List String
  | .red => ["31"]
  | .green => ["32"]
  | .yellow => ["33"]
  | .blue => ["34"]
  | .magenta => ["35"]
  | .gray => ["90"]
  | .bold => ["1"]
  | .dim => ["2"]
  | .italic => ["3"]
  | .boldRed => ["1;31"]
  | .boldGreen => ["1;32"]
  | .boldBlue => ["1;34"]
  | .heading => ["1", "4"]
  | .alarm => ["1", "31"]
  | .margin => ["38;5;246"]
  | .faintMargin => ["38;5;240"]
  | .unmarked => ["38;5;249"]
  | .footer => ["38;5;115"]

def escape : Char := '\x1b'

/-- The sequence that selects what a code stands for. -/
def sequenceOf (code : String) : List Char :=
  escape :: '[' :: code.toList ++ ['m']

def Ink.opening (ink : Ink) : List Char :=
  ink.codes.flatMap sequenceOf

def reset : List Char :=
  [escape, '[', '0', 'm']

/-- Selects the ink again after every reset inside the text. -/
def Ink.resume (ink : Ink) : List Char → List Char
  | [] => []
  | '\x1b' :: '[' :: '0' :: 'm' :: rest => reset ++ ink.opening ++ ink.resume rest
  | char :: rest => char :: ink.resume rest

structure Piece where
  ink : Option Ink
  text : String
  deriving DecidableEq

def bare (text : String) : Piece :=
  ⟨none, text⟩

def inked (ink : Ink) (text : String) : Piece :=
  ⟨some ink, text⟩

def newline : Piece :=
  bare "\n"

@[simp]
theorem text_bare (text : String) : (bare text).text = text :=
  rfl

@[simp]
theorem text_inked (ink : Ink) (text : String) : (inked ink text).text = text :=
  rfl

@[simp]
theorem text_newline : newline.text = "\n" :=
  rfl

def Piece.chars (colors : Bool) (piece : Piece) : List Char :=
  match piece.ink, colors with
  | some ink, true => ink.opening ++ ink.resume piece.text.toList ++ reset
  | _, _ => piece.text.toList

def painted (colors : Bool) (pieces : List Piece) : String :=
  String.ofList (pieces.flatMap (Piece.chars colors))

/-- The text between the sequences of its ink. -/
def Piece.marked (piece : Piece) : List Char :=
  match piece.ink with
  | some ink => ink.opening ++ piece.text.toList ++ reset
  | none => piece.text.toList

theorem Piece.chars_plain (piece : Piece) : piece.chars false = piece.text.toList := by
  unfold Piece.chars
  split <;> simp_all

end BLang.Text
