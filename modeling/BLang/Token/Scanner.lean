import BLang.Text.Bytes
import BLang.Token

/-! # Scanning

A source is read one character at a time. Between words there are gaps and comments; a comment runs
from `#` to the end of its line. A word takes every character that can continue it. Any other
character is an error, and the first one ends the scan. The tokens found so far are held latest
first. -/
namespace BLang

/-- A character that belongs to no word, gap or comment. -/
structure LexError where
  text : String
  span : Span
  deriving DecidableEq

def LexError.message (error : LexError) : String :=
  "unrecognized input '" ++ error.text ++ "'"

/-- Whether a gap between words may hold the character. -/
def isGap (char : Char) : Bool :=
  decide (char = ' ') || decide (char = '\t') || decide (char = '\r') || decide (char = '\n') ||
    decide (char = '\x0c')

/-- Where a scan stands. The letters of an unfinished word are held latest first. -/
inductive Scanner.Mode where
  | gap
  | comment
  | word (start : Nat) (letters : List Char)
  deriving DecidableEq

structure Scanner where
  position : Nat
  mode : Scanner.Mode
  tokens : List Token
  deriving DecidableEq

namespace Scanner

def start : Scanner := ⟨0, .gap, []⟩

/-- The tokens with the unfinished word, if there is one. -/
def closed (scanner : Scanner) : List Token :=
  match scanner.mode with
  | .word start letters =>
      ⟨String.ofList letters.reverse, ⟨start, scanner.position⟩⟩ :: scanner.tokens
  | _ => scanner.tokens

/-- The character is passed over and the scan goes on in the given mode. -/
def pass (scanner : Scanner) (char : Char) (mode : Mode) : Scanner :=
  { scanner with position := scanner.position + char.utf8Size, mode := mode }

/-- A character outside words and comments. -/
def enter (scanner : Scanner) (char : Char) : Except LexError Scanner :=
  if isGap char then .ok (scanner.pass char .gap)
  else if char = '#' then .ok (scanner.pass char .comment)
  else if isLetter char then .ok (scanner.pass char (.word scanner.position [char]))
  else .error
    ⟨String.singleton char, ⟨scanner.position, scanner.position + char.utf8Size⟩⟩

def step (scanner : Scanner) (char : Char) : Except LexError Scanner :=
  match scanner.mode with
  | .gap => scanner.enter char
  | .comment => .ok (scanner.pass char (if char = '\n' then .gap else .comment))
  | .word start letters =>
      if isWordPart char then .ok (scanner.pass char (.word start (char :: letters)))
      else { scanner with tokens := scanner.closed }.enter char

def scan (scanner : Scanner) (chars : List Char) : Except LexError Scanner :=
  chars.foldlM step scanner

theorem scan_append (scanner : Scanner) (left right : List Char) :
    scanner.scan (left ++ right) = scanner.scan left >>= fun next => next.scan right :=
  List.foldlM_append

/-- All tokens of the source, the end marker last. -/
def finish (scanner : Scanner) : List Token :=
  (Token.ending scanner.position :: scanner.closed).reverse

end Scanner

def tokenize (source : String) : Except LexError (List Token) :=
  (Scanner.start.scan source.toList).map Scanner.finish

end BLang
