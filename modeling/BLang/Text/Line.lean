/-! # Lines of a source

A line runs to its break and includes it. The breaks are carriage return, line feed, vertical tab,
form feed, next line, line separator and paragraph separator; a carriage return with a line feed
after it is one break. Each line is kept with its number and with the position of its first
character, both counted from zero. -/
namespace BLang.Text

def isBreak (char : Char) : Bool :=
  let code := char.toNat
  (0x0A ≤ code && code ≤ 0x0D) || code == 0x85 || code == 0x2028 || code == 0x2029

def splitLines : List Char → List (List Char)
  | [] => []
  | '\r' :: '\n' :: rest => ['\r', '\n'] :: splitLines rest
  | char :: rest =>
      if isBreak char then [char] :: splitLines rest
      else
        match splitLines rest with
        | [] => [[char]]
        | line :: others => (char :: line) :: others

theorem splitLines_flatten (chars : List Char) : (splitLines chars).flatten = chars := by
  fun_induction splitLines chars with
  | case1 => rfl
  | case2 rest ih => simp [ih]
  | case3 char rest _ isEnd ih => simp [ih]
  | case4 char rest _ notEnd none ih =>
      rw [none] at ih
      simpa using ih
  | case5 char rest _ notEnd line others some ih =>
      rw [some] at ih
      simpa using ih

structure Line where
  number : Nat
  offset : Nat
  chars : List Char
  deriving DecidableEq

/-- The position after the last character of the line. -/
def Line.stop (line : Line) : Nat :=
  line.offset + line.chars.length

def numbered (number offset : Nat) : List (List Char) → List Line
  | [] => []
  | chars :: rest =>
      ⟨number, offset, chars⟩ :: numbered (number + 1) (offset + chars.length) rest

def lines (source : List Char) : List Line :=
  numbered 0 0 (splitLines source)

/-- The line that holds a position. The position after the last character belongs to the last line,
a later one to none. -/
def lineAt? (source : List Char) (position : Nat) : Option Line :=
  if position ≤ source.length then
    (lines source).reverse.find? (fun line => decide (line.offset ≤ position))
  else none

end BLang.Text
