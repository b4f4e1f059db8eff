import BLang.Condition

/-! # Words

Every word of the language is a keyword, a condition or an identifier, and never two of them. A word
starts with a letter and goes on with letters, digits and hyphens, all of them ASCII. The primitive
instructions are identifiers that a program may call and may not define. -/
namespace BLang

inductive Keyword where
  | PROGRAM | IS | BEGIN | END | INSTRUCTION | IF | THEN | ELSE | WHILE | DO
  deriving DecidableEq

namespace Keyword

def all : List Keyword :=
  [PROGRAM, IS, BEGIN, END, INSTRUCTION, IF, THEN, ELSE, WHILE, DO]

theorem mem_all (keyword : Keyword) : keyword ∈ all := by
  cases keyword <;> decide

def spelling : Keyword → String
  | PROGRAM => "PROGRAM"
  | IS => "IS"
  | BEGIN => "BEGIN"
  | END => "END"
  | INSTRUCTION => "INSTRUCTION"
  | IF => "IF"
  | THEN => "THEN"
  | ELSE => "ELSE"
  | WHILE => "WHILE"
  | DO => "DO"

theorem spelling_injective {left right : Keyword} (same : left.spelling = right.spelling) :
    left = right := by
  revert same
  cases left <;> cases right <;> decide

end Keyword

def isKeyword (text : String) : Bool :=
  Keyword.all.any (fun keyword => decide (keyword.spelling = text))

def primitives : List String :=
  ["move", "turn-left", "turn-right", "infect", "skip"]

def isPrimitive (text : String) : Bool :=
  primitives.any (fun name => decide (name = text))

/-- Whether a word may start with the character. -/
def isLetter (char : Char) : Bool :=
  char.isAlpha

/-- Whether a word may go on with the character. -/
def isWordPart (char : Char) : Bool :=
  char.isAlphanum || decide (char = '-')

theorem isWordPart_of_isLetter {char : Char} (letter : isLetter char = true) :
    isWordPart char = true := by
  have letter : char.isAlpha = true := letter
  simp [isWordPart, Char.isAlphanum, letter]

def isWord : List Char → Bool
  | [] => false
  | char :: rest => isLetter char && rest.all isWordPart

def isIdentifier (text : String) : Bool :=
  isWord text.toList && !isKeyword text && !isCondition text

end BLang
