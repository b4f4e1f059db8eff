import BLang.Span
import BLang.Word

/-! # Tokens

A token is a word with its place in the source. The last token of a source is the end marker, whose
text is not a word, so that no word of a source can be taken for it. -/
namespace BLang

structure Token where
  lexeme : String
  span : Span
  deriving DecidableEq

/-- The text of the token that ends a source. -/
def endMarker : String := "### END OF INPUT ###"

theorem isWord_endMarker : isWord endMarker.toList = false := by
  decide

namespace Token

/-- A token whose place is not known. -/
def unplaced (lexeme : String) : Token := ⟨lexeme, Span.zero⟩

def is (token : Token) (text : String) : Bool :=
  decide (token.lexeme = text)

def isKeyword (token : Token) (keyword : Keyword) : Bool :=
  token.is keyword.spelling

def isEnd (token : Token) : Bool :=
  token.is endMarker

/-- The end marker of a source of the given length. -/
def ending (length : Nat) : Token := ⟨endMarker, Span.point length⟩

theorem isEnd_ending (length : Nat) : (ending length).isEnd = true := by
  simp [isEnd, is, ending]

/-- Whether a block stops before the token. -/
def closesBlock (token : Token) : Bool :=
  token.isKeyword .END || token.isKeyword .ELSE || token.isEnd

end Token

end BLang
