import BLang.Reader

/-! # Readers of a single token

The readers that look at the token at the front of a stream and decide at once: some take it, some
only look. -/
namespace BLang.Reader

/-- The front token, left where it is. -/
def peek : Reader Unit Token :=
  ⟨(), fun _ token => .done token [], true⟩

/-- Whether the front token has the text; it is left where it is. -/
def peekIs (text : String) : Reader Unit Bool :=
  ⟨(), fun _ token => .done (token.is text) [], true⟩

/-- The front token. -/
def next : Reader Unit Token :=
  ⟨(), fun _ token => .done token [], false⟩

/-- The front token, which must have the text; it is taken in either case. -/
def expect (text : String) : Reader Unit Token :=
  ⟨(), fun _ token => Step.expect text token (.done token []), false⟩

/-- Succeeds if the front token is the end marker; it is left where it is. -/
def endOfInput : Reader Unit Unit :=
  ⟨(), fun _ token =>
    if token.isEnd then .done () [] else .refuse (.trailingInput token) false [], true⟩

end BLang.Reader
