/-! # Breaches

What a caller must not ask for: to take a text for a condition that is none, to take a text for the
name of a call that is no identifier, and to show a span whose start lies behind its end. Such a
request has no answer; it ends in a breach. -/
namespace BLang

inductive Breach where
  | notCondition (text : String)
  | notIdentifier
  | reversedSpan
  deriving DecidableEq

def Breach.message : Breach → String
  | .notCondition text => "violation of: '" ++ text ++ "' is a condition string"
  | .notIdentifier => "assertion failed: is_identifier(&name.lexeme)"
  | .reversedSpan => "Label start is after its end"

end BLang
