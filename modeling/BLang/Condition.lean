import BLang.Breach

/-! # Conditions

The conditions that may stand after `IF` and `WHILE`. Each has one spelling, in small letters and
hyphens, and a spelling belongs to one condition. -/
namespace BLang

inductive Condition where
  | nextIsEmpty | nextIsNotEmpty
  | nextIsWall | nextIsNotWall
  | nextIsFriend | nextIsNotFriend
  | nextIsEnemy | nextIsNotEnemy
  | random | always
  | less | lessOrEqual
  | equal | notEqual
  | more | moreOrEqual
  deriving DecidableEq

namespace Condition

def all : List Condition :=
  [nextIsEmpty, nextIsNotEmpty, nextIsWall, nextIsNotWall, nextIsFriend, nextIsNotFriend,
    nextIsEnemy, nextIsNotEnemy, random, always, less, lessOrEqual, equal, notEqual, more,
    moreOrEqual]

theorem mem_all (condition : Condition) : condition ∈ all := by
  cases condition <;> decide

def spelling : Condition → String
  | nextIsEmpty => "next-is-empty"
  | nextIsNotEmpty => "next-is-not-empty"
  | nextIsWall => "next-is-wall"
  | nextIsNotWall => "next-is-not-wall"
  | nextIsFriend => "next-is-friend"
  | nextIsNotFriend => "next-is-not-friend"
  | nextIsEnemy => "next-is-enemy"
  | nextIsNotEnemy => "next-is-not-enemy"
  | random => "random"
  | always => "true"
  | less => "less"
  | lessOrEqual => "less-or-equal"
  | equal => "equal"
  | notEqual => "not-equal"
  | more => "more"
  | moreOrEqual => "more-or-equal"

/-- The condition with exactly this spelling. -/
def ofSpelling? (text : String) : Option Condition :=
  all.find? (fun condition => decide (condition.spelling = text))

theorem ofSpelling?_spelling (condition : Condition) :
    ofSpelling? condition.spelling = some condition := by
  cases condition <;> decide

theorem spelling_of_ofSpelling? {text : String} {condition : Condition}
    (found : ofSpelling? text = some condition) : condition.spelling = text := by
  simpa using List.find?_some found

/-- The condition with this spelling, a letter of `A` to `Z` being taken for its small one. -/
def ofText? (text : String) : Option Condition :=
  ofSpelling? (String.ofList (text.toList.map Char.toLower))

/-- The condition of a text that is promised to be a spelling. -/
def ofSpelling (text : String) : Except Breach Condition :=
  match ofSpelling? text with
  | some condition => .ok condition
  | none => .error (.notCondition text)

theorem ofSpelling_spelling (condition : Condition) :
    ofSpelling condition.spelling = .ok condition := by
  rw [ofSpelling, ofSpelling?_spelling]

end Condition

def isCondition (text : String) : Bool :=
  (Condition.ofSpelling? text).isSome

end BLang
