import BLang.Text.Blank
import BLang.Text.Fields
import BLang.Log.Event

/-! # Log filters

A filter tells how much detail of which parts of the system is logged. It is written as rules with
commas between them. A rule is a level, by its name or its number, or the beginning of the names of
some parts, or such a beginning with its level behind an equals sign; where a level is left out,
everything is logged. Of the rules for a part the one with the longest beginning counts, and of
those the last. A part without a rule is silent. -/
namespace BLang

open Text

/-- The names of the levels, from the one that shows nothing to the one that shows everything. The
detail of a level is its place among them. -/
def levelNames : List String :=
  ["off", "error", "warn", "info", "debug", "trace"]

def warnDetail : Nat := 2

def infoDetail : Nat := 3

def Level.detail : Level → Nat
  | .debug => 4
  | .trace => 5

/-- How much of the parts whose names begin in a certain way is logged. -/
structure LogRule where
  beginning : List Char
  detail : Nat
  deriving DecidableEq

namespace LogRule

/-- A rule for all parts. -/
def forAll (detail : Nat) : LogRule := ⟨[], detail⟩

def covers (rule : LogRule) (part : String) : Bool :=
  rule.beginning.isPrefixOf part.toList

/-- The value of decimal digits. -/
def valueOf (digits : List Char) : Nat :=
  digits.foldl (fun value digit => 10 * value + (digit.toNat - '0'.toNat)) 0

/-- The number that is written with at least one digit, perhaps after a plus sign. -/
def number? (text : List Char) : Option Nat :=
  let digits := match text with
    | '+' :: rest => rest
    | _ => text
  if !digits.isEmpty && digits.all Char.isDigit then some (valueOf digits) else none

/-- The detail of the level with a number, or with a name in letters of any case. -/
def detailOf? (text : List Char) : Option Nat :=
  match (number? text).filter (fun number => decide (number < levelNames.length)) with
  | some number => some number
  | none => levelNames.idxOf? (String.ofList (text.map Char.toLower))

/-- Whether a name of a part can start with a character. -/
def opensName (char : Char) : Bool :=
  char.isAlphanum || char = '-' || char = ':' || char = '_'

/-- The rule that a text without commas states. A text that is neither a level nor a name is taken
for a name that no part has. -/
def ofChars? (text : List Char) : Option LogRule :=
  match fields '=' text with
  | [name] =>
      if (trimStart name).head?.any opensName then
        match detailOf? name with
        | some detail => some (forAll detail)
        | none => some ⟨name, Level.trace.detail⟩
      else none
  | [name, level] =>
      if name.head?.any opensName then
        if level.isEmpty then some ⟨name, Level.trace.detail⟩
        else (detailOf? level).map fun detail => ⟨name, detail⟩
      else none
  | _ => none

end LogRule

structure LogFilter where
  rules : List LogRule
  deriving DecidableEq

namespace LogFilter

def upTo (detail : Nat) : LogFilter := ⟨[LogRule.forAll detail]⟩

/-- The filter that a text states, if all its rules can be read. -/
def ofText? (text : String) : Option LogFilter :=
  if text.isEmpty then some ⟨[]⟩
  else ((fields ',' text.toList).mapM LogRule.ofChars?).map LogFilter.mk

/-- The rule that counts for a part, of a rule found before and the next one. -/
def choose (part : String) (found next : LogRule) : LogRule :=
  if next.covers part && decide (found.beginning.length ≤ next.beginning.length) then next
  else found

/-- The greatest detail that is logged of a part. -/
def detailFor (filter : LogFilter) (part : String) : Nat :=
  (filter.rules.foldl (choose part) (LogRule.forAll 0)).detail

def shows (filter : LogFilter) (event : Event) : Bool :=
  decide (event.level.detail ≤ filter.detailFor event.part)

/-- Whether lines name the program in whose reading their event happened. -/
def showsScope (filter : LogFilter) : Bool :=
  decide (infoDetail ≤ filter.detailFor Event.programPart)

/-- A record as far as it is logged. -/
def kept? (filter : LogFilter) (record : Record) : Option Record :=
  if filter.shows record.event then
    some { record with scope := if filter.showsScope then record.scope else none }
  else none

end LogFilter

end BLang
