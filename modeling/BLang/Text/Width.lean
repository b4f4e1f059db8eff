import BLang.Text.Blank
import BLang.Text.Width.Invisible
import BLang.Text.Width.Wide

/-! # Display columns

How many columns of a fixed-width display a character takes. A tab reaches to the next multiple of
four, counted from the position of the tab in its line, and any other blank is shown as one space.
Other characters are looked up in the tables of those without a column and of those with two; the
Khmer sign for "and so on" takes three, and all others take one. -/
namespace BLang.Text

def tabStop : Nat := 4

/-- Whether a code point lies in one of the ranges. -/
def inRanges (ranges : List (Nat × Nat)) (code : Nat) : Bool :=
  ranges.any fun range => decide (range.1 ≤ code) && decide (code ≤ range.2)

def khmerBeyyal : Nat := 0x17D8

/-- The columns of a character that is not blank. -/
def width (char : Char) : Nat :=
  let code := char.toNat
  if code < 0x80 then 1
  else if code = khmerBeyyal then 3
  else if inRanges invisibleRanges code then 0
  else if inRanges wideRanges code then 2
  else 1

/-- The columns a character takes at a position of its line. -/
def columns (char : Char) (position : Nat) : Nat :=
  if char = '\t' then (position / tabStop + 1) * tabStop - position
  else if isBlank char then 1
  else width char

end BLang.Text
