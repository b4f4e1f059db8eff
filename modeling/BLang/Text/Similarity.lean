/-! # Similar texts

The similarity of two texts after Jaro: how many characters the texts share at nearly the same
places, as a part of either text, and how many of those stand in the same order. It lies between
zero and one. A misspelled name is answered with the names whose similarity to it exceeds a
threshold. -/
namespace BLang.Text

/-- The characters of a text, each with a mark that tells whether it is already paired. -/
abbrev Marked := List (Char × Bool)

/-- Pairs a character with the first free equal one at a place from `low` up to `high`. -/
def pairOne (char : Char) (low high place : Nat) : Marked → Option Marked
  | [] => none
  | (other, paired) :: rest =>
      if low ≤ place ∧ place < high ∧ char = other ∧ paired = false then
        some ((other, true) :: rest)
      else (pairOne char low high (place + 1) rest).map ((other, paired) :: ·)

/-- Pairs the characters of a text in turn; gives those that found a partner, and the marks. -/
def pairAll (reach place : Nat) : List Char → Marked → List Char × Marked
  | [], marked => ([], marked)
  | char :: rest, marked =>
      match pairOne char (place - reach) (place + reach + 1) 0 marked with
      | some next =>
          let (found, final) := pairAll reach (place + 1) rest next
          (char :: found, final)
      | none => pairAll reach (place + 1) rest marked

/-- How many places of two texts of the same length differ. -/
def differing (left right : List Char) : Nat :=
  ((left.zip right).filter fun pair => decide (pair.1 ≠ pair.2)).length

def similarity (left right : List Char) : Float :=
  if left.isEmpty && right.isEmpty then 1
  else
    let reach := max left.length right.length / 2 - 1
    let (found, marked) := pairAll reach 0 left (right.map fun char => (char, false))
    let partners := (marked.filter Prod.snd).map Prod.fst
    let pairs := found.length
    if pairs = 0 then 0
    else
      let swaps := differing found partners / 2
      (pairs.toFloat / left.length.toFloat + pairs.toFloat / right.length.toFloat +
        (pairs - swaps).toFloat / pairs.toFloat) / 3

/-- Puts a scored name behind those whose score is not greater. -/
def rank (new : Float × String) : List (Float × String) → List (Float × String)
  | [] => [new]
  | old :: rest => if new.1 < old.1 then new :: old :: rest else old :: rank new rest

/-- The names that are similar to a text, the most similar last. -/
def similarNames (text : String) (names : List String) : List String :=
  let scored := names.map fun name => (similarity text.toList name.toList, name)
  let ranked := (scored.filter fun entry => decide (0.7 < entry.1)).foldl
    (fun ranked new => rank new ranked) []
  ranked.map Prod.snd

end BLang.Text
