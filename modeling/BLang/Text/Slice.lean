import BLang.Span
import BLang.Text.Bytes

/-! # Slices

The text at a span of a source. There is one if the ends of the span are in order and neither of
them lies inside a character or beyond the source. -/
namespace BLang.Text

/-- The characters before a position and those after it, if it does not lie inside one. -/
def splitBytes? : Nat → List Char → Option (List Char × List Char)
  | 0, chars => some ([], chars)
  | _ + 1, [] => none
  | count + 1, char :: rest =>
      if char.utf8Size ≤ count + 1 then
        (splitBytes? (count + 1 - char.utf8Size) rest).map fun parts =>
          (char :: parts.1, parts.2)
      else none

theorem splitBytes?_append (front back : List Char) :
    splitBytes? (byteLength front) (front ++ back) = some (front, back) := by
  induction front with
  | nil => cases back <;> rfl
  | cons char rest ih =>
      obtain ⟨count, size⟩ := Nat.exists_eq_succ_of_ne_zero (Nat.ne_of_gt char.utf8Size_pos)
      have position : byteLength (char :: rest) = count + byteLength rest + 1 := by
        rw [byteLength, size]
        omega
      have fits : char.utf8Size ≤ count + byteLength rest + 1 := by omega
      have remaining : count + byteLength rest + 1 - char.utf8Size = byteLength rest := by omega
      rw [position, List.cons_append, splitBytes?, if_pos fits, remaining, ih]
      rfl

theorem of_splitBytes? {position : Nat} {chars front back : List Char}
    (split : splitBytes? position chars = some (front, back)) :
    chars = front ++ back ∧ byteLength front = position := by
  induction chars generalizing position front back with
  | nil =>
      cases position with
      | zero =>
          cases split
          exact ⟨rfl, rfl⟩
      | succ count => cases split
  | cons char rest ih =>
      cases position with
      | zero =>
          cases split
          exact ⟨rfl, rfl⟩
      | succ count =>
          rw [splitBytes?] at split
          split at split
          next fits =>
            obtain ⟨⟨first, last⟩, inner, same⟩ := Option.map_eq_some_iff.mp split
            cases same
            obtain ⟨rfl, length⟩ := ih inner
            exact ⟨rfl, by rw [byteLength, length]; omega⟩
          next => cases split

/-- Beginnings of one text with the same number of bytes are the same. -/
theorem append_inj_of_byteLength {left right leftRest rightRest : List Char}
    (same : left ++ leftRest = right ++ rightRest)
    (length : byteLength left = byteLength right) : left = right ∧ leftRest = rightRest := by
  have split := splitBytes?_append left leftRest
  rw [same, length, splitBytes?_append] at split
  cases split
  exact ⟨rfl, rfl⟩

/-- Whether the position does not lie inside a character or beyond the source. -/
def isBoundary (source : String) (position : Nat) : Bool :=
  (splitBytes? position source.toList).isSome

theorem isBoundary_byteLength {source : String} {front back : List Char}
    (chars : source.toList = front ++ back) : isBoundary source (byteLength front) = true := by
  rw [isBoundary, chars, splitBytes?_append]
  rfl

/-- The text at a span. -/
def slice? (source : String) (span : Span) : Option String :=
  (splitBytes? span.stop source.toList).bind fun outer =>
    (splitBytes? span.start outer.1).map fun inner => String.ofList inner.2

/-- The span of some characters that come after others. -/
def spanAfter (before chars : List Char) : Span :=
  ⟨byteLength before, byteLength before + byteLength chars⟩

theorem slice?_eq_some_iff {source text : String} {span : Span} :
    slice? source span = some text ↔
      ∃ before after, source.toList = before ++ text.toList ++ after ∧
        span = spanAfter before text.toList := by
  rw [slice?, Option.bind_eq_some_iff]
  constructor
  · rintro ⟨⟨front, after⟩, outer, sliced⟩
    obtain ⟨⟨before, chars⟩, inner, rfl⟩ := Option.map_eq_some_iff.mp sliced
    obtain ⟨whole, stop⟩ := of_splitBytes? outer
    obtain ⟨rfl, start⟩ := of_splitBytes? inner
    refine ⟨before, after, by rw [whole, String.toList_ofList], ?_⟩
    rw [spanAfter, String.toList_ofList, ← byteLength_append, stop, start]
  · rintro ⟨before, after, chars, rfl⟩
    refine ⟨(before ++ text.toList, after), ?_, ?_⟩
    · rw [chars, spanAfter, ← byteLength_append]
      exact splitBytes?_append _ after
    · rw [spanAfter, splitBytes?_append, Option.map_some, String.ofList_toList]

end BLang.Text
