import BLang.Token.Scanner
import Mathlib.Data.String.Basic
import BLang.Proofs.Words

/-!
# Scanning words

A text that stands between words and ends between words is scanned on its own: what it adds to the
tokens and to the position does not depend on what came before.  Such texts can be put one after the
other, and their words follow one another.
-/

namespace BLang

/-- The byte length counted character by character is that of the text. -/
theorem Text.byteLength_toList (text : String) : byteLength text.toList = text.utf8ByteSize := by
  rw [← String.utf8Len_toList]
  induction text.toList with
  | nil => rfl
  | cons char rest ih => rw [byteLength, ih, String.utf8Len_cons, Nat.add_comm]

theorem not_isGap_of_isLetter {char : Char} (letter : isLetter char = true) :
    isGap char = false := by
  rw [← Bool.not_eq_true]
  intro gap
  simp only [isGap, Bool.or_eq_true, decide_eq_true_eq] at gap
  rcases gap with (((rfl | rfl) | rfl) | rfl) | rfl <;> exact absurd letter (by decide)

theorem not_isWordPart_of_isGap {char : Char} (gap : isGap char = true) :
    isWordPart char = false := by
  simp only [isGap, Bool.or_eq_true, decide_eq_true_eq] at gap
  rcases gap with (((rfl | rfl) | rfl) | rfl) | rfl <;> decide

theorem ne_hash_of_isLetter {char : Char} (letter : isLetter char = true) : char ≠ '#' := by
  rintro rfl
  exact absurd letter (by decide)

namespace Scanner

theorem scan_cons {scanner next : Scanner} {char : Char} (rest : List Char)
    (step : scanner.step char = .ok next) : scanner.scan (char :: rest) = next.scan rest := by
  rw [scan, List.foldlM_cons, step]
  rfl

theorem step_gap {scanner : Scanner} {char : Char} (between : scanner.mode = .gap)
    (gap : isGap char = true) : scanner.step char = .ok (scanner.pass char .gap) := by
  rw [step, between]
  exact if_pos gap

theorem step_letter {scanner : Scanner} {char : Char} (between : scanner.mode = .gap)
    (letter : isLetter char = true) :
    scanner.step char = .ok (scanner.pass char (.word scanner.position [char])) := by
  rw [step, between]
  simp only [enter, not_isGap_of_isLetter letter, ne_hash_of_isLetter letter, letter,
    Bool.false_eq_true, if_false, if_true]

theorem step_part {position start : Nat} {letters : List Char} {tokens : List Token} {char : Char}
    (part : isWordPart char = true) :
    step ⟨position, .word start letters, tokens⟩ char =
      .ok ⟨position + char.utf8Size, .word start (char :: letters), tokens⟩ :=
  if_pos part

/-- A gap ends a word. -/
theorem step_separator {position start : Nat} {letters : List Char} {tokens : List Token}
    {char : Char} (gap : isGap char = true) :
    step ⟨position, .word start letters, tokens⟩ char =
      .ok ⟨position + char.utf8Size, .gap,
        ⟨String.ofList letters.reverse, ⟨start, position⟩⟩ :: tokens⟩ := by
  simp only [step, not_isWordPart_of_isGap gap, Bool.false_eq_true, if_false]
  exact if_pos gap

theorem scan_parts (start : Nat) (tokens : List Token) (parts : List Char)
    (all : ∀ char ∈ parts, isWordPart char = true) (position : Nat) (letters : List Char) :
    scan ⟨position, .word start letters, tokens⟩ parts =
      .ok ⟨position + Text.byteLength parts, .word start (parts.reverse ++ letters), tokens⟩ := by
  induction parts generalizing position letters with
  | nil => rfl
  | cons char rest ih =>
      obtain ⟨part, restParts⟩ := List.forall_mem_cons.mp all
      rw [scan_cons rest (step_part part), ih restParts, Text.byteLength, List.reverse_cons,
        List.append_assoc, List.singleton_append, Nat.add_assoc]

/-- Between words, the characters are scanned to tokens with these texts, and the scan is between
words again. -/
def Spells (chars : List Char) (words : List String) : Prop :=
  ∀ position tokens, ∃ found, lexemes found = words ∧
    scan ⟨position, .gap, tokens⟩ chars =
      .ok ⟨position + Text.byteLength chars, .gap, found.reverse ++ tokens⟩

namespace Spells

theorem nil : Spells [] [] :=
  fun _ _ => ⟨[], rfl, rfl⟩

theorem append {left right : List Char} {leftWords rightWords : List String}
    (first : Spells left leftWords) (second : Spells right rightWords) :
    Spells (left ++ right) (leftWords ++ rightWords) := by
  intro position tokens
  obtain ⟨found, texts, scanned⟩ := first position tokens
  obtain ⟨later, laterTexts, laterScanned⟩ :=
    second (position + Text.byteLength left) (found.reverse ++ tokens)
  refine ⟨found ++ later, by rw [lexemes_append, texts, laterTexts], ?_⟩
  rw [scan_append, scanned, Text.byteLength_append, List.reverse_append, List.append_assoc,
    ← Nat.add_assoc]
  exact laterScanned

theorem gap {char : Char} (between : isGap char = true) : Spells [char] [] := by
  intro position tokens
  refine ⟨[], rfl, ?_⟩
  rw [scan_cons [] (step_gap rfl between)]
  rfl

theorem gaps {chars : List Char} (between : ∀ char ∈ chars, isGap char = true) :
    Spells chars [] := by
  induction chars with
  | nil => exact nil
  | cons char rest ih =>
      obtain ⟨first, others⟩ := List.forall_mem_cons.mp between
      exact (gap first).append (ih others)

/-- A word with a gap after it. -/
theorem word {text : String} {separator : Char} (word : isWord text.toList = true)
    (between : isGap separator = true) : Spells (text.toList ++ [separator]) [text] := by
  intro position tokens
  generalize same : text.toList = chars at word
  cases chars with
  | nil => cases word
  | cons first rest =>
      obtain ⟨letter, parts⟩ := (Bool.and_eq_true _ _).mp word
      have scanned := scan_parts position tokens rest (List.all_eq_true.mp parts)
        (position + first.utf8Size) [first]
      have token : String.ofList (rest.reverse ++ [first]).reverse = text := by
        rw [List.reverse_append, List.reverse_reverse, List.reverse_singleton,
          List.singleton_append, ← same, String.ofList_toList]
      refine ⟨[⟨text, ⟨position, position + first.utf8Size + Text.byteLength rest⟩⟩], rfl, ?_⟩
      rw [List.cons_append, scan_cons _ (step_letter rfl letter), scan_append]
      change (scan ⟨position + first.utf8Size, .word position [first], tokens⟩ rest >>= _) = _
      rw [scanned]
      change scan ⟨_, .word position (rest.reverse ++ [first]), tokens⟩ [separator] = _
      rw [scan_cons [] (step_separator between), token]
      simp only [Text.byteLength, Text.byteLength_append, Nat.add_zero, Nat.add_assoc]
      rfl

end Spells

/-- A whole source that spells words is scanned to tokens with these texts and the end marker at its
byte length. -/
theorem Spells.tokenize_eq {source : String} {words : List String}
    (spells : Spells source.toList words) :
    ∃ tokens, lexemes tokens = words ∧
      tokenize source = .ok (tokens ++ [Token.ending source.utf8ByteSize]) := by
  obtain ⟨tokens, texts, scanned⟩ := spells 0 []
  refine ⟨tokens, texts, ?_⟩
  rw [tokenize, start, scanned, ← Text.byteLength_toList]
  simp [Except.map, finish, closed]

end Scanner

end BLang
