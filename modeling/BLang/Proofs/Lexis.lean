import BLang.Proofs.Scanning
import BLang.Text.Slice
import Mathlib.Data.List.Infix

/-!
# Comments and words of a text

What a character of a source belongs to is a matter of the characters up to it.  It stands in a
comment if a `#` stands at it or before it on its line, and it goes on with a word if the characters
before it end in one.  A source can be scanned if every character outside comments is a gap, a
letter, or a digit or hyphen that goes on with a word; its tokens are then the words of the text
between the gaps and comments.
-/

namespace BLang

open Text

/-- The last of the characters belongs to a comment: a `#` stands there or earlier on the line. -/
def EndsInComment (chars : List Char) : Prop :=
  ∃ front comment, chars = front ++ '#' :: comment ∧ '\n' ∉ comment

/-- The last of the characters belongs to a word that begins with a letter. -/
def EndsInWord (chars : List Char) : Prop :=
  ∃ front word, chars = front ++ word ∧ isWord word = true

/-- The character may come after the others in a source. -/
def Fits (before : List Char) (char : Char) : Prop :=
  EndsInComment (before ++ [char]) ∨ isGap char = true ∨ isLetter char = true ∨
    (char.isDigit = true ∨ char = '-') ∧ EndsInWord before

/-- Every character may come after those before it. -/
def Scannable (chars : List Char) : Prop :=
  ∀ before char, before ++ [char] <+: chars → Fits before char

/-- The span contains the byte at the position. -/
def Span.Covers (span : Span) (position : Nat) : Prop :=
  span.start ≤ position ∧ position < span.stop

/-- The tokens are the words of the source in their order: each has the text at its span and is as
long as it can be, and the characters in none of them are those of gaps and comments. -/
structure WordsOf (source : String) (tokens : List Token) : Prop where
  slice : ∀ token ∈ tokens, slice? source token.span = some token.lexeme
  word : ∀ token ∈ tokens, isWord token.lexeme.toList = true
  maximal : ∀ token ∈ tokens, ∀ before next, before ++ [next] <+: source.toList →
    byteLength before = token.span.stop → isWordPart next = false
  nonempty : ∀ token ∈ tokens, token.span.start < token.span.stop
  ordered : tokens.Pairwise fun left right => left.span.stop < right.span.start
  rest : ∀ before char, before ++ [char] <+: source.toList →
    ((∀ token ∈ tokens, ¬ token.span.Covers (byteLength before)) ↔
      EndsInComment (before ++ [char]) ∨ isGap char = true)

/-- A list that ends with an element and in another list: the other list is empty or ends with the
element as well. -/
theorem append_singleton_eq_append {α : Type} {whole front back : List α} {last : α}
    (same : whole ++ [last] = front ++ back) :
    back = [] ∨ ∃ earlier, back = earlier ++ [last] ∧ whole = front ++ earlier := by
  rcases List.eq_nil_or_concat' back with rfl | ⟨earlier, final, rfl⟩
  · exact Or.inl rfl
  · rw [← List.append_assoc] at same
    obtain ⟨rfl, single⟩ := List.append_inj' same rfl
    cases single
    exact Or.inr ⟨earlier, rfl, rfl⟩

/-- An element at a place of two lists in a row has its place in one of them. -/
theorem prefix_of_append_singleton_prefix {α : Type} {before left right : List α} {last : α}
    (front : before ++ [last] <+: left ++ right) :
    before ++ [last] <+: left ∨ ∃ inside, before = left ++ inside ∧ inside ++ [last] <+: right := by
  obtain ⟨after, same⟩ := front
  rcases List.append_eq_append_iff.mp same with ⟨rest, rfl, _⟩ | ⟨rest, whole, rfl⟩
  · exact Or.inl (List.prefix_append _ rest)
  · rcases append_singleton_eq_append whole with rfl | ⟨inside, rfl, rfl⟩
    · rw [List.append_nil] at whole
      exact Or.inl (whole ▸ List.prefix_refl _)
    · exact Or.inr ⟨inside, rfl, List.prefix_append _ after⟩

/-! ## Comments -/

theorem not_endsInComment_nil : ¬ EndsInComment [] := by
  rintro ⟨front, comment, same, _⟩
  exact List.append_ne_nil_of_right_ne_nil front (List.cons_ne_nil _ _) same.symm

/-- A comment begins with `#` and goes on until the line ends. -/
theorem endsInComment_append (chars : List Char) (char : Char) :
    EndsInComment (chars ++ [char]) ↔ char = '#' ∨ EndsInComment chars ∧ char ≠ '\n' := by
  constructor
  · rintro ⟨front, comment, same, line⟩
    rcases append_singleton_eq_append (same.trans (List.append_cons _ _ _)) with
      rfl | ⟨earlier, rfl, rfl⟩
    · exact Or.inl (List.cons.inj (List.append_inj' same rfl).2).1
    · rw [List.mem_append, List.mem_singleton, not_or] at line
      exact Or.inr ⟨⟨front, earlier, (List.append_cons _ _ _).symm, line.1⟩, Ne.symm line.2⟩
  · rintro (rfl | ⟨⟨front, comment, rfl, line⟩, inside⟩)
    · exact ⟨chars, [], rfl, List.not_mem_nil⟩
    · refine ⟨front, comment ++ [char], by rw [List.append_assoc]; rfl, ?_⟩
      rw [List.mem_append, List.mem_singleton, not_or]
      exact ⟨line, Ne.symm inside⟩

theorem ne_hash_of_isWordPart {char : Char} (part : isWordPart char = true) : char ≠ '#' := by
  rintro rfl
  exact absurd part (by decide)

/-- The characters of a word begin no comment. -/
theorem not_endsInComment_append_word {chars word : List Char} (outside : ¬ EndsInComment chars)
    (parts : ∀ char ∈ word, isWordPart char = true) : ¬ EndsInComment (chars ++ word) := by
  induction word generalizing chars with
  | nil => rwa [List.append_nil]
  | cons char rest ih =>
      obtain ⟨first, others⟩ := List.forall_mem_cons.mp parts
      rw [List.append_cons]
      refine ih ?_ others
      rw [endsInComment_append, not_or]
      exact ⟨ne_hash_of_isWordPart first, fun inside => outside inside.1⟩

/-! ## Words -/

theorem isWordPart_of_isWord {word : List Char} (wordLetters : isWord word = true) :
    ∀ char ∈ word, isWordPart char = true := by
  cases word with
  | nil => cases wordLetters
  | cons first rest =>
      obtain ⟨letter, parts⟩ := (Bool.and_eq_true _ _).mp wordLetters
      exact List.forall_mem_cons.mpr ⟨isWordPart_of_isLetter letter, List.all_eq_true.mp parts⟩

theorem not_endsInWord_nil : ¬ EndsInWord [] := by
  rintro ⟨front, word, same, wordLetters⟩
  rw [(List.append_eq_nil_iff.mp same.symm).2] at wordLetters
  cases wordLetters

/-- A character that cannot go on with a word ends none. -/
theorem not_endsInWord_append {char : Char} (chars : List Char)
    (notPart : isWordPart char = false) : ¬ EndsInWord (chars ++ [char]) := by
  rintro ⟨front, word, same, wordLetters⟩
  rcases append_singleton_eq_append same with rfl | ⟨earlier, rfl, _⟩
  · cases wordLetters
  · have part := isWordPart_of_isWord wordLetters char (List.mem_append_right _ List.mem_cons_self)
    rw [part] at notPart
    cases notPart

theorem isWord_append {word : List Char} {char : Char} (wordLetters : isWord word = true)
    (part : isWordPart char = true) : isWord (word ++ [char]) = true := by
  cases word with
  | nil => cases wordLetters
  | cons first rest =>
      obtain ⟨letter, parts⟩ := (Bool.and_eq_true _ _).mp wordLetters
      simp [isWord, letter, parts, part]

theorem isWordPart_iff (char : Char) :
    isWordPart char = true ↔ isLetter char = true ∨ char.isDigit = true ∨ char = '-' := by
  simp only [isWordPart, Char.isAlphanum, isLetter, Bool.or_eq_true, decide_eq_true_eq, or_assoc]

/-! ## Words found in a text -/

/-- The token is a word of the characters at its place, as long as it can be. -/
structure Token.Found (token : Token) (chars : List Char) : Prop where
  word : isWord token.lexeme.toList = true
  place : ∃ front back, chars = front ++ token.lexeme.toList ++ back ∧
    token.span = spanAfter front token.lexeme.toList ∧
    ∀ next ∈ back.head?, isWordPart next = false

namespace Token.Found

variable {token : Token} {chars : List Char}

theorem stop_le (found : token.Found chars) : token.span.stop ≤ byteLength chars := by
  obtain ⟨front, back, rfl, span, _⟩ := found.place
  simp only [span, spanAfter, byteLength_append]
  omega

theorem start_lt_stop (found : token.Found chars) : token.span.start < token.span.stop := by
  obtain ⟨front, back, _, span, _⟩ := found.place
  have word := found.word
  cases same : token.lexeme.toList with
  | nil =>
      rw [same] at word
      cases word
  | cons first rest =>
      have positive := first.utf8Size_pos
      simp only [span, spanAfter, same, byteLength]
      omega

/-- More characters leave a word as long as it is, unless it ends where they begin and they go on
with it. -/
theorem append (found : token.Found chars) {more : List Char}
    (apart : token.span.stop = byteLength chars → ∀ next ∈ more.head?, isWordPart next = false) :
    token.Found (chars ++ more) := by
  obtain ⟨word, front, back, rfl, span, ends⟩ := found
  refine ⟨word, front, back ++ more, by rw [List.append_assoc], span, ?_⟩
  cases back with
  | nil =>
      refine apart ?_
      rw [span, List.append_nil, byteLength_append]
      rfl
  | cons first rest => exact ends

end Token.Found

/-- The tokens, latest first, are the words of the characters. -/
structure WordsIn (chars : List Char) (tokens : List Token) : Prop where
  found : ∀ token ∈ tokens, token.Found chars
  ordered : tokens.Pairwise fun later earlier => earlier.span.stop < later.span.start
  rest : ∀ before char, before ++ [char] <+: chars →
    ((∃ token ∈ tokens, token.span.Covers (byteLength before)) ↔
      ¬ EndsInComment (before ++ [char]) ∧ isGap char = false)

/-- The tokens end before the last of the characters. -/
def Behind (chars : List Char) (tokens : List Token) : Prop :=
  ∀ token ∈ tokens, token.span.stop < byteLength chars

theorem byteLength_append_singleton (chars : List Char) (char : Char) :
    byteLength (chars ++ [char]) = byteLength chars + char.utf8Size :=
  byteLength_append chars [char]

theorem byteLength_lt_append (chars : List Char) (char : Char) :
    byteLength chars < byteLength (chars ++ [char]) := by
  have positive := char.utf8Size_pos
  rw [byteLength_append_singleton]
  omega

theorem byteLength_lt_of_prefix {before chars : List Char} {char : Char}
    (front : before ++ [char] <+: chars) : byteLength before < byteLength chars := by
  obtain ⟨after, rfl⟩ := front
  have longer := byteLength_lt_append before char
  rw [byteLength_append (before ++ [char])]
  omega

namespace WordsIn

variable {chars : List Char} {tokens : List Token} {char : Char}

theorem nil : WordsIn [] [] where
  found := List.forall_mem_nil _
  ordered := .nil
  rest := by
    intro before char front
    exact absurd (List.prefix_nil.mp front) (List.append_ne_nil_of_right_ne_nil _ (by simp))

theorem behind_append (words : WordsIn chars tokens) (char : Char) :
    Behind (chars ++ [char]) tokens := by
  intro token member
  have longer := byteLength_lt_append chars char
  have within := (words.found token member).stop_le
  omega

/-- A character of a gap or a comment adds no word. -/
theorem skip (words : WordsIn chars tokens)
    (apart : ∀ token ∈ tokens, token.span.stop = byteLength chars → isWordPart char = false)
    (skipped : EndsInComment (chars ++ [char]) ∨ isGap char = true) :
    WordsIn (chars ++ [char]) tokens where
  found := by
    intro token member
    refine (words.found token member).append fun ends next first => ?_
    cases Option.some.inj first
    exact apart token member ends
  ordered := words.ordered
  rest := by
    intro before other front
    rcases List.prefix_concat_iff.mp front with whole | earlier
    · obtain ⟨rfl, single⟩ := List.append_inj' whole rfl
      cases single
      apply iff_of_false
      · rintro ⟨token, member, covers⟩
        have within := (words.found token member).stop_le
        have beyond := covers.2
        omega
      · rintro ⟨outside, visible⟩
        rcases skipped with inside | gap
        · exact outside inside
        · rw [gap] at visible
          cases visible
    · exact words.rest before other earlier

/-- A whole word after the characters is one more token. -/
theorem add (words : WordsIn chars tokens) (behind : Behind chars tokens) {word : List Char}
    (outside : ¬ EndsInComment chars) (wordLetters : isWord word = true) :
    WordsIn (chars ++ word) (⟨String.ofList word, spanAfter chars word⟩ :: tokens) where
  found := by
    refine List.forall_mem_cons.mpr ⟨⟨?_, chars, [], ?_, ?_, ?_⟩, fun token member => ?_⟩
    · rwa [String.toList_ofList]
    · rw [String.toList_ofList, List.append_nil]
    · rw [String.toList_ofList]
    · intro next first
      cases first
    · refine (words.found token member).append fun ends => ?_
      have before := behind token member
      omega
  ordered := List.pairwise_cons.mpr ⟨fun token member => behind token member, words.ordered⟩
  rest := by
    intro before char front
    simp only [List.exists_mem_cons_iff]
    rcases prefix_of_append_singleton_prefix front with earlier | ⟨inside, rfl, within⟩
    · have inFront := byteLength_lt_of_prefix earlier
      have apart : ¬ (spanAfter chars word).Covers (byteLength before) := by
        intro covers
        have start : byteLength chars ≤ byteLength before := covers.1
        omega
      rw [or_iff_right apart]
      exact words.rest before char earlier
    · have parts := isWordPart_of_isWord wordLetters
      have covers : (spanAfter chars word).Covers (byteLength (chars ++ inside)) := by
        have length := byteLength_lt_of_prefix within
        simp only [spanAfter, Span.Covers, byteLength_append]
        omega
      have visible : isGap char = false := by
        rw [← Bool.not_eq_true]
        intro gap
        have part := parts char (within.subset (List.mem_append_right _ List.mem_cons_self))
        rw [not_isWordPart_of_isGap gap] at part
        cases part
      refine iff_of_true (Or.inl covers) ⟨?_, visible⟩
      rw [List.append_assoc]
      exact not_endsInComment_append_word outside fun other member =>
        parts other (within.subset member)

end WordsIn

end BLang
