import BLang.Proofs.Lexis
import Mathlib.Data.List.Induction

/-!
# What scanning finds

The scanner knows of the characters it has read whether they end in a comment or in a word, and it
holds the words before that.  Every step keeps this, and a step fails just at a character that does
not fit.  Hence a source is scanned exactly if all its characters fit, the tokens are its words, and
a failed scan stops at the first character that does not fit.
-/

namespace BLang

open Text

/-- The error at a character that comes after others. -/
def LexError.after (before : List Char) (char : Char) : LexError :=
  ⟨String.singleton char, spanAfter before [char]⟩

namespace Scanner

/-- The scanner has read the characters.  An unfinished word is not yet one of the tokens. -/
inductive Has : Scanner → List Char → Prop where
  | gap {chars : List Char} {tokens : List Token} (outside : ¬ EndsInComment chars)
      (between : ¬ EndsInWord chars) (words : WordsIn chars tokens)
      (behind : Behind chars tokens) : Has ⟨byteLength chars, .gap, tokens⟩ chars
  | comment {chars : List Char} {tokens : List Token} (inside : EndsInComment chars)
      (words : WordsIn chars tokens) (behind : Behind chars tokens) :
      Has ⟨byteLength chars, .comment, tokens⟩ chars
  | word {front letters : List Char} {tokens : List Token} (outside : ¬ EndsInComment front)
      (wordLetters : isWord letters.reverse = true) (words : WordsIn front tokens)
      (behind : Behind front tokens) :
      Has ⟨byteLength (front ++ letters.reverse), .word (byteLength front) letters, tokens⟩
        (front ++ letters.reverse)

/-- The character fits and has been read, or it does not fit and is the error. -/
def Reads (chars : List Char) (char : Char) : Except LexError Scanner → Prop
  | .ok next => next.Has (chars ++ [char]) ∧ Fits chars char
  | .error error => ¬ Fits chars char ∧ error = .after chars char

variable {chars : List Char} {tokens : List Token} {char : Char}

theorem has_gap (outside : ¬ EndsInComment (chars ++ [char]))
    (between : ¬ EndsInWord (chars ++ [char]))
    (words : WordsIn (chars ++ [char]) tokens) (behind : Behind (chars ++ [char]) tokens) :
    Has ⟨byteLength chars + char.utf8Size, .gap, tokens⟩ (chars ++ [char]) := by
  rw [← byteLength_append_singleton]
  exact .gap outside between words behind

/-- Outside comments a character begins a word, ends one or stands between words. -/
theorem reads_enter {mode : Mode} (outside : ¬ EndsInComment chars) (words : WordsIn chars tokens)
    (free : isWordPart char = true → Behind chars tokens ∧ ¬ EndsInWord chars) :
    Reads chars char (enter ⟨byteLength chars, mode, tokens⟩ char) := by
  have apart : ∀ token ∈ tokens, token.span.stop = byteLength chars → isWordPart char = false := by
    intro token member ends
    rw [← Bool.not_eq_true]
    intro part
    have before := (free part).1 token member
    omega
  unfold enter
  split
  next gap =>
    have line : ¬ EndsInComment (chars ++ [char]) := by
      rw [endsInComment_append, not_or]
      refine ⟨?_, fun inside => outside inside.1⟩
      rintro rfl
      exact absurd gap (by decide)
    have between := not_endsInWord_append chars (not_isWordPart_of_isGap gap)
    exact ⟨has_gap line between (words.skip apart (Or.inr gap)) (words.behind_append char),
      Or.inr (Or.inl gap)⟩
  next notGap =>
    split
    next hash =>
      have inside : EndsInComment (chars ++ [char]) :=
        (endsInComment_append chars char).mpr (Or.inl hash)
      refine ⟨?_, Or.inl inside⟩
      rw [pass, ← byteLength_append_singleton]
      exact .comment inside (words.skip apart (Or.inl inside)) (words.behind_append char)
    next notHash =>
      split
      next letter =>
        have part := isWordPart_of_isLetter letter
        have word : isWord [char].reverse = true := by simp [isWord, letter]
        refine ⟨?_, Or.inr (Or.inr (Or.inl letter))⟩
        rw [pass, ← byteLength_append_singleton]
        exact .word outside word words (free part).1
      next notLetter =>
        refine ⟨?_, rfl⟩
        rintro (inside | gap | letter | ⟨part, word⟩)
        · rcases (endsInComment_append chars char).mp inside with hash | ⟨earlier, _⟩
          · exact notHash hash
          · exact outside earlier
        · exact notGap gap
        · exact notLetter letter
        · exact (free ((isWordPart_iff char).mpr (Or.inr part))).2 word

/-- A comment goes on with every character and ends with the line. -/
theorem reads_comment (inside : EndsInComment chars) (words : WordsIn chars tokens)
    (behind : Behind chars tokens) :
    Reads chars char (step ⟨byteLength chars, .comment, tokens⟩ char) := by
  have apart : ∀ token ∈ tokens, token.span.stop = byteLength chars → isWordPart char = false := by
    intro token member ends
    have before := behind token member
    omega
  simp only [step, pass]
  by_cases line : char = '\n'
  · have gap : isGap char = true := by
      rw [line]
      decide
    have outside : ¬ EndsInComment (chars ++ [char]) := by
      rw [endsInComment_append, line]
      simp
    refine ⟨?_, Or.inr (Or.inl gap)⟩
    rw [if_pos line]
    exact has_gap outside (not_endsInWord_append chars (not_isWordPart_of_isGap gap))
      (words.skip apart (Or.inr gap)) (words.behind_append char)
  · have further : EndsInComment (chars ++ [char]) :=
      (endsInComment_append chars char).mpr (Or.inr ⟨inside, line⟩)
    refine ⟨?_, Or.inl further⟩
    rw [if_neg line, ← byteLength_append_singleton]
    exact .comment further (words.skip apart (Or.inl further)) (words.behind_append char)

/-- A step reads the character. -/
theorem reads_step {scanner : Scanner} (has : scanner.Has chars) (char : Char) :
    Reads chars char (scanner.step char) := by
  cases has with
  | gap outside between words behind =>
      exact reads_enter outside words fun _ => ⟨behind, between⟩
  | comment inside words behind => exact reads_comment inside words behind
  | @word front letters tokens outside wordLetters words behind =>
      have parts := isWordPart_of_isWord wordLetters
      simp only [step]
      split
      next part =>
        have longer := isWord_append wordLetters part
        rw [← List.reverse_cons] at longer
        constructor
        · rw [pass, ← byteLength_append_singleton, List.append_assoc, ← List.reverse_cons]
          exact .word outside longer words behind
        · rcases (isWordPart_iff char).mp part with letter | other
          · exact Or.inr (Or.inr (Or.inl letter))
          · exact Or.inr (Or.inr (Or.inr ⟨other, front, letters.reverse, rfl, wordLetters⟩))
      next notPart =>
        have whole := words.add behind outside wordLetters
        rw [spanAfter, ← byteLength_append] at whole
        exact reads_enter (not_endsInComment_append_word outside parts) whole fun part =>
          absurd part notPart

/-- How a scan of the characters from the start can end. -/
inductive Scans (chars : List Char) : Except LexError Scanner → Prop where
  | ok {scanner : Scanner} (has : scanner.Has chars) (fits : Scannable chars) :
      Scans chars (.ok scanner)
  | error {before : List Char} {char : Char} {scanner : Scanner}
      (front : before ++ [char] <+: chars) (scanned : start.scan before = .ok scanner)
      (fits : Scannable before) (unfit : ¬ Fits before char) :
      Scans chars (.error (.after before char))

theorem scans (chars : List Char) : Scans chars (start.scan chars) := by
  induction chars using List.reverseRecOn with
  | nil =>
      refine .ok ?_ ?_
      · exact .gap not_endsInComment_nil not_endsInWord_nil .nil (List.forall_mem_nil _)
      · intro before char front
        exact absurd (List.prefix_nil.mp front) (List.append_ne_nil_of_right_ne_nil _ (by simp))
  | append_singleton chars char ih =>
      rw [scan_append]
      generalize scanned : start.scan chars = outcome at ih
      cases ih with
      | error front earlier fits unfit =>
          exact .error (front.trans (List.prefix_append _ _)) earlier fits unfit
      | @ok scanner has fits =>
          have reads := reads_step has char
          have last : scanner.scan [char] = scanner.step char := by
            cases stepped : scanner.step char with
            | ok next => exact scan_cons [] stepped
            | error error => simp [scan, stepped, bind, Except.bind]
          change Scans _ (scanner.scan [char])
          rw [last]
          generalize scanner.step char = outcome at reads
          cases outcome with
          | ok next =>
              refine .ok reads.1 fun before other front => ?_
              rcases List.prefix_concat_iff.mp front with whole | earlier
              · obtain ⟨rfl, single⟩ := List.append_inj' whole rfl
                cases single
                exact reads.2
              · exact fits before other earlier
          | error error =>
              rw [reads.2]
              exact .error (List.prefix_refl _) scanned fits reads.1

/-- At the end of the characters an unfinished word is one of the words. -/
theorem Has.words_closed {scanner : Scanner} (has : scanner.Has chars) :
    scanner.position = byteLength chars ∧ WordsIn chars scanner.closed := by
  cases has with
  | gap outside between words behind => exact ⟨rfl, words⟩
  | comment inside words behind => exact ⟨rfl, words⟩
  | word outside wordLetters words behind =>
      have whole := words.add behind outside wordLetters
      rw [spanAfter, ← byteLength_append] at whole
      exact ⟨rfl, whole⟩

end Scanner

/-! ## The tokens of a source -/

/-- The words of all characters of a source, put in their order. -/
theorem WordsIn.reverse {source : String} {tokens : List Token}
    (words : WordsIn source.toList tokens) : WordsOf source tokens.reverse where
  slice := by
    intro token member
    obtain ⟨front, back, chars, span, _⟩ := (words.found token (List.mem_reverse.mp member)).place
    exact slice?_eq_some_iff.mpr ⟨front, back, chars, span⟩
  word token member := (words.found token (List.mem_reverse.mp member)).word
  maximal := by
    intro token member before next front ends
    obtain ⟨start, back, chars, span, last⟩ :=
      (words.found token (List.mem_reverse.mp member)).place
    obtain ⟨after, same⟩ := front
    rw [chars, List.append_assoc, List.singleton_append] at same
    rw [span, spanAfter, ← byteLength_append] at ends
    obtain ⟨_, rfl⟩ := append_inj_of_byteLength same ends
    exact last next rfl
  nonempty token member := (words.found token (List.mem_reverse.mp member)).start_lt_stop
  ordered := List.pairwise_reverse.mpr words.ordered
  rest := by
    intro before char front
    have covered := not_congr (words.rest before char front)
    rw [not_and_or, not_not, Bool.not_eq_false, not_exists] at covered
    simpa only [List.mem_reverse, not_and] using covered

/-- How scanning a source can end: with its words and the end marker, or with an error at the first
character that does not fit. -/
inductive Tokenizes (source : String) : Except LexError (List Token) → Prop where
  | ok {words : List Token} (wordsOf : WordsOf source words) (fits : Scannable source.toList) :
      Tokenizes source (.ok (words ++ [Token.ending source.utf8ByteSize]))
  | error {before : List Char} {char : Char} {tokens : List Token}
      (front : before ++ [char] <+: source.toList)
      (earlier : tokenize (String.ofList before) = .ok tokens) (fits : Scannable before)
      (unfit : ¬ Fits before char) : Tokenizes source (.error (.after before char))

theorem tokenizes (source : String) : Tokenizes source (tokenize source) := by
  have scans := Scanner.scans source.toList
  rw [tokenize]
  generalize Scanner.start.scan source.toList = outcome at scans
  cases scans with
  | @ok scanner has fits =>
      obtain ⟨position, words⟩ := has.words_closed
      have finished : scanner.finish =
          scanner.closed.reverse ++ [Token.ending source.utf8ByteSize] := by
        rw [Scanner.finish, List.reverse_cons, position, byteLength_toList]
      change Tokenizes source (.ok scanner.finish)
      rw [finished]
      exact .ok words.reverse fits
  | @error before char scanner front scanned fits unfit =>
      have earlier : tokenize (String.ofList before) = .ok scanner.finish := by
        rw [tokenize, String.toList_ofList, scanned]
        rfl
      exact .error front earlier fits unfit

/-- The error about a character has that character at its place. -/
theorem LexError.slice?_after {source : String} {before : List Char} {char : Char}
    (front : before ++ [char] <+: source.toList) :
    slice? source (LexError.after before char).span = some (LexError.after before char).text := by
  obtain ⟨after, chars⟩ := front
  have text : (LexError.after before char).text.toList = [char] := String.toList_singleton char
  refine slice?_eq_some_iff.mpr ⟨before, after, ?_, ?_⟩
  · rw [text, chars]
  · rw [text]
    rfl

/-- A source is scanned exactly if every character outside comments is a gap, a letter, or a digit
or hyphen that goes on with a word.  Then its tokens are its words in their order, each as long as
it can be, and after them the end marker at the byte length; none of the words is that marker, and
between them are only gaps and comments.  Otherwise the error is about the first character that is
none of these, and the text before it can be scanned. -/
theorem tokenize_describes_source (source : String) :
    ((∃ tokens, tokenize source = .ok tokens) ↔
      ∀ before char, before ++ [char] <+: source.toList →
        EndsInComment (before ++ [char]) ∨ isGap char = true ∨ isLetter char = true ∨
          (char.isDigit = true ∨ char = '-') ∧ EndsInWord before) ∧
    (∀ tokens, tokenize source = .ok tokens →
      ∃ words, tokens = words ++ [⟨endMarker, Span.point source.utf8ByteSize⟩] ∧
        (∀ token ∈ words, token.lexeme ≠ endMarker) ∧ WordsOf source words) ∧
    (∀ error, tokenize source = .error error →
      ∃ before char after, source.toList = before ++ char :: after ∧
        error.text = String.singleton char ∧
        error.span = ⟨byteLength before, byteLength before + char.utf8Size⟩ ∧
        slice? source error.span = some error.text ∧
        Scannable before ∧ ¬ Fits before char ∧
        ∃ tokens, tokenize (String.ofList before) = .ok tokens) := by
  have outcome := tokenizes source
  generalize tokenize source = result at outcome
  cases outcome with
  | @ok words wordsOf fits =>
      refine ⟨⟨fun _ => fits, fun _ => ⟨_, rfl⟩⟩, ?_, nofun⟩
      rintro tokens ⟨⟩
      exact ⟨words, rfl, fun token member => ne_endMarker_of_isWord (wordsOf.word token member),
        wordsOf⟩
  | @error before char tokens front earlier fits unfit =>
      refine ⟨⟨nofun, fun all => absurd (all before char front) unfit⟩, nofun, ?_⟩
      rintro error ⟨⟩
      obtain ⟨after, chars⟩ := front
      exact ⟨before, char, after, by rw [← chars, List.append_assoc]; rfl, rfl, rfl,
        LexError.slice?_after ⟨after, chars⟩, fits, unfit, tokens, earlier⟩

/-- A word that a comment ends, with a character of two bytes in the comment, and a digit that
begins a word. -/
theorem commented_source_describes :
    tokenize "x-1# é\nEND" =
        .ok [⟨"x-1", ⟨0, 3⟩⟩, ⟨"END", ⟨8, 11⟩⟩, ⟨endMarker, Span.point 11⟩] ∧
      WordsOf "x-1# é\nEND" [⟨"x-1", ⟨0, 3⟩⟩, ⟨"END", ⟨8, 11⟩⟩] ∧
      tokenize "go # é\n2go" = .error ⟨"2", ⟨8, 9⟩⟩ ∧
      slice? "go # é\n2go" ⟨8, 9⟩ = some "2" := by
  have scanned : tokenize "x-1# é\nEND" =
      .ok [⟨"x-1", ⟨0, 3⟩⟩, ⟨"END", ⟨8, 11⟩⟩, ⟨endMarker, Span.point 11⟩] := by rfl
  have refused : tokenize "go # é\n2go" = .error ⟨"2", ⟨8, 9⟩⟩ := by rfl
  obtain ⟨words, same, _, wordsOf⟩ := (tokenize_describes_source _).2.1 _ scanned
  obtain ⟨_, _, _, _, _, _, sliced, _⟩ := (tokenize_describes_source _).2.2 _ refused
  have both : [⟨"x-1", ⟨0, 3⟩⟩, ⟨"END", ⟨8, 11⟩⟩] = words := List.append_cancel_right same
  subst both
  exact ⟨scanned, wordsOf, refused, sliced⟩

end BLang
