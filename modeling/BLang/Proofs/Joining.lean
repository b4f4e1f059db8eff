import BLang.Proofs.Sources

/-!
# Sources joined by a line break

A line break ends whatever the scanner is in, a word or a comment, and leaves it between words.  From
there it scans as it does from the start of a source, at places further on and after the tokens it
already holds.  So two sources with a line break between them are scanned one after the other, and
the words of the whole are those of the first and then those of the second.
-/

namespace BLang

open Text

/-- The span as many bytes further on. -/
def Span.further (offset : Nat) (span : Span) : Span :=
  ⟨offset + span.start, offset + span.stop⟩

/-- The error as many bytes further on. -/
def LexError.further (offset : Nat) (error : LexError) : LexError :=
  ⟨error.text, error.span.further offset⟩

namespace Scanner

/-! ## A scan further on -/

def Mode.further (offset : Nat) : Mode → Mode
  | gap => gap
  | comment => comment
  | word start letters => word (offset + start) letters

/-- The scanner as many bytes further on, after earlier tokens. -/
def further (offset : Nat) (earlier : List Token) (scanner : Scanner) : Scanner where
  position := offset + scanner.position
  mode := scanner.mode.further offset
  tokens := scanner.tokens.map (Token.relocated (Span.further offset)) ++ earlier

variable {offset : Nat} {earlier : List Token}

/-- The outcome of a scan as many bytes further on. -/
def outcomeFurther (offset : Nat) (earlier : List Token) :
    Except LexError Scanner → Except LexError Scanner
  | .ok scanner => .ok (scanner.further offset earlier)
  | .error error => .error (error.further offset)

theorem pass_further (scanner : Scanner) (char : Char) (mode : Mode) :
    (scanner.further offset earlier).pass char (mode.further offset) =
      (scanner.pass char mode).further offset earlier := by
  simp only [further, pass, Nat.add_assoc]

theorem closed_further (scanner : Scanner) :
    (scanner.further offset earlier).closed =
      scanner.closed.map (Token.relocated (Span.further offset)) ++ earlier := by
  rcases scanner with ⟨position, mode, tokens⟩
  cases mode <;> rfl

theorem enter_further (scanner : Scanner) (char : Char) :
    (scanner.further offset earlier).enter char =
      outcomeFurther offset earlier (scanner.enter char) := by
  unfold enter
  split
  · exact congrArg Except.ok (pass_further scanner char .gap)
  · split
    · exact congrArg Except.ok (pass_further scanner char .comment)
    · split
      · exact congrArg Except.ok (pass_further scanner char (.word scanner.position [char]))
      · simp only [outcomeFurther, LexError.further, Span.further, further, Nat.add_assoc]

/-- A step does not depend on the place of the scanner, nor on the tokens it holds. -/
theorem step_further (scanner : Scanner) (char : Char) :
    (scanner.further offset earlier).step char =
      outcomeFurther offset earlier (scanner.step char) := by
  rcases scanner with ⟨position, mode, tokens⟩
  cases mode with
  | gap => exact enter_further ⟨position, .gap, tokens⟩ char
  | comment =>
      let scanner : Scanner := ⟨position, .comment, tokens⟩
      by_cases line : char = '\n'
      · simp only [step, if_pos line]
        exact congrArg Except.ok (pass_further scanner char .gap)
      · simp only [step, if_neg line]
        exact congrArg Except.ok (pass_further scanner char .comment)
  | word start letters =>
      let scanner : Scanner := ⟨position, .word start letters, tokens⟩
      by_cases part : isWordPart char = true
      · simp only [step, if_pos part]
        exact congrArg Except.ok (pass_further scanner char (.word start (char :: letters)))
      · simp only [step, if_neg part]
        rw [← enter_further, closed_further]
        rfl

theorem scan_further (scanner : Scanner) (chars : List Char) :
    (scanner.further offset earlier).scan chars =
      outcomeFurther offset earlier (scanner.scan chars) := by
  induction chars generalizing scanner with
  | nil => rfl
  | cons char rest ih =>
      simp only [scan, List.foldlM_cons, step_further]
      cases scanner.step char with
      | error error => rfl
      | ok next => exact ih next

/-! ## Line breaks -/

/-- A line break ends a word or a comment. -/
theorem step_lineBreak (scanner : Scanner) :
    scanner.step '\n' = .ok ⟨scanner.position + 1, .gap, scanner.closed⟩ := by
  rcases scanner with ⟨position, mode, tokens⟩
  cases mode <;> rfl

/-- After a line break a scan is one from the start, further on. -/
theorem scan_lineBreak (scanner : Scanner) (chars : List Char) :
    scanner.scan ('\n' :: chars) =
      outcomeFurther (scanner.position + 1) scanner.closed (start.scan chars) := by
  rw [scan_cons chars (step_lineBreak scanner), ← scan_further]
  rfl

theorem finish_further (scanner : Scanner) :
    (scanner.further offset earlier).finish =
      earlier.reverse ++ scanner.finish.map (Token.relocated (Span.further offset)) := by
  simp only [finish, closed_further, List.reverse_cons, List.reverse_append, List.map_append,
    List.map_reverse, List.append_assoc]
  rfl

end Scanner

open Scanner (start)

/-- A source on the lines after another is scanned if both are, and then the tokens are those of the
first without the end marker and those of the second further on.  The first error decides. -/
theorem tokenize_joined (first second : String) :
    tokenize (first ++ "\n" ++ second) = do
      let found ← tokenize first
      let more ← (tokenize second).mapError (LexError.further (first.utf8ByteSize + 1))
      return found.dropLast ++
        more.map (Token.relocated (Span.further (first.utf8ByteSize + 1))) := by
  have chars : (first ++ "\n" ++ second).toList = first.toList ++ '\n' :: second.toList := by
    simp
  have outcome := Scanner.scans first.toList
  unfold tokenize
  rw [chars, Scanner.scan_append]
  generalize start.scan first.toList = scanned at outcome
  cases outcome with
  | error => rfl
  | @ok scanner has fits =>
      have position : scanner.position = first.utf8ByteSize :=
        has.words_closed.1.trans (byteLength_toList first)
      have scanned := scanner.scan_lineBreak second.toList
      rw [position] at scanned
      have found : scanner.finish.dropLast = scanner.closed.reverse := by
        rw [Scanner.finish, List.reverse_cons, List.dropLast_concat]
      change (scanner.scan ('\n' :: second.toList)).map Scanner.finish = _
      rw [scanned]
      cases start.scan second.toList with
      | error error => rfl
      | ok next =>
          change Except.ok (next.further _ _).finish = _
          rw [Scanner.finish_further, ← found]
          rfl

/-- Two sources with a line break between them are scanned apart.  An error in the first is that of
the whole.  After a whole first source an error in the second is that of the whole, as many bytes
further on as the first source and the line break take.  And if both are scanned, the tokens of the
whole are those of the first up to its end marker and then those of the second, further on. -/
theorem sources_on_lines_scan_apart (first second : String) :
    (∀ error, tokenize first = .error error →
      tokenize (first ++ "\n" ++ second) = .error error) ∧
    (∀ found error, tokenize first = .ok found → tokenize second = .error error →
      tokenize (first ++ "\n" ++ second) =
        .error ⟨error.text, error.span.further (first.utf8ByteSize + 1)⟩) ∧
    (∀ found more, tokenize first = .ok found → tokenize second = .ok more →
      ∃ words, found = words ++ [Token.ending first.utf8ByteSize] ∧
        tokenize (first ++ "\n" ++ second) =
          .ok (words ++ more.map fun token =>
            ⟨token.lexeme, token.span.further (first.utf8ByteSize + 1)⟩)) := by
  rw [tokenize_joined]
  refine ⟨?_, ?_, ?_⟩
  · intro error failed
    rw [failed]
    rfl
  · intro found error scanned failed
    rw [scanned, failed]
    rfl
  · intro found more scanned moreScanned
    obtain ⟨words, rfl, _⟩ := tokens_of_tokenize scanned
    refine ⟨words, rfl, ?_⟩
    rw [scanned, moreScanned]
    change Except.ok ((words ++ [Token.ending first.utf8ByteSize]).dropLast ++ _) = _
    rw [List.dropLast_concat]
    rfl

/-- A word and a comment that end with the source, the comment with a character of two bytes. -/
def openEnded : String := "skip#é"

theorem openEnded_scans_apart :
    tokenize openEnded = .ok [⟨"skip", ⟨0, 4⟩⟩, Token.ending 7] ∧
      tokenize "move" = .ok [⟨"move", ⟨0, 4⟩⟩, Token.ending 4] ∧
      tokenize (openEnded ++ "\n" ++ "move") =
        .ok [⟨"skip", ⟨0, 4⟩⟩, ⟨"move", ⟨8, 12⟩⟩, Token.ending 12] ∧
      tokenize "-" = .error ⟨"-", ⟨0, 1⟩⟩ ∧
      tokenize (openEnded ++ "\n" ++ "-") = .error ⟨"-", ⟨8, 9⟩⟩ ∧
      tokenize ("-" ++ "\n" ++ openEnded) = .error ⟨"-", ⟨0, 1⟩⟩ := by
  have ended : tokenize openEnded = .ok [⟨"skip", ⟨0, 4⟩⟩, Token.ending 7] := by rfl
  have more : tokenize "move" = .ok [⟨"move", ⟨0, 4⟩⟩, Token.ending 4] := by rfl
  have failed : tokenize "-" = .error ⟨"-", ⟨0, 1⟩⟩ := by rfl
  obtain ⟨words, same, joined⟩ := (sources_on_lines_scan_apart openEnded "move").2.2 _ _ ended more
  have skip : [⟨"skip", ⟨0, 4⟩⟩] ++ [Token.ending 7] = words ++ [Token.ending 7] := same
  cases List.append_cancel_right skip
  exact ⟨ended, more, joined, failed,
    (sources_on_lines_scan_apart openEnded "-").2.1 _ _ ended failed,
    (sources_on_lines_scan_apart "-" openEnded).1 _ failed⟩

namespace Source

/-- The source is scanned to these words and the end marker. -/
def HasWords (source : String) (words : List String) : Prop :=
  ∃ tokens, tokenize source = .ok tokens ∧ lexemes tokens = words ++ [endMarker]

theorem hasWords_iff {source : String} {words : List String} :
    HasWords source words ↔ ∃ tokens, lexemes tokens = words ∧
      tokenize source = .ok (tokens ++ [Token.ending source.utf8ByteSize]) := by
  constructor
  · rintro ⟨tokens, scanned, texts⟩
    obtain ⟨found, rfl, _⟩ := tokens_of_tokenize scanned
    rw [lexemes_append] at texts
    exact ⟨found, List.append_cancel_right texts, scanned⟩
  · rintro ⟨tokens, rfl, scanned⟩
    exact ⟨_, scanned, lexemes_append _ _⟩

theorem exists_hasWords {source : String} {tokens : List Token}
    (scanned : tokenize source = .ok tokens) : ∃ words, HasWords source words := by
  obtain ⟨found, rfl, _⟩ := tokens_of_tokenize scanned
  exact ⟨lexemes found, hasWords_iff.mpr ⟨found, rfl, scanned⟩⟩

theorem HasWords.unique {source : String} {words others : List String}
    (first : HasWords source words) (second : HasWords source others) : words = others := by
  obtain ⟨tokens, scanned, texts⟩ := first
  obtain ⟨found, foundScanned, foundTexts⟩ := second
  cases scanned.symm.trans foundScanned
  exact List.append_cancel_right (texts.symm.trans foundTexts)

theorem hasWords_of_spells {source : String} {words : List String}
    (spells : Scanner.Spells source.toList words) : HasWords source words :=
  hasWords_iff.mpr spells.tokenize_eq

/-- The words of two joined sources are those of the first and those of the second. -/
theorem hasWords_joined {first second : String} {words : List String} :
    HasWords (first ++ "\n" ++ second) words ↔
      ∃ left right, HasWords first left ∧ HasWords second right ∧ words = left ++ right := by
  have joined {left right : List String} (before : HasWords first left)
      (after : HasWords second right) : HasWords (first ++ "\n" ++ second) (left ++ right) := by
    obtain ⟨found, rfl, firstScanned⟩ := hasWords_iff.mp before
    obtain ⟨more, scanned, texts⟩ := after
    refine ⟨found ++ more.map (Token.relocated (Span.further (first.utf8ByteSize + 1))), ?_, ?_⟩
    · rw [tokenize_joined, firstScanned, scanned]
      change Except.ok ((found ++ [Token.ending _]).dropLast ++ _) = _
      rw [List.dropLast_concat]
    · rw [lexemes_append, lexemes_relocated, texts, List.append_assoc]
  constructor
  · intro whole
    obtain ⟨tokens, scanned, _⟩ := id whole
    rw [tokenize_joined] at scanned
    cases before : tokenize first with
    | error error =>
        rw [before] at scanned
        cases scanned
    | ok found =>
        cases after : tokenize second with
        | error error =>
            rw [before, after] at scanned
            cases scanned
        | ok more =>
            -- a source has its words only, so the parts make up the whole
            obtain ⟨left, leftWords⟩ := exists_hasWords before
            obtain ⟨right, rightWords⟩ := exists_hasWords after
            exact ⟨left, right, leftWords, rightWords,
              whole.unique (joined leftWords rightWords)⟩
  · rintro ⟨left, right, before, after, rfl⟩
    exact joined before after

end Source

end BLang
