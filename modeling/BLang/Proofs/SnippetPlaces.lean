import BLang.Proofs.Promises
import BLang.Proofs.SnippetMarks

/-!
# Where a snippet marks an error

The span of an error counts bytes, and a snippet takes its numbers for characters.  So the snippet
marks the text that the error is about exactly if no character up to the end of that text takes more
than one byte.
-/

namespace BLang

open Text

/-! ## Bytes and characters -/

namespace Text

theorem byteLength_eq_length_iff (chars : List Char) :
    byteLength chars = chars.length ↔ ∀ char ∈ chars, char.utf8Size = 1 := by
  induction chars with
  | nil => exact ⟨fun _ => nofun, fun _ => rfl⟩
  | cons char rest ih =>
      have positive := char.utf8Size_pos
      have least := length_le_byteLength rest
      rw [List.forall_mem_cons, ← ih, byteLength, List.length_cons]
      omega

/-- The place of some characters that come after others, counted in characters. -/
def placeAfter (before chars : List Char) : Span :=
  ⟨before.length, before.length + chars.length⟩

theorem spanAfter_eq_placeAfter {before chars : List Char}
    (narrow : ∀ char ∈ before ++ chars, char.utf8Size = 1) :
    spanAfter before chars = placeAfter before chars := by
  obtain ⟨earlier, marked⟩ := List.forall_mem_append.mp narrow
  rw [spanAfter, placeAfter, (byteLength_eq_length_iff _).mpr earlier,
    (byteLength_eq_length_iff _).mpr marked]

end Text

theorem utf8Size_of_isWordPart {char : Char} (part : isWordPart char = true) :
    char.utf8Size = 1 := by
  have narrow (last : Char) (ascii : last.val ≤ 127) (most : char.val ≤ last.val) :
      char.utf8Size = 1 :=
    Char.utf8Size_eq_one_iff.mpr (UInt32.le_trans most ascii)
  rcases (isWordPart_iff char).mp part with letter | digit | rfl
  · rcases (Bool.or_eq_true _ _).mp letter with upper | lower
    · have bounds : 'A'.val ≤ char.val ∧ char.val ≤ 'Z'.val := of_decide_eq_true upper
      exact narrow 'Z' (by decide) bounds.2
    · have bounds := (Bool.and_eq_true _ _).mp lower
      exact narrow 'z' (by decide) (of_decide_eq_true bounds.2)
  · have bounds := (Bool.and_eq_true _ _).mp digit
    exact narrow '9' (by decide) (of_decide_eq_true bounds.2)
  · decide

/-! ## The text of an error -/

/-- The span is that of a part of the source, of which each character takes one byte. -/
def Span.IsNarrow (source : String) (span : Span) : Prop :=
  ∃ before marked, before ++ marked <+: source.toList ∧ span = spanAfter before marked ∧
    ∀ char ∈ marked, char.utf8Size = 1

/-- A token is a word, whose letters take one byte each, or stands at the end. -/
theorem Token.isNarrow_of_tokenize {source : String} {tokens : List Token}
    (scanned : tokenize source = .ok tokens) :
    ∀ token ∈ tokens, token.span.IsNarrow source := by
  obtain ⟨words, rfl, wordsOf⟩ := tokens_of_tokenize scanned
  intro token member
  rcases List.mem_append.mp member with word | last
  · obtain ⟨before, after, chars, place⟩ := slice?_eq_some_iff.mp (wordsOf.slice token word)
    refine ⟨before, token.lexeme.toList, ⟨after, chars.symm⟩, place, fun char letter => ?_⟩
    exact utf8Size_of_isWordPart (isWordPart_of_isWord (wordsOf.word token word) char letter)
  · refine ⟨source.toList, [], ⟨[], by simp⟩, ?_, nofun⟩
    rw [List.mem_singleton.mp last, spanAfter, byteLength_toList]
    rfl

theorem ParseError.IsAbout.isNarrow {error : ParseError} {tokens : List Token} {source : String}
    (about : error.IsAbout tokens) (narrow : ∀ token ∈ tokens, token.span.IsNarrow source) :
    ∃ span, error.span? = some span ∧ span.IsNarrow source := by
  refine (Refers.imp about narrow ?_).span
  rintro span ⟨opening, member, _, rfl⟩
  exact narrow opening member

namespace CompileError

/-- The error is about the characters that come after others in the source.  They take one byte
each, or else there is only one, and the error has a label. -/
structure Regards (error : CompileError) (source : String) (before marked : List Char) : Prop where
  front : before ++ marked <+: source.toList
  span : error.span? = some (spanAfter before marked)
  narrow : (∀ char ∈ marked, char.utf8Size = 1) ∨
    ∃ char, marked = [char] ∧ ∀ file, ∃ label, (error.diagnostic file).label = some label

theorem exists_regards_lexical {source : String} {error : LexError}
    (failed : tokenize source = .error error) :
    ∃ before marked, (lexical error).Regards source before marked := by
  have outcome := tokenizes source
  rw [failed] at outcome
  cases outcome with
  | @error before char tokens front earlier fits unfit =>
      refine ⟨before, [char], front, rfl, Or.inr ⟨char, rfl, fun file => ?_⟩⟩
      cases file <;> exact ⟨_, rfl⟩

end CompileError

namespace Source

theorem exists_regards_of_read {α : Type} {read : List Token → Except ParseError α}
    {source : String} {error : CompileError}
    (about : ∀ tokens stop fault, stop ∈ tokens → stop.isEnd = true →
      read tokens = .error fault → fault.IsAbout tokens)
    (failed : (tokens source >>= fun tokens => (read tokens).mapError .syntactic) = .error error) :
    ∃ before marked, error.Regards source before marked := by
  rcases (read_eq_error_iff read source error).mp failed with
    ⟨lexical, scanned, rfl⟩ | ⟨tokens, fault, scanned, refused, rfl⟩
  · exact CompileError.exists_regards_lexical scanned
  · obtain ⟨stop, member, ends⟩ := exists_isEnd_of_tokenize scanned
    obtain ⟨span, known, before, marked, front, rfl, narrow⟩ :=
      (about tokens stop fault member ends refused).isNarrow (Token.isNarrow_of_tokenize scanned)
    exact ⟨before, marked, front, known, Or.inl narrow⟩

theorem exists_regards {source : String} {error : CompileError}
    (failed : Source.program source = .error error ∨ Source.statement source = .error error) :
    ∃ before marked, error.Regards source before marked := by
  rcases failed with program | statement
  · exact exists_regards_of_read (fun tokens stop fault member ends refused =>
      Reader.program_settles.isAbout Reader.program_accounts member ends refused) program
  · exact exists_regards_of_read (fun tokens stop fault member ends refused =>
      isAbout_of_onlyValue member ends refused) statement

end Source

/-! ## The place in the snippet -/

namespace CompileError.Regards

variable {error : CompileError} {source : String} {before marked : List Char}

theorem report_eq (regards : error.Regards source before marked) (emitter : Emitter)
    (file : Option String) : error.report emitter file (some source) =
      .ok (painted emitter.colors
        (Snippet.pieces (error.diagnostic file) source.toList (spanAfter before marked))) := by
  have known := (error.diagnostic_span file).trans regards.span
  obtain ⟨after, chars⟩ := regards.front
  have bytes := congrArg byteLength chars
  rw [byteLength_append, byteLength_append, byteLength_toList] at bytes
  exact emitter.reportIn_of_within known (Nat.le_add_right _ _)
    (bytes ▸ Nat.le_add_right _ (byteLength after))

/-- A snippet of the right place shows that each character up to its end takes one byte. -/
theorem narrow_of_pieces_eq (regards : error.Regards source before marked) (file : Option String)
    (same : Snippet.pieces (error.diagnostic file) source.toList (spanAfter before marked) =
      Snippet.pieces (error.diagnostic file) source.toList (placeAfter before marked)) :
    ∀ char ∈ before ++ marked, char.utf8Size = 1 := by
  have lengths := regards.front.length_le
  rw [List.length_append] at lengths
  rcases List.eq_nil_or_concat' (before ++ marked) with none | ⟨earlier, last, whole⟩
  · rw [none]
    nofun
  have filled : source.toList ≠ [] := by
    intro empty
    have front := whole ▸ empty ▸ regards.front
    exact absurd (List.prefix_nil.mp front) (by simp)
  have within : Snippet.final (placeAfter before marked) ≤ source.toList.length := by
    simp only [Snippet.final, placeAfter]
    omega
  have starts : byteLength before = before.length :=
    Snippet.start_eq_of_pieces_eq filled within same
  refine List.forall_mem_append.mpr ⟨(byteLength_eq_length_iff before).mp starts, ?_⟩
  rcases regards.narrow with narrow | ⟨char, rfl, labelled⟩
  · exact narrow
  · obtain ⟨label, known⟩ := labelled file
    -- the span begins at the character and is as long as its bytes
    have inside : before.length < source.toList.length := lengths
    rw [List.forall_mem_singleton]
    by_contra wide
    have positive := char.utf8Size_pos
    obtain ⟨count, size⟩ := Nat.exists_eq_add_of_le (show 2 ≤ char.utf8Size by omega)
    refine Snippet.pieces_ne_of_longer inside known count ?_
    rw [spanAfter, starts, byteLength, byteLength, size, Nat.add_comm 2 count] at same
    exact same

end CompileError.Regards

namespace Source

/-- An error of a program or a statement is about some characters of its source, those at its span.
Every emitter shows it in the source with the span, of which the numbers count bytes, taken for
characters.  The snippet has the inked pieces of that of those characters exactly if each of them and
of the characters before them takes one byte. -/
theorem snippet_marks_error_iff (source : String) (error : CompileError)
    (failed : Source.program source = .error error ∨ Source.statement source = .error error) :
    ∃ before marked after, source.toList = before ++ marked ++ after ∧
      error.span? = some (spanAfter before marked) ∧
      ∀ file : Option String,
        (∀ emitter : Emitter, error.report emitter file (some source) =
          .ok (painted emitter.colors
            (Snippet.pieces (error.diagnostic file) source.toList (spanAfter before marked)))) ∧
        (Snippet.pieces (error.diagnostic file) source.toList (spanAfter before marked) =
            Snippet.pieces (error.diagnostic file) source.toList
              ⟨before.length, before.length + marked.length⟩ ↔
          ∀ char ∈ before ++ marked, char.utf8Size = 1) := by
  obtain ⟨before, marked, regards⟩ := exists_regards failed
  obtain ⟨after, chars⟩ := regards.front
  refine ⟨before, marked, after, chars.symm, regards.span, fun file => ⟨?_, ?_, fun narrow => ?_⟩⟩
  · exact fun emitter => regards.report_eq emitter file
  · exact regards.narrow_of_pieces_eq file
  · exact congrArg _ (spanAfter_eq_placeAfter narrow)

/-- A closing label that does not match, at a place. -/
def mislabel (place : Span) : CompileError :=
  .syntactic (.mismatchedLabel "p" ⟨"q", place⟩)

def mislabelled : String := "PROGRAM p IS BEGIN END q"

/-- Without an accent in the source the wrong label is marked. -/
theorem mislabelled_marked :
    Source.program mislabelled = .error (mislabel ⟨23, 24⟩) ∧
      ∃ before marked after, mislabelled.toList = before ++ marked ++ after ∧
        (mislabel ⟨23, 24⟩).span? = some (spanAfter before marked) ∧
        (mislabel ⟨23, 24⟩).report Emitter.plain none (some mislabelled) =
          .ok (Snippet.plainText ((mislabel ⟨23, 24⟩).diagnostic none) mislabelled
            ⟨before.length, before.length + marked.length⟩) := by
  have failed : Source.program mislabelled = .error (mislabel ⟨23, 24⟩) := by rfl
  obtain ⟨before, marked, after, chars, place, shown⟩ :=
    snippet_marks_error_iff _ _ (Or.inl failed)
  obtain ⟨reports, marks⟩ := shown none
  have narrow : ∀ char ∈ before ++ marked, char.utf8Size = 1 := by
    have all : ∀ char ∈ mislabelled.toList, char.utf8Size = 1 :=
      (byteLength_eq_length_iff _).mp (by decide)
    intro char member
    exact all char (chars ▸ List.mem_append_left after member)
  refine ⟨failed, before, marked, after, chars, place, ?_⟩
  rw [reports, marks.mpr narrow]
  rfl

def accented : String := "# é\nPROGRAM p IS BEGIN END q"

/-- What is shown behind the accent: none of the line. -/
def unmarkedText : String :=
  "Error: closing label 'q' does not match 'p'\n   ╭─[<input>:2:25]\n   │\n   │ \n   │ \n" ++
    "   │ Help: close the block with 'END p'\n───╯\n"

/-- The snippet of the wrong label. -/
def markedText : String :=
  "Error: closing label 'q' does not match 'p'\n   ╭─[<input>:2:24]\n   │\n" ++
    " 2 │ PROGRAM p IS BEGIN END q\n   │                        ┬  \n" ++
    "   │                        ╰── expected 'p'\n   │ \n" ++
    "   │ Help: close the block with 'END p'\n───╯\n"

/-- Behind an accent the wrong label, which is the character after 27 others, is not marked. -/
theorem accented_not_marked :
    Source.program accented = .error (mislabel ⟨28, 29⟩) ∧
      slice? accented ⟨28, 29⟩ = some "q" ∧ accented.toList[27]? = some 'q' ∧
      (mislabel ⟨28, 29⟩).report Emitter.plain none (some accented) = .ok unmarkedText ∧
      Snippet.plainText ((mislabel ⟨28, 29⟩).diagnostic none) accented ⟨27, 28⟩ = markedText ∧
      (mislabel ⟨28, 29⟩).report Emitter.plain none (some accented) ≠
        .ok (Snippet.plainText ((mislabel ⟨28, 29⟩).diagnostic none) accented ⟨27, 28⟩) := by
  have failed : Source.program accented = .error (mislabel ⟨28, 29⟩) := by rfl
  have reported : (mislabel ⟨28, 29⟩).report Emitter.plain none (some accented) =
      .ok unmarkedText := by decide +kernel
  have wanted : Snippet.plainText ((mislabel ⟨28, 29⟩).diagnostic none) accented ⟨27, 28⟩ =
      markedText := by decide +kernel
  refine ⟨failed, by decide +kernel, by decide, reported, wanted, ?_⟩
  rw [reported, wanted]
  decide +kernel

end Source

end BLang
