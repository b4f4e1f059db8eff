import BLang.Source
import BLang.Proofs.Programs
import BLang.Proofs.Tokenizing

/-!
# Reading a source

A source is read if it can be scanned and its tokens can be read; otherwise the error comes from the
first of the two that fails.  The only end marker among its tokens is the last one, so a program
ends where the source does.
-/

namespace BLang

/-- Of words and an end marker after them the marker is the first. -/
theorem append_ending_inj {words read after : List Token} {stop : Token} {length : Nat}
    (apart : ∀ word ∈ words, word.isEnd = false) (ends : stop.isEnd = true)
    (same : words ++ [Token.ending length] = read ++ stop :: after) :
    words = read ∧ after = [] := by
  rcases List.append_eq_append_iff.mp same with ⟨inside, rfl, last⟩ | ⟨inside, rfl, last⟩
  · cases inside with
    | nil =>
        cases last
        exact ⟨(List.append_nil _).symm, rfl⟩
    | cons first rest =>
        have none := (List.append_eq_nil_iff.mp (List.cons.inj last).2.symm).2
        cases none
  · cases inside with
    | nil =>
        cases last
        exact ⟨List.append_nil _, rfl⟩
    | cons first rest =>
        cases last
        have inner := apart stop (List.mem_append_right _ List.mem_cons_self)
        rw [ends] at inner
        cases inner

theorem WordsOf.isEnd_eq_false {source : String} {words : List Token}
    (wordsOf : WordsOf source words) : ∀ word ∈ words, word.isEnd = false :=
  fun word member => Token.isEnd_of_isWord (wordsOf.word word member)

theorem tokens_of_tokenize {source : String} {tokens : List Token}
    (scanned : tokenize source = .ok tokens) :
    ∃ words, tokens = words ++ [Token.ending source.utf8ByteSize] ∧ WordsOf source words := by
  have outcome := tokenizes source
  rw [scanned] at outcome
  cases outcome with
  | ok wordsOf fits => exact ⟨_, rfl, wordsOf⟩

namespace Source

variable {α : Type} (read : List Token → Except ParseError α) (source : String)

/-- A value is read if the source can be scanned and the value is read from its tokens. -/
theorem read_eq_ok_iff (value : α) :
    (tokens source >>= fun tokens => (read tokens).mapError .syntactic) = .ok value ↔
      ∃ tokens, tokenize source = .ok tokens ∧ read tokens = .ok value := by
  rw [tokens]
  cases tokenize source with
  | error error => exact iff_of_false nofun (by simp)
  | ok tokens =>
      change (read tokens).mapError CompileError.syntactic = .ok value ↔ _
      cases taken : read tokens with
      | error error => exact iff_of_false nofun (by simp [taken])
      | ok found => simp [Except.mapError, taken]

/-- An error is that of the scan or, after a whole scan, that of reading the tokens. -/
theorem read_eq_error_iff (error : CompileError) :
    (tokens source >>= fun tokens => (read tokens).mapError .syntactic) = .error error ↔
      (∃ lexical, tokenize source = .error lexical ∧ error = .lexical lexical) ∨
        ∃ tokens syntactic, tokenize source = .ok tokens ∧ read tokens = .error syntactic ∧
          error = .syntactic syntactic := by
  rw [tokens]
  cases tokenize source with
  | error lexical =>
      change Except.error (CompileError.lexical lexical) = .error error ↔ _
      simp [eq_comm]
  | ok tokens =>
      change (read tokens).mapError CompileError.syntactic = .error error ↔ _
      cases taken : read tokens with
      | error syntactic => simp [Except.mapError, taken, eq_comm]
      | ok found => exact iff_of_false nofun (by simp [taken])

/-- The value is that of the reader, and the end marker follows it. -/
theorem onlyValue_eq_ok_iff {σ : Type} (reader : Reader σ α) (tokens : List Token) (value : α) :
    onlyValue reader tokens = .ok value ↔ (reader.run tokens).result = .ok value ∧
      (Reader.endOfInput.run (reader.run tokens).rest).result = .ok () := by
  unfold onlyValue
  cases taken : (reader.run tokens).result with
  | error error => simp [taken]
  | ok found =>
      cases looked : (Reader.endOfInput.run (reader.run tokens).rest).result with
      | error error => simp [taken, looked, Except.map]
      | ok done => simp [taken, looked, Except.map]

/-- An error is that of the reader or, after a value, that of what follows it. -/
theorem onlyValue_eq_error_iff {σ : Type} (reader : Reader σ α) (tokens : List Token)
    (error : ParseError) :
    onlyValue reader tokens = .error error ↔ (reader.run tokens).result = .error error ∨
      ∃ value, (reader.run tokens).result = .ok value ∧
        (Reader.endOfInput.run (reader.run tokens).rest).result = .error error := by
  unfold onlyValue
  cases taken : (reader.run tokens).result with
  | error other => simp [taken]
  | ok value =>
      cases looked : (Reader.endOfInput.run (reader.run tokens).rest).result with
      | error other => simp [taken, looked, Except.map]
      | ok done => simp [taken, looked, Except.map]

/-- A program is read off exactly the sources whose words are its own, with the definitions in any
order. -/
theorem program_eq_ok_iff (program : Program) :
    Source.program source = .ok program ↔
      ∃ words definitions,
        tokenize source = .ok (words ++ [Token.ending source.utf8ByteSize]) ∧
        program.Written definitions (lexemes words) := by
  refine (read_eq_ok_iff (fun tokens => (Reader.program.run tokens).result) source program).trans ?_
  constructor
  · rintro ⟨tokens, scanned, run⟩
    obtain ⟨words, rfl, wordsOf⟩ := tokens_of_tokenize scanned
    obtain ⟨definitions, read, stop, after, same, written, rest, ends⟩ :=
      (Reader.program_run_iff _ _ program).mp (Outcome.eq_mk_of_result run)
    rw [rest] at same
    obtain ⟨rfl, _⟩ := append_ending_inj wordsOf.isEnd_eq_false ends same
    exact ⟨words, definitions, scanned, written⟩
  · rintro ⟨words, definitions, scanned, written⟩
    refine ⟨_, scanned, ?_⟩
    have run := (Reader.program_run_iff _ [Token.ending source.utf8ByteSize] program).mpr
      ⟨definitions, words, _, [], rfl, written, rfl, Token.isEnd_ending _⟩
    rw [run]

end Source

end BLang
