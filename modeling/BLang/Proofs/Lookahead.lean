import BLang.Proofs.Termination

/-!
# One token of lookahead

A run is decided by the token at which the reader stops, and that token is either the last one taken
or the first one left.  So a run looks at no more than one token that it leaves, and whatever comes
after that token changes neither the result nor what is taken.  The routines that call one another
come to the ends of the readers, and so they look ahead no further.
-/

namespace BLang

namespace Reader

section Taken

variable {σ α : Type} (reader : Reader σ α) (tokens : List Token)

/-- The number of tokens that a run takes off the stream. -/
def taken : Nat :=
  tokens.length - (reader.run tokens).rest.length

theorem taken_add_length_rest :
    reader.taken tokens + (reader.run tokens).rest.length = tokens.length :=
  Nat.sub_add_cancel (reader.run_rest_suffix tokens).length_le

/-- What is left is the stream without the tokens that are taken. -/
theorem rest_eq_drop : (reader.run tokens).rest = tokens.drop (reader.taken tokens) :=
  List.suffix_iff_eq_drop.mp (reader.run_rest_suffix tokens)

end Taken

/-- From the state the reader stops at the last of the tokens with the result, whatever comes after
it; it leaves that token or takes it. -/
def StopsAt {σ α : Type} (reader : Reader σ α) (state : σ) (before : List Token) (token : Token)
    (result : Except ParseError α) (leaves : Bool) : Prop :=
  ∀ after, reader.runFrom state (before ++ token :: after) =
    ⟨result, if leaves then token :: after else after⟩

namespace StopsAt

variable {σ α : Type} {reader : Reader σ α} {before : List Token} {token : Token}
  {result : Except ParseError α} {leaves : Bool}

theorem run_eq (stops : reader.StopsAt reader.start before token result leaves)
    (after : List Token) :
    reader.run (before ++ token :: after) = ⟨result, if leaves then token :: after else after⟩ :=
  stops after

theorem taken_eq (stops : reader.StopsAt reader.start before token result leaves)
    (after : List Token) :
    reader.taken (before ++ token :: after) = before.length + if leaves then 0 else 1 := by
  have length := reader.taken_add_length_rest (before ++ token :: after)
  rw [stops.run_eq after, List.length_append, List.length_cons] at length
  cases leaves with
  | false =>
      change reader.taken _ + after.length = _ at length
      change reader.taken _ = before.length + 1
      omega
  | true =>
      change reader.taken _ + (after.length + 1) = _ at length
      change reader.taken _ = before.length
      omega

/-- The token at which the reader stops is one of those that are taken, or the next. -/
theorem prefix_take (stops : reader.StopsAt reader.start before token result leaves)
    (after : List Token) :
    before ++ [token] <+:
      (before ++ token :: after).take (reader.taken (before ++ token :: after) + 1) := by
  refine List.prefix_take_iff.mpr ⟨?_, ?_⟩
  · exact ⟨after, (List.append_cons _ _ _).symm⟩
  · rw [stops.taken_eq, List.length_append, List.length_singleton]
    omega

end StopsAt

section Lookahead

variable {σ α : Type} (reader : Reader σ α) (state : σ) (tokens : List Token)

/-- Unless the stream ends too early, some token of it stops the reader. -/
theorem exists_stopsAt (notEnd : (reader.runFrom state tokens).result ≠ .error .endOfStream) :
    ∃ before token after leaves, tokens = before ++ token :: after ∧
      reader.StopsAt state before token (reader.runFrom state tokens).result leaves := by
  have ends := reader.runFrom_ends state tokens
  generalize reader.runFrom state tokens = outcome at ends notEnd
  cases ends with
  | exhausted path => exact absurd rfl notEnd
  | @done before last token value events path step after =>
      exact ⟨before, token, after, reader.leavesLast, rfl,
        fun later => (Ends.done path step later).runFrom_eq⟩
  | @refused before last token error consumed events path step after =>
      refine ⟨before, token, after, !consumed, rfl, fun later => ?_⟩
      have refused := (Ends.refused path step later).runFrom_eq
      cases consumed <;> exact refused

/-- A run that does not end with the stream is the same on every stream that begins with the tokens
taken and, if there is one, the next; so tokens at the end of the stream change nothing. -/
structure LooksOneAhead : Prop where
  agrees : (reader.run tokens).result ≠ .error .endOfStream → ∀ other,
    tokens.take (reader.taken tokens + 1) <+: other →
      (reader.run other).result = (reader.run tokens).result ∧
        reader.taken other = reader.taken tokens
  append : (reader.run tokens).result ≠ .error .endOfStream → ∀ more,
    reader.run (tokens ++ more) = ⟨(reader.run tokens).result, (reader.run tokens).rest ++ more⟩

theorem looksOneAhead : reader.LooksOneAhead tokens where
  agrees := by
    intro notEnd other agrees
    obtain ⟨before, token, after, leaves, whole, stops⟩ := reader.exists_stopsAt _ tokens notEnd
    rw [whole] at stops agrees ⊢
    obtain ⟨later, rfl⟩ := (stops.prefix_take after).trans agrees
    rw [List.append_assoc, List.singleton_append]
    constructor
    · rw [stops.run_eq later]
      rfl
    · rw [stops.taken_eq later, stops.taken_eq after]
  append := by
    intro notEnd more
    obtain ⟨before, token, after, leaves, whole, stops⟩ := reader.exists_stopsAt _ tokens notEnd
    rw [whole] at stops ⊢
    rw [List.append_assoc, List.cons_append, stops.run_eq (after ++ more), stops.run_eq after]
    cases leaves <;> rfl

end Lookahead

end Reader

/-! ## Routines -/

namespace Descent

/-- A routine comes to an end.  If that is not the end of the stream, it comes to the same end on
every stream that begins with the tokens it has taken and, if there is one, the next, and everything
behind the tokens taken is left. -/
structure Routine.LooksOneAhead {α : Type} (routine : Routine α) (tokens : List Token) : Prop where
  ends : ∃ outcome, (routine tokens).Reaches outcome
  agrees : ∀ outcome, (routine tokens).Reaches outcome → outcome.result ≠ .error .endOfStream →
    ∃ taken, tokens = taken ++ outcome.rest ∧ ∀ later, outcome.rest.take 1 <+: later →
      (routine (taken ++ later)).Reaches ⟨outcome.result, later⟩

/-- What answers a task is a reader in one of its states. -/
theorem Task.exists_reader (task : Task) :
    ∃ (σ : Type) (reader : Reader σ task.Value) (state : σ), task.answer = reader.runFrom state := by
  cases task with
  | statement => exact ⟨_, Reader.statement, _, rfl⟩
  | block read => exact ⟨_, Reader.block, _, rfl⟩
  | instruction => exact ⟨_, Reader.instruction, _, rfl⟩
  | table name context => exact ⟨_, Reader.program, _, rfl⟩
  | program => exact ⟨_, Reader.program, _, rfl⟩

theorem Task.looksOneAhead (task : Task) (tokens : List Token) :
    task.routine.LooksOneAhead tokens where
  ends := ⟨_, Call.reaches_answer ⟨task, tokens⟩⟩
  agrees := by
    intro outcome reaches notEnd
    obtain rfl := reaches.eq_outcome.trans (task.outcome_routine tokens)
    obtain ⟨σ, reader, state, answers⟩ := task.exists_reader
    have reached (tokens : List Token) :
        (task.routine tokens).Reaches (reader.runFrom state tokens) :=
      answers ▸ Call.reaches_answer ⟨task, tokens⟩
    rw [answers] at notEnd ⊢
    obtain ⟨before, token, after, leaves, rfl, stops⟩ := reader.exists_stopsAt state tokens notEnd
    have rest := congrArg Outcome.rest (stops after)
    cases leaves with
    | true =>
        refine ⟨before, congrArg (before ++ ·) rest.symm, fun later follows => ?_⟩
        rw [rest] at follows
        obtain ⟨more, rfl⟩ := follows
        have reaches := reached (before ++ token :: more)
        rwa [stops more] at reaches
    | false =>
        refine ⟨before ++ [token], ?_, fun later _ => ?_⟩
        · rw [rest]
          exact List.append_cons before token after
        · have reaches := reached (before ++ token :: later)
          rw [stops later] at reaches
          rwa [List.append_assoc, List.singleton_append]

end Descent

namespace Reader

/-- The readers of statements, blocks, definitions and programs look at no more than one token that
they leave: unless a run ends with its stream, every stream that agrees with it on the tokens taken
and the next one has the same value or error read from it, and the same number of tokens taken off
it.  Tokens that are added at the end stay there.  The routines that call one another look no
further, either. -/
theorem readers_look_one_ahead (tokens : List Token) :
    Reader.statement.LooksOneAhead tokens ∧ Reader.block.LooksOneAhead tokens ∧
      Reader.instruction.LooksOneAhead tokens ∧ Reader.program.LooksOneAhead tokens ∧
      ∀ task : Descent.Task, task.routine.LooksOneAhead tokens :=
  ⟨looksOneAhead _ tokens, looksOneAhead _ tokens, looksOneAhead _ tokens, looksOneAhead _ tokens,
    fun task => task.looksOneAhead tokens⟩

/-- A loop, and the end of a branch after it. -/
def loopInBranch : List Token :=
  ["WHILE", "less", "DO", "a", "END", "WHILE", "ELSE", "b"].map Token.unplaced

theorem loopInBranch_looks_one_ahead :
    (Reader.block.run loopInBranch).result = .ok [.whileDo .less [.call "a"]] ∧
      Reader.block.taken loopInBranch = 6 ∧
      (∀ other, loopInBranch.take 7 <+: other →
        (Reader.block.run other).result = .ok [.whileDo .less [.call "a"]] ∧
          Reader.block.taken other = 6) ∧
      ∀ later, [Token.unplaced "ELSE"] <+: later →
        ((Descent.Task.block []).routine (loopInBranch.take 6 ++ later)).Reaches
          ⟨.ok [.whileDo .less [.call "a"]], later⟩ := by
  obtain ⟨_, blocks, _, _, routines⟩ := readers_look_one_ahead loopInBranch
  have read : (Reader.block.run loopInBranch).result = .ok [.whileDo .less [.call "a"]] := by rfl
  have taken : Reader.block.taken loopInBranch = 6 := by rfl
  have agrees := blocks.agrees (by rw [read]; exact nofun)
  rw [read, taken] at agrees
  refine ⟨read, taken, agrees, ?_⟩
  obtain ⟨outcome, reaches⟩ := (routines (.block [])).ends
  obtain rfl : outcome = ⟨.ok [.whileDo .less [.call "a"]], loopInBranch.drop 6⟩ :=
    (reaches.eq_outcome.trans (Descent.Task.outcome_routine _ _)).trans (by rfl)
  obtain ⟨front, whole, same⟩ := (routines (.block [])).agrees _ reaches nofun
  obtain rfl : front = loopInBranch.take 6 :=
    List.append_cancel_right (whole.symm.trans (List.take_append_drop 6 loopInBranch).symm)
  exact same

end Reader

end BLang
