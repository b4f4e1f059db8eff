import BLang.Reader.Program
import BLang.Reader.Single
import BLang.Proofs.Definitions

/-!
# Readers inside readers

A reader that hosts another one goes through the states of the inner reader until that one is done,
and then resumes with its value.  So the outer run from such a state is the inner run and then the
rest.  The reader of statements hosts that of blocks in every frame, and the reader of blocks hosts
that of statements wherever a statement may start.
-/

namespace BLang

/-- The rest of the way after a value; an error stays as it is. -/
def Outcome.andThen {α β : Type} (outcome : Outcome α) (resume : α → List Token → Outcome β) :
    Outcome β :=
  match outcome.result with
  | .ok value => resume value outcome.rest
  | .error error => ⟨.error error, outcome.rest⟩

@[simp]
theorem Outcome.andThen_ok {α β : Type} (value : α) (rest : List Token)
    (resume : α → List Token → Outcome β) :
    Outcome.andThen ⟨.ok value, rest⟩ resume = resume value rest :=
  rfl

theorem Outcome.andThen_congr {α β : Type} {outcome : Outcome α}
    {resume other : α → List Token → Outcome β}
    (same : ∀ value rest, outcome = ⟨.ok value, rest⟩ → resume value rest = other value rest) :
    outcome.andThen resume = outcome.andThen other := by
  obtain ⟨result, rest⟩ := outcome
  cases result with
  | ok value => exact same value rest rfl
  | error error => rfl

namespace Reader

variable {σ τ α β : Type}

/-- What a step at a token leads to. -/
def follow (reader : Reader σ α) (step : Step σ α) (token : Token) (rest : List Token) :
    Outcome α :=
  match step with
  | .on next _ => reader.runFrom next rest
  | .done value _ => ⟨.ok value, if reader.leavesLast then token :: rest else rest⟩
  | .refuse error consumed _ => ⟨.error error, if consumed then rest else token :: rest⟩

theorem runFrom_cons (reader : Reader σ α) (state : σ) (token : Token) (rest : List Token) :
    reader.runFrom state (token :: rest) = reader.follow (reader.step state token) token rest :=
  rfl

/-- The outer reader does what the inner one does, in a state of its own for every state of the
inner reader, and resumes with the value.  It need not do so at every token: `inside` tells where. -/
structure Hosts (inner : Reader σ α) (outer : Reader τ β) (place : σ → τ)
    (inside : σ → Token → Prop) (resume : α → List Token → Outcome β) : Prop where
  on : ∀ {state next : σ} {token : Token} {events : List Event}, inside state token →
    inner.step state token = .on next events →
      (∃ outerEvents, outer.step (place state) token = .on (place next) outerEvents) ∧
        ∀ later, inside next later
  done : ∀ {state : σ} {token : Token} {value : α} {events : List Event}, inside state token →
    inner.step state token = .done value events → ∀ rest,
      outer.runFrom (place state) (token :: rest) =
        resume value (if inner.leavesLast then token :: rest else rest)
  refuse : ∀ {state : σ} {token : Token} {error : ParseError} {consumed : Bool}
    {events : List Event}, inside state token →
    inner.step state token = .refuse error consumed events →
      ∃ outerEvents, outer.step (place state) token = .refuse error consumed outerEvents

/-- The outer run is the inner run and then the rest. -/
theorem Hosts.runFrom_eq {inner : Reader σ α} {outer : Reader τ β} {place : σ → τ}
    {inside : σ → Token → Prop} {resume : α → List Token → Outcome β}
    (hosts : inner.Hosts outer place inside resume) (state : σ) (tokens : List Token)
    (begins : ∀ token ∈ tokens.head?, inside state token) :
    outer.runFrom (place state) tokens = (inner.runFrom state tokens).andThen resume := by
  induction tokens generalizing state with
  -- a stream that ends inside is the same error for both
  | nil => rfl
  | cons token rest ih =>
      have here := begins token rfl
      cases taken : inner.step state token with
      | on next events =>
          obtain ⟨⟨outerEvents, outerTaken⟩, later⟩ := hosts.on here taken
          rw [runFrom, runFrom, taken, outerTaken]
          exact ih next fun other _ => later other
      | done value events =>
          rw [hosts.done here taken, runFrom_of_done taken]
          rfl
      | refuse error consumed events =>
          obtain ⟨outerEvents, outerTaken⟩ := hosts.refuse here taken
          rw [runFrom_of_refuse taken, runFrom_of_refuse outerTaken]
          rfl

end Reader

/-! ## Blocks in statements -/

namespace Nest

variable {token : Token}

/-- The nest inside other frames. -/
def within (outer : List Frame) (nest : Nest) : Nest :=
  ⟨nest.around ++ outer, nest.phase⟩

/-- The step inside other frames; a finished statement is handed to them. -/
def passOn (outer : List Frame) : Step Nest Statement → Step Nest Statement
  | .on next events => .on (next.within outer) events
  | .done statement _ => finish statement outer
  | .refuse error consumed events => .refuse error consumed events

theorem finish_within (statement : Statement) (around outer : List Frame) :
    finish statement (around ++ outer) = passOn outer (finish statement around) := by
  cases around <;> rfl

theorem expect_within (text : String) (outer : List Frame) (step : Step Nest Statement) :
    Step.expect text token (passOn outer step) = passOn outer (Step.expect text token step) := by
  unfold Step.expect
  split <;> rfl

theorem enter_within (around outer : List Frame) :
    enter (around ++ outer) token = passOn outer (enter around token) := by
  unfold enter
  rw [finish_within]
  repeat' split
  all_goals rfl

theorem close_within (frame : Frame) (rest outer : List Frame) :
    close frame (rest ++ outer) token = passOn outer (close frame rest token) := by
  unfold close Step.expect
  cases frame.head
  all_goals
    dsimp only
    repeat' split
    all_goals rfl

/-- Whether the token is read as part of a statement where a block may end. -/
def Inside (nest : Nest) (token : Token) : Prop :=
  nest ≠ start ∨ token.closesBlock = false

/-- Inside a frame a statement is read as it is outside, unless the body ends where it would
start. -/
theorem step_within {nest : Nest} (inside : nest.Inside token) (frame : Frame)
    (outer : List Frame) :
    (nest.within (frame :: outer)).step token = passOn (frame :: outer) (nest.step token) := by
  obtain ⟨around, phase⟩ := nest
  cases phase with
  | item =>
      cases around with
      | nil =>
          have opens : token.closesBlock = false := by simpa [Inside, start] using inside
          exact (step_item opens).trans (enter_within [] _)
      | cons first rest =>
          simp only [within, step, List.cons_append]
          split
          · exact close_within first rest _
          · exact enter_within (first :: rest) _
  | condition form =>
      simp only [within, step]
      split <;> rfl
  | opener form condition =>
      exact expect_within _ (frame :: outer) (.on ⟨⟨form.head condition, []⟩ :: around, .item⟩ [])
  | closer form statement =>
      simp only [within, step, finish_within]
      exact expect_within _ _ _

/-- No step leads back to the start. -/
theorem ne_start_of_step_on {nest next : Nest} {events : List Event}
    (taken : nest.step token = .on next events) : next ≠ start := by
  rintro rfl
  simp only [step, enter, close, finish, Step.expect, start] at taken
  repeat' split at taken
  all_goals simp at taken

end Nest

namespace Sequence

variable {token : Token}

/-- What the reader of blocks can do at a token. -/
inductive Steps (sequence : Sequence) (token : Token) : Step Sequence Block → Prop where
  | ends (rest : sequence.nest = Nest.start) (closes : token.closesBlock = true) :
      Steps sequence token (.done sequence.read.reverse [])
  | on {next : Nest} {events : List Event} (inside : sequence.nest.Inside token)
      (taken : sequence.nest.step token = .on next events) :
      Steps sequence token (.on ⟨sequence.read, next⟩ events)
  | finishes {statement : Statement} {events : List Event} (inside : sequence.nest.Inside token)
      (taken : sequence.nest.step token = .done statement events) :
      Steps sequence token (.on ⟨statement :: sequence.read, Nest.start⟩
        (events ++ [.parsedStatement sequence.read]))
  | refuses {error : ParseError} {consumed : Bool} {events : List Event}
      (inside : sequence.nest.Inside token)
      (taken : sequence.nest.step token = .refuse error consumed events) :
      Steps sequence token (.refuse error consumed events)

theorem steps_step (sequence : Sequence) (token : Token) :
    sequence.Steps token (sequence.step token) := by
  unfold step
  split
  next ended =>
    obtain ⟨rest, closes⟩ := (Bool.and_eq_true _ _).mp ended
    exact .ends (of_decide_eq_true rest) closes
  next goes =>
    have inside : sequence.nest.Inside token := by
      simpa [Nest.Inside, atRest, ← imp_iff_not_or] using goes
    cases taken : sequence.nest.step token with
    | on next events => exact .on inside taken
    | done statement events => exact .finishes inside taken
    | refuse error consumed events => exact .refuses inside taken

theorem step_of_nest_refuse {sequence : Sequence} {error : ParseError} {consumed : Bool}
    {events : List Event} (inside : sequence.nest.Inside token)
    (taken : sequence.nest.step token = .refuse error consumed events) :
    sequence.step token = .refuse error consumed events := by
  have goes : ¬ (sequence.atRest && token.closesBlock) = true := by
    simpa [Nest.Inside, atRest, ← imp_iff_not_or] using inside
  simp [step, goes, taken]

end Sequence

/-- A body is read as a block, up to the token that ends it. -/
theorem Reader.statement_hosts_block (head : Head) (outer : List Frame) :
    Reader.block.Hosts Reader.statement
      (fun sequence => sequence.nest.within (⟨head, sequence.read⟩ :: outer)) (fun _ _ => True)
      (fun body rest => Reader.statement.runFrom ⟨⟨head, body.reverse⟩ :: outer, .item⟩ rest) where
  on := by
    intro sequence next token events _ taken
    have steps := sequence.steps_step token
    rw [show sequence.step token = .on next events from taken] at steps
    refine ⟨?_, fun _ => trivial⟩
    cases steps with
    | on inside goes =>
        exact ⟨_, (Nest.step_within inside _ _).trans (congrArg (Nest.passOn _) goes)⟩
    | finishes inside goes =>
        exact ⟨_, (Nest.step_within inside _ _).trans (congrArg (Nest.passOn _) goes)⟩
  done := by
    intro sequence token body events _ taken rest
    have steps := sequence.steps_step token
    rw [show sequence.step token = .done body events from taken] at steps
    cases steps with
    | ends atStart closes => simp [atStart, Nest.within, Nest.start, block]
  refuse := by
    intro sequence token error consumed events _ taken
    have steps := sequence.steps_step token
    rw [show sequence.step token = .refuse error consumed events from taken] at steps
    cases steps with
    | refuses inside goes =>
        exact ⟨_, (Nest.step_within inside _ _).trans (congrArg (Nest.passOn _) goes)⟩

/-- Where a block does not end, a statement is read. -/
theorem Reader.block_hosts_statement (read : List Statement) :
    Reader.statement.Hosts Reader.block (Sequence.mk read) Nest.Inside
      (fun statement rest => Reader.block.runFrom ⟨statement :: read, Nest.start⟩ rest) where
  on := by
    intro nest next token events _ taken
    exact ⟨⟨_, Sequence.step_of_nest_on taken⟩, fun _ => .inl (Nest.ne_start_of_step_on taken)⟩
  done := by
    intro nest token value events _ taken rest
    obtain ⟨outerEvents, goes⟩ : ∃ events, Sequence.step ⟨read, nest⟩ token =
        .on ⟨value :: read, Nest.start⟩ events := Sequence.step_of_nest_done taken
    rw [runFrom_cons, show block.step ⟨read, nest⟩ token = _ from goes]
    rfl
  refuse := by
    intro nest token error consumed events inside taken
    exact ⟨events, Sequence.step_of_nest_refuse inside taken⟩

/-! ## Single tokens -/

namespace Reader

variable {σ α β : Type} {reader : Reader σ β} {state : σ}

/-- The front token, which must be accepted; it is taken in either case. -/
def single (accepts : Token → Bool) (error : Token → ParseError) : Reader Unit Token :=
  ⟨(), fun _ token =>
    if accepts token then .done token [] else .refuse (error token) true [], false⟩

def identifier : Reader Unit Token :=
  single (fun token => isIdentifier token.lexeme) .invalidIdentifier

def label (name : String) : Reader Unit Token :=
  single (fun token => token.is name) (.mismatchedLabel name)

/-- The front token, which must be the spelling of a condition. -/
def condition : Reader Unit Condition :=
  ⟨(), fun _ token =>
    match Condition.ofSpelling? token.lexeme with
    | some condition => .done condition []
    | none => .refuse (.invalidCondition token) true [], false⟩

theorem single_run_cons (accepts : Token → Bool) (error : Token → ParseError) (token : Token)
    (rest : List Token) : (single accepts error).run (token :: rest) =
      ⟨if accepts token then .ok token else .error (error token), rest⟩ := by
  rw [run, runFrom_cons]
  simp only [single]
  split <;> rfl

theorem expect_run_of_lexeme {text : String} {token : Token} (same : token.is text = true)
    (rest : List Token) : (expect text).run (token :: rest) = ⟨.ok token, rest⟩ := by
  have accepted := single_run_cons (fun token => token.is text) (.unexpected (quoted text)) token rest
  rwa [if_pos same] at accepted

theorem runFrom_cons_of_single (accepts : Token → Bool) (error : Token → ParseError)
    (next : Token → Step σ β) {token : Token}
    (step : reader.step state token =
      if accepts token then next token else .refuse (error token) true []) (rest : List Token) :
    reader.runFrom state (token :: rest) =
      ((single accepts error).run (token :: rest)).andThen
        fun front later => reader.follow (next front) front later := by
  rw [runFrom_cons, step, single_run_cons]
  split <;> rfl

theorem runFrom_of_single (accepts : Token → Bool) (error : Token → ParseError)
    (next : Token → Step σ β)
    (step : ∀ token, reader.step state token =
      if accepts token then next token else .refuse (error token) true []) (tokens : List Token) :
    reader.runFrom state tokens =
      ((single accepts error).run tokens).andThen
        fun front later => reader.follow (next front) front later := by
  cases tokens with
  | nil => rfl
  | cons token rest => exact runFrom_cons_of_single accepts error next (step token) rest

theorem runFrom_cons_of_expect {text : String} {token : Token} (next : Step σ β)
    (step : reader.step state token = Step.expect text token next) (rest : List Token) :
    reader.runFrom state (token :: rest) =
      ((expect text).run (token :: rest)).andThen
        fun front later => reader.follow next front later :=
  runFrom_cons_of_single (fun token => token.is text) (.unexpected (quoted text))
    (fun _ => next) step rest

theorem runFrom_of_expect {text : String} (next : Step σ β)
    (step : ∀ token, reader.step state token = Step.expect text token next)
    (tokens : List Token) :
    reader.runFrom state tokens =
      ((expect text).run tokens).andThen fun front later => reader.follow next front later :=
  runFrom_of_single (fun token => token.is text) (.unexpected (quoted text)) (fun _ => next) step
    tokens

end Reader

/-! ## Definitions and programs -/

theorem Reader.instruction_hosts_block (name : String) :
    Reader.block.Hosts Reader.instruction (Definition.inBody name) (fun _ _ => True)
      (fun body rest => ((Reader.expect Keyword.END.spelling).run rest).andThen
        fun _ later => Reader.instruction.runFrom (.atLabel name body) later) where
  on := by
    intro sequence next token events _ taken
    exact ⟨Definition.carries name sequence next token events taken, fun _ => trivial⟩
  done := by
    intro sequence token body events _ taken rest
    have taken : sequence.step token = .done body events := taken
    have step : instruction.step (.inBody name sequence) token =
        Step.expect Keyword.END.spelling token (.on (.atLabel name body) []) := by
      simp only [instruction, Definition.step, taken]
    exact runFrom_cons_of_expect _ step rest
  refuse := by
    intro sequence token error consumed events _ taken
    have taken : sequence.step token = .refuse error consumed events := taken
    exact ⟨events, by simp only [instruction, Definition.step, taken]⟩

theorem Reader.program_hosts_block (name : String) (context : Context) :
    Reader.block.Hosts Reader.program (Draft.inBody name context) (fun _ _ => True)
      (fun body rest => ((Reader.expect Keyword.END.spelling).run rest).andThen
        fun _ later => Reader.program.runFrom (.atLabel name context body) later) where
  on := by
    intro sequence next token events _ taken
    have taken : sequence.step token = .on next events := taken
    exact ⟨⟨events, by simp only [program, Draft.step, taken]⟩, fun _ => trivial⟩
  done := by
    intro sequence token body events _ taken rest
    have taken : sequence.step token = .done body events := taken
    have step : program.step (.inBody name context sequence) token =
        Step.expect Keyword.END.spelling token (.on (.atLabel name context body) []) := by
      simp only [program, Draft.step, taken]
    exact runFrom_cons_of_expect _ step rest
  refuse := by
    intro sequence token error consumed events _ taken
    have taken : sequence.step token = .refuse error consumed events := taken
    exact ⟨events, by simp only [program, Draft.step, taken]⟩

/-- After a definition the next one is read, unless its name was there before. -/
theorem Reader.program_hosts_instruction (name : String) (context : Context) (start : Span) :
    Reader.instruction.Hosts Reader.program (Draft.inDefinition name context start)
      (fun _ _ => True)
      (fun instruction rest =>
        if context.contains instruction.name then
          ⟨.error (.duplicateInstruction instruction.name start), rest⟩
        else Reader.program.runFrom (.atTable name (context.insert instruction)) rest) where
  on := by
    intro definition next token events _ taken
    have taken : definition.step token = .on next events := taken
    exact ⟨⟨events, by simp only [program, Draft.step, taken]⟩, fun _ => trivial⟩
  done := by
    intro definition token value events _ taken rest
    have taken : definition.step token = .done value events := taken
    rw [runFrom_cons]
    simp only [program, Draft.step, taken, instruction]
    split <;> rfl
  refuse := by
    intro definition token error consumed events _ taken
    have taken : definition.step token = .refuse error consumed events := taken
    exact ⟨events, by simp only [program, Draft.step, taken]⟩

end BLang
