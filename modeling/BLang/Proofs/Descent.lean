import BLang.Proofs.Hosting

/-!
# Recursive descent

A stream can also be read by routines that call one another: a statement calls for the blocks in it,
and a block for its statements.  What a routine does is a plan, which stops at every call and goes
on with the outcome of that call.  If the readers answer the calls inside a routine, its outcome is
that of the reader for it, so the readers solve the recursion of the routines.  The routine of a call
statement takes a token that another routine has looked at, and promises that it is an identifier; a
plan comes to an end only if such promises are kept.
-/

namespace BLang.Descent

/-! ## Plans -/

/-- What is read by a call of its own: a statement, a block of which some statements were read
(latest first), a definition, a program of which the name and some definitions were read, and a
program. -/
inductive Task where
  | statement
  | block (read : List Statement)
  | instruction
  | table (name : String) (context : Context)
  | program

abbrev Task.Value : Task → Type
  | statement => Statement
  | block _ => Block
  | instruction => Instruction
  | table _ _ => Program
  | program => Program

structure Call where
  task : Task
  tokens : List Token

/-- What is done on a stream: it ends, or there is a call on some tokens, and then it goes on with
the outcome of the call, or there is a promise, and it goes on if the promise is kept. -/
inductive Plan (α : Type) where
  | ends (outcome : Outcome α)
  | call (task : Task) (tokens : List Token) (next : Outcome task.Value → Plan α)
  | promise (breach : Breach) (kept : Bool) (next : Plan α)

namespace Plan

variable {α β : Type}

def andThen : Plan α → (α → List Token → Plan β) → Plan β
  | ends outcome, resume =>
      match outcome.result with
      | .ok value => resume value outcome.rest
      | .error error => ends ⟨.error error, outcome.rest⟩
  | call task tokens next, resume => call task tokens fun outcome => (next outcome).andThen resume
  | promise breach kept next, resume => promise breach kept (next.andThen resume)

end Plan

/-- A way to read a value off a stream. -/
def Routine (α : Type) : Type :=
  List Token → Plan α

instance : Monad Routine where
  pure value := fun tokens => .ends ⟨.ok value, tokens⟩
  bind routine resume := fun tokens =>
    (routine tokens).andThen fun value rest => resume value rest

namespace Routine

variable {α : Type}

/-- The front token is enough. -/
def take (reader : Reader Unit α) : Routine α :=
  fun tokens => .ends (reader.run tokens)

def ask (task : Task) : Routine task.Value :=
  fun tokens => .call task tokens .ends

def refuse (error : ParseError) : Routine α :=
  fun tokens => .ends ⟨.error error, tokens⟩

def promise (breach : Breach) (kept : Bool) : Routine Unit :=
  fun tokens => .promise breach kept (.ends ⟨.ok (), tokens⟩)

/-! ## Routines -/

def loop : Routine Statement := do
  let _ ← take (.expect Keyword.WHILE.spelling)
  let condition ← take .condition
  let _ ← take (.expect Keyword.DO.spelling)
  let body ← ask (.block [])
  let _ ← take (.expect Keyword.END.spelling)
  let _ ← take (.expect Keyword.WHILE.spelling)
  return .whileDo condition body

def conditional : Routine Statement := do
  let _ ← take (.expect Keyword.IF.spelling)
  let condition ← take .condition
  let _ ← take (.expect Keyword.THEN.spelling)
  let body ← ask (.block [])
  let terminal ← take .next
  if terminal.isKeyword .ELSE then
    let other ← ask (.block [])
    let _ ← take (.expect Keyword.END.spelling)
    let _ ← take (.expect Keyword.IF.spelling)
    return .ifThenElse condition body other
  else if terminal.isKeyword .END then
    let _ ← take (.expect Keyword.IF.spelling)
    return .ifThen condition body
  else refuse (.unexpected "'ELSE' or 'END'" terminal)

def call : Routine Statement := do
  let name ← take .next
  promise .notIdentifier (isIdentifier name.lexeme)
  return .call name.lexeme

/-- The front token tells which statement it is, and is left to the routine for that. -/
def statement : Routine Statement := do
  let front ← take .peek
  if front.isKeyword .WHILE then loop
  else if front.isKeyword .IF then conditional
  else if isIdentifier front.lexeme then call
  else refuse (.unexpected "identifier, 'IF' or 'WHILE'" front)

/-- A round of the loop over the statements of a block. -/
def block (read : List Statement) : Routine Block := do
  let front ← take .peek
  if front.closesBlock then return read.reverse
  else
    let statement ← ask .statement
    ask (.block (statement :: read))

def instruction : Routine Instruction := do
  let _ ← take (.expect Keyword.INSTRUCTION.spelling)
  let name ← take .identifier
  if isPrimitive name.lexeme then refuse (.primitiveRedefinition name)
  else
    let _ ← take (.expect Keyword.IS.spelling)
    let body ← ask (.block [])
    let _ ← take (.expect Keyword.END.spelling)
    let _ ← take (.label name.lexeme)
    return ⟨name.lexeme, body⟩

/-- A round of the loop over the definitions of a program, or what comes after them. -/
def table (name : String) (context : Context) : Routine Program := do
  if ← take (.peekIs Keyword.INSTRUCTION.spelling) then
    let start ← take .peek
    let instruction ← ask .instruction
    if context.contains instruction.name then
      refuse (.duplicateInstruction instruction.name start.span)
    else ask (.table name (context.insert instruction))
  else
    let _ ← take (.expect Keyword.BEGIN.spelling)
    let body ← ask (.block [])
    let _ ← take (.expect Keyword.END.spelling)
    let _ ← take (.label name)
    let _ ← take .endOfInput
    return ⟨name, context, body⟩

def program : Routine Program := do
  let _ ← take (.expect Keyword.PROGRAM.spelling)
  let name ← take .identifier
  let _ ← take (.expect Keyword.IS.spelling)
  ask (.table name.lexeme Context.empty)

end Routine

/-- The routine for a task. -/
def Task.routine : (task : Task) → Routine task.Value
  | statement => Routine.statement
  | block read => Routine.block read
  | instruction => Routine.instruction
  | table name context => Routine.table name context
  | program => Routine.program

/-- What the readers answer. -/
def Task.answer : (task : Task) → List Token → Outcome task.Value
  | statement => Reader.statement.run
  | block read => Reader.block.runFrom ⟨read, Nest.start⟩
  | instruction => Reader.instruction.run
  | table name context => Reader.program.runFrom (.atTable name context)
  | program => Reader.program.run

namespace Plan

variable {α β : Type}

/-- The outcome of a plan if the readers answer its calls and its promises are kept. -/
def outcome : Plan α → Outcome α
  | ends outcome => outcome
  | call task tokens next => (next (task.answer tokens)).outcome
  | promise _ _ next => next.outcome

/-- The calls that are made then. -/
def calls : Plan α → List Call
  | ends _ => []
  | call task tokens next => ⟨task, tokens⟩ :: (next (task.answer tokens)).calls
  | promise _ _ next => next.calls

/-- The promises are kept if the readers answer the calls. -/
def Keeps : Plan α → Prop
  | ends _ => True
  | call task tokens next => (next (task.answer tokens)).Keeps
  | promise _ kept next => kept = true ∧ next.Keeps

/-- The plan comes to an end when every call is answered by the plan for it. -/
inductive Reaches : {α : Type} → Plan α → Outcome α → Prop where
  | ends {α : Type} (outcome : Outcome α) : Reaches (ends outcome) outcome
  | call {α : Type} {task : Task} {tokens : List Token} {next : Outcome task.Value → Plan α}
      {answer : Outcome task.Value} {outcome : Outcome α}
      (inner : Reaches (task.routine tokens) answer) (later : Reaches (next answer) outcome) :
      Reaches (call task tokens next) outcome
  | promise {α : Type} {breach : Breach} {next : Plan α} {outcome : Outcome α}
      (later : Reaches next outcome) : Reaches (promise breach true next) outcome

/-- The plan comes to a promise that is not kept, in itself or in a call that it makes. -/
inductive Breaks : {α : Type} → Plan α → Breach → Prop where
  | here {α : Type} (breach : Breach) (next : Plan α) : Breaks (promise breach false next) breach
  | promise {α : Type} {other breach : Breach} {next : Plan α} (later : Breaks next breach) :
      Breaks (promise other true next) breach
  | inner {α : Type} {task : Task} {tokens : List Token} {next : Outcome task.Value → Plan α}
      {breach : Breach} (inner : Breaks (task.routine tokens) breach) :
      Breaks (call task tokens next) breach
  | later {α : Type} {task : Task} {tokens : List Token} {next : Outcome task.Value → Plan α}
      {answer : Outcome task.Value} {breach : Breach}
      (inner : Reaches (task.routine tokens) answer) (later : Breaks (next answer) breach) :
      Breaks (call task tokens next) breach

theorem outcome_andThen (plan : Plan α) (resume : α → List Token → Plan β) :
    (plan.andThen resume).outcome =
      plan.outcome.andThen fun value rest => (resume value rest).outcome := by
  induction plan with
  | ends outcome =>
      unfold andThen Outcome.andThen
      simp only [Plan.outcome]
      cases outcome.result <;> rfl
  | call task tokens next ih => exact ih _
  | promise breach kept next ih => exact ih

theorem keeps_andThen (plan : Plan α) (resume : α → List Token → Plan β) :
    (plan.andThen resume).Keeps ↔ plan.Keeps ∧
      ∀ value rest, plan.outcome = ⟨.ok value, rest⟩ → (resume value rest).Keeps := by
  induction plan with
  | ends outcome =>
      obtain ⟨result, rest⟩ := outcome
      cases result with
      | ok value => simp [andThen, Keeps, outcome]
      | error error => simp [andThen, Keeps, outcome]
  | call task tokens next ih => exact ih _
  | promise breach kept next ih => simp only [andThen, Keeps, outcome, ih, and_assoc]

end Plan

namespace Routine

variable {α β : Type} (tokens : List Token)

@[simp]
theorem outcome_bind (routine : Routine α) (resume : α → Routine β) :
    ((routine >>= resume) tokens).outcome =
      (routine tokens).outcome.andThen fun value rest => (resume value rest).outcome :=
  (routine tokens).outcome_andThen _

@[simp]
theorem outcome_pure (value : α) : ((pure value : Routine α) tokens).outcome = ⟨.ok value, tokens⟩ :=
  rfl

@[simp]
theorem outcome_take (reader : Reader Unit α) : (take reader tokens).outcome = reader.run tokens :=
  rfl

@[simp]
theorem keeps_bind (routine : Routine α) (resume : α → Routine β) :
    ((routine >>= resume) tokens).Keeps ↔ (routine tokens).Keeps ∧
      ∀ value rest, (routine tokens).outcome = ⟨.ok value, rest⟩ → (resume value rest).Keeps :=
  (routine tokens).keeps_andThen _

@[simp]
theorem keeps_pure (value : α) : ((pure value : Routine α) tokens).Keeps :=
  trivial

@[simp]
theorem keeps_take (reader : Reader Unit α) : (take reader tokens).Keeps :=
  trivial

@[simp]
theorem keeps_refuse (error : ParseError) : ((refuse error : Routine α) tokens).Keeps :=
  trivial

@[simp]
theorem keeps_promise (breach : Breach) (kept : Bool) :
    (promise breach kept tokens).Keeps ↔ kept = true :=
  iff_of_eq (and_true _)

@[simp]
theorem keeps_ite (test : Bool) (first second : Routine α) :
    ((if test then first else second) tokens).Keeps ↔
      if test then (first tokens).Keeps else (second tokens).Keeps := by
  cases test <;> rfl

end Routine

/-! ## The readers answer as the routines ask -/

section

variable {token : Token} {rest : List Token}

theorem runFrom_condition (form : Form) (tokens : List Token) :
    Reader.statement.runFrom ⟨[], .condition form⟩ tokens =
      (Reader.condition.run tokens).andThen fun condition later =>
        Reader.statement.runFrom ⟨[], .opener form condition⟩ later := by
  cases tokens with
  | nil => rfl
  | cons token rest =>
      rw [Reader.run, Reader.runFrom_cons, Reader.runFrom_cons]
      simp only [Reader.statement, Reader.condition, Nest.step]
      cases Condition.ofSpelling? token.lexeme <;> rfl

theorem runFrom_opener (form : Form) (condition : Condition) (tokens : List Token) :
    Reader.statement.runFrom ⟨[], .opener form condition⟩ tokens =
      ((Reader.expect form.opener.spelling).run tokens).andThen fun _ later =>
        Reader.statement.runFrom ⟨[⟨form.head condition, []⟩], .item⟩ later :=
  Reader.runFrom_of_expect (.on (Nest.mk [⟨form.head condition, []⟩] .item) []) (fun _ => rfl) tokens

theorem runFrom_body (head : Head) (tokens : List Token) :
    Reader.statement.runFrom ⟨[⟨head, []⟩], .item⟩ tokens =
      (Reader.block.run tokens).andThen fun body later =>
        Reader.statement.runFrom ⟨[⟨head, body.reverse⟩], .item⟩ later :=
  (Reader.statement_hosts_block head []).runFrom_eq Sequence.start tokens fun _ _ => trivial

theorem runFrom_closer (form : Form) (statement : Statement) (tokens : List Token) :
    Reader.statement.runFrom ⟨[], .closer form statement⟩ tokens =
      ((Reader.expect form.keyword.spelling).run tokens).andThen fun _ later =>
        ⟨.ok statement, later⟩ :=
  Reader.runFrom_of_expect (.done statement []) (fun _ => rfl) tokens

/-- A statement with a body, up to the token that closes it. -/
theorem run_of_form (form : Form) (begins : token.isKeyword form.keyword = true) :
    Reader.statement.run (token :: rest) =
      (Reader.condition.run rest).andThen fun condition later =>
        ((Reader.expect form.opener.spelling).run later).andThen fun _ later =>
          (Reader.block.run later).andThen fun body later =>
            Reader.statement.runFrom ⟨[⟨form.head condition, body.reverse⟩], .item⟩ later := by
  have text := (token.isKeyword_iff _).mp begins
  have step : Reader.statement.step Nest.start token = .on ⟨[], .condition form⟩ [] :=
    Nest.enter_form text
  rw [Reader.run, Reader.runFrom_cons, show Reader.statement.start = Nest.start from rfl, step]
  simp only [Reader.follow, runFrom_condition, runFrom_opener, runFrom_body]

/-- The last two words of a statement with a body. -/
theorem runFrom_end {head : Head} {read : List Statement} {form : Form} {statement : Statement}
    (closes : token.closesBlock = true)
    (close : Nest.close ⟨head, read⟩ [] token =
      Step.expect Keyword.END.spelling token (.on ⟨[], .closer form statement⟩ [])) :
    Reader.statement.runFrom ⟨[⟨head, read⟩], .item⟩ (token :: rest) =
      ((Reader.expect Keyword.END.spelling).run (token :: rest)).andThen fun _ later =>
        ((Reader.expect form.keyword.spelling).run later).andThen fun _ later =>
          ⟨.ok statement, later⟩ := by
  have step : Reader.statement.step ⟨[⟨head, read⟩], .item⟩ token =
      Step.expect Keyword.END.spelling token (.on ⟨[], .closer form statement⟩ []) :=
    (if_pos closes).trans close
  rw [Reader.runFrom_cons_of_expect _ step]
  simp only [Reader.follow, runFrom_closer]

theorem exists_closing {tokens : List Token} {body : Block}
    (read : Reader.block.run tokens = ⟨.ok body, rest⟩) :
    ∃ stop after, rest = stop :: after ∧ stop.closesBlock = true :=
  ((Reader.block_run_iff tokens rest body).mp read).2.2

theorem outcome_loop (begins : token.isKeyword .WHILE = true) :
    (Routine.loop (token :: rest)).outcome = Reader.statement.run (token :: rest) := by
  rw [run_of_form .loop begins]
  simp only [Routine.loop, Routine.outcome_bind, Routine.outcome_take, Routine.outcome_pure,
    Reader.expect_run_of_lexeme begins, Outcome.andThen_ok]
  refine Outcome.andThen_congr fun condition _ _ => Outcome.andThen_congr fun _ _ _ =>
    Outcome.andThen_congr fun body later read => ?_
  obtain ⟨stop, after, rfl, closes⟩ := exists_closing read
  rw [runFrom_end closes rfl, List.reverse_reverse]
  rfl

theorem outcome_conditional (begins : token.isKeyword .IF = true) :
    (Routine.conditional (token :: rest)).outcome = Reader.statement.run (token :: rest) := by
  rw [run_of_form .conditional begins]
  simp only [Routine.conditional, Routine.outcome_bind, Routine.outcome_take,
    Reader.expect_run_of_lexeme begins, Outcome.andThen_ok]
  refine Outcome.andThen_congr fun condition _ _ => Outcome.andThen_congr fun _ _ _ =>
    Outcome.andThen_congr fun body later read => ?_
  obtain ⟨stop, after, rfl, closes⟩ := exists_closing read
  rw [show Reader.next.run (stop :: after) = ⟨.ok stop, after⟩ from rfl, Outcome.andThen_ok]
  have step : Reader.statement.runFrom ⟨[⟨.thenBranch condition, body.reverse⟩], .item⟩
      (stop :: after) = Reader.statement.follow
        (Nest.close ⟨.thenBranch condition, body.reverse⟩ [] stop) stop after := by
    rw [Reader.runFrom_cons]
    exact congrArg (Reader.statement.follow · stop after) (if_pos closes)
  rw [show Form.conditional.head condition = .thenBranch condition from rfl, step]
  simp only [Nest.close]
  split
  next isElse =>
    rw [Reader.follow, runFrom_body, List.reverse_reverse]
    simp only [Routine.outcome_bind, Routine.outcome_take, Routine.outcome_pure]
    refine Outcome.andThen_congr fun other later read => ?_
    obtain ⟨stop, after, rfl, closes⟩ := exists_closing read
    rw [runFrom_end closes rfl, List.reverse_reverse]
    rfl
  next notElse =>
    split
    next isEnd =>
      rw [Reader.follow, runFrom_closer, List.reverse_reverse, Routine.outcome_bind]
      rfl
    next => rfl

theorem outcome_statement (tokens : List Token) :
    (Routine.statement tokens).outcome = Reader.statement.run tokens := by
  cases tokens with
  | nil => rfl
  | cons token rest =>
      have front : Reader.peek.run (token :: rest) = ⟨.ok token, token :: rest⟩ := rfl
      simp only [Routine.statement, Routine.outcome_bind, Routine.outcome_take, front,
        Outcome.andThen_ok]
      split
      next isLoop => exact outcome_loop isLoop
      next notLoop =>
        split
        next isConditional => exact outcome_conditional isConditional
        next notConditional =>
          have step : Reader.statement.step Nest.start token =
              if isIdentifier token.lexeme then .done (.call token.lexeme) []
              else .refuse (.unexpected "identifier, 'IF' or 'WHILE'" token) false [] := by
            simp [Reader.statement, Nest.start, Nest.step, Nest.enter, notLoop, notConditional,
              Nest.finish]
          rw [Reader.run, Reader.runFrom_cons, show Reader.statement.start = Nest.start from rfl,
            step]
          split <;> rfl

theorem outcome_block (read : List Statement) (tokens : List Token) :
    (Routine.block read tokens).outcome = Reader.block.runFrom ⟨read, Nest.start⟩ tokens := by
  cases tokens with
  | nil => rfl
  | cons token rest =>
      have front : Reader.peek.run (token :: rest) = ⟨.ok token, token :: rest⟩ := rfl
      simp only [Routine.block, Routine.outcome_bind, Routine.outcome_take, front,
        Outcome.andThen_ok]
      split
      next closes =>
        have step : Reader.block.step ⟨read, Nest.start⟩ token = .done read.reverse [] :=
          Sequence.step_of_closes read closes
        exact (Reader.runFrom_of_done step rest).symm
      next opens =>
        have inside : Nest.start.Inside token := .inr (Bool.eq_false_iff.mpr opens)
        rw [(Reader.block_hosts_statement read).runFrom_eq Nest.start (token :: rest)
          (by simpa using inside), Routine.outcome_bind]
        rfl

theorem outcome_instruction (tokens : List Token) :
    (Routine.instruction tokens).outcome = Reader.instruction.run tokens := by
  have keyword : Reader.instruction.run tokens =
      ((Reader.expect Keyword.INSTRUCTION.spelling).run tokens).andThen fun _ later =>
        Reader.instruction.runFrom .atName later :=
    Reader.runFrom_of_expect (.on Definition.atName []) (fun _ => rfl) tokens
  have name (tokens : List Token) : Reader.instruction.runFrom .atName tokens =
      (Reader.identifier.run tokens).andThen fun name later => Reader.instruction.follow
        (if isPrimitive name.lexeme then .refuse (.primitiveRedefinition name) true []
        else .on (.atIs name.lexeme) []) name later :=
    Reader.runFrom_of_single _ _ _ (fun _ => rfl) tokens
  have opening (name : String) (tokens : List Token) :
      Reader.instruction.runFrom (.atIs name) tokens =
        ((Reader.expect Keyword.IS.spelling).run tokens).andThen fun _ later =>
          Reader.instruction.runFrom (.inBody name Sequence.start) later :=
    Reader.runFrom_of_expect (.on (Definition.inBody name Sequence.start) []) (fun _ => rfl) tokens
  have body (name : String) (tokens : List Token) :=
    (Reader.instruction_hosts_block name).runFrom_eq Sequence.start tokens fun _ _ => trivial
  have label (name : String) (body : Block) (tokens : List Token) :
      Reader.instruction.runFrom (.atLabel name body) tokens =
        ((Reader.label name).run tokens).andThen fun _ later => ⟨.ok ⟨name, body⟩, later⟩ :=
    Reader.runFrom_of_single _ _
      (fun _ => .done (Instruction.mk name body) [.parsedInstruction name body.length])
      (fun _ => rfl) tokens
  rw [keyword]
  simp only [Routine.instruction, Routine.outcome_bind, Routine.outcome_take, name]
  refine Outcome.andThen_congr fun _ _ _ => Outcome.andThen_congr fun name later _ => ?_
  split
  next => rfl
  next =>
    rw [Reader.follow, opening]
    simp only [body, label, Routine.outcome_bind, Routine.outcome_take, Routine.outcome_pure]
    rfl

theorem runFrom_atEnd (program : Program) (tokens : List Token) :
    Reader.program.runFrom (.atEnd program) tokens =
      (Reader.endOfInput.run tokens).andThen fun _ later => ⟨.ok program, later⟩ := by
  cases tokens with
  | nil => rfl
  | cons token rest =>
      rw [Reader.run, Reader.runFrom_cons, Reader.runFrom_cons]
      simp only [Reader.program, Reader.endOfInput, Draft.step]
      cases token.isEnd <;> rfl

theorem outcome_table (name : String) (context : Context) (tokens : List Token) :
    (Routine.table name context tokens).outcome =
      Reader.program.runFrom (.atTable name context) tokens := by
  cases tokens with
  | nil => rfl
  | cons token rest =>
      have looked : (Reader.peekIs Keyword.INSTRUCTION.spelling).run (token :: rest) =
          ⟨.ok (token.isKeyword .INSTRUCTION), token :: rest⟩ := rfl
      have front : Reader.peek.run (token :: rest) = ⟨.ok token, token :: rest⟩ := rfl
      simp only [Routine.table, Routine.outcome_bind, Routine.outcome_take, looked,
        Outcome.andThen_ok]
      split
      next defines =>
        have step : Reader.program.step (.atTable name context) token =
            .on (.inDefinition name context token.span .atName) [] := if_pos defines
        have inner : Reader.instruction.run (token :: rest) =
            Reader.instruction.runFrom .atName rest := by
          rw [Reader.run, Reader.runFrom_cons]
          exact congrArg (Reader.instruction.follow · token rest)
            (Definition.step_of_instruction ((token.isKeyword_iff _).mp defines))
        rw [Reader.runFrom_cons, step, Reader.follow,
          (Reader.program_hosts_instruction name context token.span).runFrom_eq _ rest
            fun _ _ => trivial, ← inner]
        simp only [Routine.outcome_bind, Routine.outcome_take, front, Outcome.andThen_ok]
        refine Outcome.andThen_congr fun instruction later _ => ?_
        split <;> rfl
      next opens =>
        have step : Reader.program.step (.atTable name context) token =
            Step.expect Keyword.BEGIN.spelling token
              (.on (.inBody name context Sequence.start) []) := if_neg opens
        have body (tokens : List Token) :=
          (Reader.program_hosts_block name context).runFrom_eq Sequence.start tokens
            fun _ _ => trivial
        have label (body : Block) (tokens : List Token) :
            Reader.program.runFrom (.atLabel name context body) tokens =
              ((Reader.label name).run tokens).andThen fun _ later =>
                Reader.program.runFrom (.atEnd ⟨name, context, body⟩) later :=
          Reader.runFrom_of_single _ _ (fun _ => .on (Draft.atEnd ⟨name, context, body⟩) [])
            (fun _ => rfl) tokens
        rw [Reader.runFrom_cons_of_expect _ step]
        simp only [Reader.follow, body, label, runFrom_atEnd, Routine.outcome_bind,
          Routine.outcome_take, Routine.outcome_pure]
        rfl

theorem outcome_program (tokens : List Token) :
    (Routine.program tokens).outcome = Reader.program.run tokens := by
  have keyword : Reader.program.run tokens =
      ((Reader.expect Keyword.PROGRAM.spelling).run tokens).andThen fun _ later =>
        Reader.program.runFrom .atName later :=
    Reader.runFrom_of_expect (.on Draft.atName []) (fun _ => rfl) tokens
  have name (tokens : List Token) : Reader.program.runFrom .atName tokens =
      (Reader.identifier.run tokens).andThen fun name later =>
        Reader.program.runFrom (.atIs name.lexeme) later :=
    Reader.runFrom_of_single _ _ (fun name => .on (Draft.atIs name.lexeme) []) (fun _ => rfl) tokens
  have opening (name : String) (tokens : List Token) :
      Reader.program.runFrom (.atIs name) tokens =
        ((Reader.expect Keyword.IS.spelling).run tokens).andThen fun _ later =>
          Reader.program.runFrom (.atTable name Context.empty) later :=
    Reader.runFrom_of_expect (.on (Draft.atTable name Context.empty) []) (fun _ => rfl) tokens
  rw [keyword]
  simp only [Routine.program, Routine.outcome_bind, Routine.outcome_take, name, opening]
  rfl

end

/-- The readers solve the recursion of the routines. -/
theorem Task.outcome_routine (task : Task) (tokens : List Token) :
    (task.routine tokens).outcome = task.answer tokens := by
  cases task with
  | statement => exact outcome_statement tokens
  | block read => exact outcome_block read tokens
  | instruction => exact outcome_instruction tokens
  | table name context => exact outcome_table name context tokens
  | program => exact outcome_program tokens

/-! ## Promises are kept -/

theorem keeps_loop (tokens : List Token) : (Routine.loop tokens).Keeps := by
  simp [Routine.loop, Routine.ask, Plan.Keeps]

theorem keeps_conditional (tokens : List Token) : (Routine.conditional tokens).Keeps := by
  simp [Routine.conditional, Routine.ask, Plan.Keeps]

theorem keeps_call {token : Token} (name : isIdentifier token.lexeme = true) (rest : List Token) :
    (Routine.call (token :: rest)).Keeps := by
  have next : Reader.next.run (token :: rest) = ⟨.ok token, rest⟩ := rfl
  simp [Routine.call, next, name]

theorem keeps_statement (tokens : List Token) : (Routine.statement tokens).Keeps := by
  cases tokens with
  | nil =>
      have front : Reader.peek.run [] = ⟨.error .endOfStream, []⟩ := rfl
      simp [Routine.statement, front]
  | cons token rest =>
      have front : Reader.peek.run (token :: rest) = ⟨.ok token, token :: rest⟩ := rfl
      simp +contextual [Routine.statement, front, keeps_loop, keeps_conditional, keeps_call]

/-- The promises of the routines are kept if the readers answer their calls. -/
theorem Task.keeps_routine (task : Task) (tokens : List Token) : (task.routine tokens).Keeps := by
  cases task with
  | statement => exact keeps_statement tokens
  | block read => simp [Task.routine, Routine.block, Routine.ask, Plan.Keeps]
  | instruction => simp [Task.routine, Routine.instruction, Routine.ask, Plan.Keeps]
  | table name context => simp [Task.routine, Routine.table, Routine.ask, Plan.Keeps]
  | program => simp [Task.routine, Routine.program, Routine.ask, Plan.Keeps]

end BLang.Descent
