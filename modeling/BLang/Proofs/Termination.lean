import BLang.Proofs.Descent

/-!
# Termination

A routine that takes a token before its first call makes all calls on fewer tokens, and so do the
routines of statements, definitions and programs.  A round of a loop begins with a call on the tokens
it was given, but a statement or a definition is then read off them, which takes a token, and the
next round has fewer.  So no chain of calls inside calls goes on without end, and by induction along
such chains every routine comes to an end, on every stream.
-/

namespace BLang.Descent

/-! ## What is left, and what is called -/

theorem Task.length_rest_le (task : Task) (tokens : List Token) :
    (task.answer tokens).rest.length ≤ tokens.length := by
  cases task with
  | statement => exact (Reader.run_rest_suffix _ tokens).length_le
  | block read => exact (Reader.runFrom_rest_suffix _ _ tokens).length_le
  | instruction => exact (Reader.run_rest_suffix _ tokens).length_le
  | table name context => exact (Reader.runFrom_rest_suffix _ _ tokens).length_le
  | program => exact (Reader.run_rest_suffix _ tokens).length_le

/-- A reader that takes its last token leaves fewer. -/
theorem length_rest_lt {σ α : Type} {reader : Reader σ α} (takes : reader.leavesLast = false)
    {tokens : List Token} {value : α} (read : (reader.run tokens).result = .ok value) :
    (reader.run tokens).rest.length < tokens.length := by
  have ends := reader.runFrom_ends reader.start tokens
  generalize same : reader.runFrom reader.start tokens = outcome at ends
  have run : reader.run tokens = outcome := same
  rw [run] at read ⊢
  cases ends with
  | exhausted path => cases read
  | done path step after =>
      simp only [takes, List.length_append, List.length_cons]
      exact Nat.lt_add_left _ (Nat.lt_succ_self _)
  | refused path step after => cases read

theorem Plan.mem_calls_andThen {α β : Type} {plan : Plan α}
    {resume : α → List Token → Plan β} {call : Call} :
    call ∈ (plan.andThen resume).calls ↔
      call ∈ plan.calls ∨ ∃ value rest, plan.outcome = ⟨.ok value, rest⟩ ∧
        call ∈ (resume value rest).calls := by
  induction plan with
  | ends outcome =>
      obtain ⟨result, rest⟩ := outcome
      cases result with
      | ok value => simp [andThen, calls, outcome]
      | error error => simp [andThen, calls, outcome]
  | call task tokens next ih =>
      simp only [andThen, calls, outcome, List.mem_cons, ih, or_assoc]
  | promise breach kept next ih => exact ih

namespace Routine

variable {α β : Type}

/-- Neither the outcome nor a call has more tokens than there were. -/
structure NonGrowing (routine : Routine α) : Prop where
  rest : ∀ tokens, (routine tokens).outcome.rest.length ≤ tokens.length
  calls : ∀ tokens, ∀ call ∈ (routine tokens).calls, call.tokens.length ≤ tokens.length

/-- A token is taken before the first call, and for every value. -/
structure Shrinking (routine : Routine α) : Prop where
  rest : ∀ tokens, (routine tokens).outcome.rest.length ≤ tokens.length
  value : ∀ tokens value rest, (routine tokens).outcome = ⟨.ok value, rest⟩ →
    rest.length < tokens.length
  calls : ∀ tokens, ∀ call ∈ (routine tokens).calls, call.tokens.length < tokens.length

theorem Shrinking.nonGrowing {routine : Routine α} (shrinking : routine.Shrinking) :
    routine.NonGrowing :=
  ⟨shrinking.rest, fun tokens call member => Nat.le_of_lt (shrinking.calls tokens call member)⟩

theorem NonGrowing.rest_of_ok {routine : Routine α} (nonGrowing : routine.NonGrowing)
    {tokens rest : List Token} {value : α} (read : (routine tokens).outcome = ⟨.ok value, rest⟩) :
    rest.length ≤ tokens.length := by
  have bounded := nonGrowing.rest tokens
  rwa [read] at bounded

/-- Both parts of a successful way are successful. -/
theorem exists_of_bind {routine : Routine α} {resume : α → Routine β} {tokens rest : List Token}
    {value : β} (read : ((routine >>= resume) tokens).outcome = ⟨.ok value, rest⟩) :
    ∃ front middle, (routine tokens).outcome = ⟨.ok front, middle⟩ ∧
      (resume front middle).outcome = ⟨.ok value, rest⟩ := by
  rw [outcome_bind] at read
  generalize (routine tokens).outcome = outcome at read
  obtain ⟨result, middle⟩ := outcome
  cases result with
  | ok front => exact ⟨front, middle, rfl, read⟩
  | error error => cases read

theorem NonGrowing.bind {routine : Routine α} {resume : α → Routine β}
    (first : routine.NonGrowing) (later : ∀ value, (resume value).NonGrowing) :
    (routine >>= resume).NonGrowing where
  rest tokens := by
    rw [outcome_bind]
    have bounded := first.rest tokens
    generalize (routine tokens).outcome = outcome at bounded
    obtain ⟨result, rest⟩ := outcome
    cases result with
    | ok value => exact ((later value).rest rest).trans bounded
    | error error => exact bounded
  calls := by
    intro tokens call member
    rcases Plan.mem_calls_andThen.mp member with before | ⟨value, rest, read, behind⟩
    · exact first.calls tokens call before
    · exact ((later value).calls rest call behind).trans (first.rest_of_ok read)

/-- A token that is taken first is taken before everything else. -/
theorem Shrinking.bind {routine : Routine α} {resume : α → Routine β}
    (first : routine.Shrinking) (later : ∀ value, (resume value).NonGrowing) :
    (routine >>= resume).Shrinking where
  rest := (first.nonGrowing.bind later).rest
  value := by
    intro tokens value rest read
    obtain ⟨front, middle, taken, behind⟩ := exists_of_bind read
    exact Nat.lt_of_le_of_lt ((later front).rest_of_ok behind) (first.value _ _ _ taken)
  calls := by
    intro tokens call member
    rcases Plan.mem_calls_andThen.mp member with before | ⟨value, rest, read, behind⟩
    · exact first.calls tokens call before
    · exact Nat.lt_of_le_of_lt ((later value).calls rest call behind) (first.value _ _ _ read)

theorem nonGrowing_pure (value : α) : (pure value : Routine α).NonGrowing :=
  ⟨fun _ => Nat.le_refl _, fun _ => List.forall_mem_nil _⟩

theorem nonGrowing_promise (breach : Breach) (kept : Bool) : (promise breach kept).NonGrowing :=
  ⟨fun _ => Nat.le_refl _, fun _ => List.forall_mem_nil _⟩

theorem shrinking_refuse (error : ParseError) : (refuse error : Routine α).Shrinking :=
  ⟨fun _ => Nat.le_refl _, fun _ _ _ => nofun, fun _ => List.forall_mem_nil _⟩

theorem nonGrowing_take (reader : Reader Unit α) : (take reader).NonGrowing :=
  ⟨fun tokens => (reader.run_rest_suffix tokens).length_le, fun _ => List.forall_mem_nil _⟩

theorem shrinking_take {reader : Reader Unit α} (takes : reader.leavesLast = false) :
    (take reader).Shrinking where
  rest := (nonGrowing_take reader).rest
  value := by
    intro tokens value rest read
    have run : reader.run tokens = ⟨.ok value, rest⟩ := read
    have shorter := length_rest_lt takes (congrArg Outcome.result run)
    rwa [run] at shorter
  calls _ := List.forall_mem_nil _

theorem nonGrowing_ask (task : Task) : (ask task).NonGrowing :=
  ⟨task.length_rest_le, fun _ => List.forall_mem_singleton.mpr (Nat.le_refl _)⟩

/-- Looking ahead takes nothing and calls nothing. -/
theorem Shrinking.look {reader : Reader Unit α} {resume : α → Routine β}
    (later : ∀ value, (resume value).Shrinking) : (take reader >>= resume).Shrinking where
  rest := ((nonGrowing_take reader).bind fun value => (later value).nonGrowing).rest
  value := by
    intro tokens value rest read
    obtain ⟨front, middle, taken, behind⟩ := exists_of_bind read
    exact Nat.lt_of_lt_of_le ((later front).value _ _ _ behind)
      ((nonGrowing_take reader).rest_of_ok taken)
  calls := by
    intro tokens call member
    rcases Plan.mem_calls_andThen.mp member with before | ⟨value, rest, read, behind⟩
    · cases before
    · exact Nat.lt_of_lt_of_le ((later value).calls rest call behind)
        ((nonGrowing_take reader).rest_of_ok read)

theorem shrinking_loop : loop.Shrinking := by
  refine (shrinking_take rfl).bind fun _ => ?_
  refine (nonGrowing_take _).bind fun condition => (nonGrowing_take _).bind fun _ => ?_
  refine (nonGrowing_ask (.block [])).bind fun body => ?_
  refine (nonGrowing_take _).bind fun _ => (nonGrowing_take _).bind fun _ => ?_
  exact nonGrowing_pure _

theorem shrinking_conditional : conditional.Shrinking := by
  refine (shrinking_take rfl).bind fun _ => ?_
  refine (nonGrowing_take _).bind fun condition => (nonGrowing_take _).bind fun _ => ?_
  refine (nonGrowing_ask (.block [])).bind fun body => (nonGrowing_take _).bind fun terminal => ?_
  split
  · refine (nonGrowing_ask (.block [])).bind fun other => ?_
    refine (nonGrowing_take _).bind fun _ => (nonGrowing_take _).bind fun _ => ?_
    exact nonGrowing_pure _
  · split
    · exact (nonGrowing_take _).bind fun _ => nonGrowing_pure _
    · exact (shrinking_refuse _).nonGrowing

theorem shrinking_call : call.Shrinking :=
  (shrinking_take rfl).bind fun _ => (nonGrowing_promise _ _).bind fun _ => nonGrowing_pure _

theorem shrinking_statement : statement.Shrinking := by
  refine .look fun front => ?_
  split
  · exact shrinking_loop
  · split
    · exact shrinking_conditional
    · split
      · exact shrinking_call
      · exact shrinking_refuse _

theorem shrinking_of_mem {routine : Routine Statement}
    (member : routine ∈ [statement, loop, conditional, call]) : routine.Shrinking := by
  simp only [List.mem_cons, List.not_mem_nil, or_false] at member
  rcases member with rfl | rfl | rfl | rfl
  · exact shrinking_statement
  · exact shrinking_loop
  · exact shrinking_conditional
  · exact shrinking_call

theorem shrinking_instruction : instruction.Shrinking := by
  refine (shrinking_take rfl).bind fun _ => (nonGrowing_take _).bind fun name => ?_
  split
  · exact (shrinking_refuse _).nonGrowing
  · refine (nonGrowing_take _).bind fun _ => (nonGrowing_ask (.block [])).bind fun body => ?_
    refine (nonGrowing_take _).bind fun _ => (nonGrowing_take _).bind fun _ => ?_
    exact nonGrowing_pure _

theorem shrinking_program : program.Shrinking := by
  refine (shrinking_take rfl).bind fun _ => (nonGrowing_take _).bind fun name => ?_
  exact (nonGrowing_take _).bind fun _ => nonGrowing_ask (.table _ _)

/-- If what is called first takes a token for every value, the calls after it have fewer tokens. -/
theorem calls_of_ask (task : Task) {resume : task.Value → Routine β}
    (first : task.routine.Shrinking) (later : ∀ value, (resume value).NonGrowing)
    {tokens : List Token} {call : Call} (member : call ∈ ((ask task >>= resume) tokens).calls) :
    call = ⟨task, tokens⟩ ∨ call.tokens.length < tokens.length := by
  rcases Plan.mem_calls_andThen.mp member with before | ⟨value, rest, read, behind⟩
  · exact .inl (List.mem_singleton.mp before)
  · have answered : (task.routine tokens).outcome = ⟨.ok value, rest⟩ :=
      (task.outcome_routine tokens).trans read
    exact .inr (Nat.lt_of_le_of_lt ((later value).calls rest call behind)
      (first.value _ _ _ answered))

/-- After a look at the front token all tokens are there. -/
theorem exists_of_look {reader : Reader Unit α} {resume : α → Routine β}
    (leaves : ∀ token rest, (reader.run (token :: rest)).rest = token :: rest)
    {tokens : List Token} {call : Call}
    (member : call ∈ ((take reader >>= resume) tokens).calls) :
    ∃ value, call ∈ (resume value tokens).calls := by
  rcases Plan.mem_calls_andThen.mp member with before | ⟨value, rest, looked, behind⟩
  · cases before
  · cases tokens with
    | nil => cases looked
    | cons token others =>
        obtain rfl : token :: others = rest :=
          (leaves token others).symm.trans (congrArg Outcome.rest looked)
        exact ⟨value, behind⟩

theorem calls_block {read : List Statement} {tokens : List Token} {call : Call}
    (member : call ∈ (block read tokens).calls) :
    call = ⟨.statement, tokens⟩ ∨ call.tokens.length < tokens.length := by
  obtain ⟨front, called⟩ := exists_of_look (fun _ _ => rfl) member
  split at called
  · cases called
  · exact calls_of_ask .statement shrinking_statement
      (fun statement => nonGrowing_ask (.block (statement :: read))) called

theorem calls_table {name : String} {context : Context} {tokens : List Token} {call : Call}
    (member : call ∈ (table name context tokens).calls) :
    call = ⟨.instruction, tokens⟩ ∨ call.tokens.length < tokens.length := by
  obtain ⟨defines, called⟩ := exists_of_look (fun _ _ => rfl) member
  split at called
  · obtain ⟨start, called⟩ := exists_of_look (fun _ _ => rfl) called
    refine calls_of_ask .instruction shrinking_instruction (fun instruction => ?_) called
    split
    · exact (shrinking_refuse _).nonGrowing
    · exact nonGrowing_ask (.table _ _)
  · refine .inr (((shrinking_take rfl).bind fun _ => ?_).calls _ call called)
    refine (nonGrowing_ask (.block [])).bind fun body => (nonGrowing_take _).bind fun _ => ?_
    refine (nonGrowing_take _).bind fun _ => (nonGrowing_take _).bind fun _ => ?_
    exact nonGrowing_pure _

end Routine

/-! ## Termination -/

/-- The calls inside a call, each of them after the answers to those before it. -/
def Call.nested (call : Call) : List Call :=
  (call.task.routine call.tokens).calls

/-- A round of a loop begins with the task that is to be repeated. -/
inductive Task.Opens : Task → Task → Prop where
  | statement (read : List Statement) : Opens .statement (.block read)
  | instruction (name : String) (context : Context) : Opens .instruction (.table name context)

theorem Call.nested_descends {call nested : Call} (member : nested ∈ call.nested) :
    nested.tokens.length < call.tokens.length ∨
      nested.tokens = call.tokens ∧ nested.task.Opens call.task := by
  obtain ⟨task, tokens⟩ := call
  cases task with
  | statement => exact .inl (Routine.shrinking_statement.calls tokens nested member)
  | block read =>
      rcases Routine.calls_block member with rfl | shorter
      · exact .inr ⟨rfl, .statement read⟩
      · exact .inl shorter
  | instruction => exact .inl (Routine.shrinking_instruction.calls tokens nested member)
  | table name context =>
      rcases Routine.calls_table member with rfl | shorter
      · exact .inr ⟨rfl, .instruction name context⟩
      · exact .inl shorter
  | program => exact .inl (Routine.shrinking_program.calls tokens nested member)

/-- A round of a loop comes after what it repeats. -/
def Task.rank : Task → Nat
  | statement => 0
  | block _ => 1
  | instruction => 0
  | table _ _ => 1
  | program => 0

def Call.size (call : Call) : Nat :=
  2 * call.tokens.length + call.task.rank

theorem Task.rank_le (task : Task) : task.rank ≤ 1 := by
  cases task <;> simp [rank]

theorem Task.Opens.rank_lt {inner outer : Task} (opens : inner.Opens outer) :
    inner.rank < outer.rank := by
  cases opens <;> exact Nat.zero_lt_one

theorem Call.size_lt_of_nested {call nested : Call} (member : nested ∈ call.nested) :
    nested.size < call.size := by
  unfold size
  rcases nested_descends member with shorter | ⟨same, opens⟩
  · have rank := nested.task.rank_le
    omega
  · have rank := opens.rank_lt
    rw [same]
    omega

theorem Call.wellFounded_nested : WellFounded fun nested call : Call => nested ∈ call.nested :=
  Subrelation.wf (fun member => size_lt_of_nested member) (measure Call.size).wf

namespace Plan

theorem reaches_outcome {α : Type} {plan : Plan α} (keeps : plan.Keeps)
    (answered : ∀ call ∈ plan.calls,
      (call.task.routine call.tokens).Reaches (call.task.answer call.tokens)) :
    plan.Reaches plan.outcome := by
  induction plan with
  | ends outcome => exact .ends outcome
  | call task tokens next ih =>
      obtain ⟨first, later⟩ := List.forall_mem_cons.mp answered
      exact .call first (ih _ keeps later)
  | promise breach kept next ih =>
      obtain ⟨rfl, later⟩ := keeps
      exact .promise (ih later answered)

theorem Reaches.eq_outcome {α : Type} {plan : Plan α} {outcome : Outcome α}
    (reaches : plan.Reaches outcome) : outcome = plan.outcome := by
  induction reaches with
  | ends outcome => rfl
  | call _ _ inner later =>
      rw [Task.outcome_routine] at inner
      subst inner
      exact later
  | promise _ later => exact later

/-- A plan that comes to an end breaks no promise on the way. -/
theorem Reaches.not_breaks {α : Type} {plan : Plan α} {outcome : Outcome α}
    (reaches : plan.Reaches outcome) (breach : Breach) : ¬ plan.Breaks breach := by
  induction reaches with
  | ends outcome => exact nofun
  | call inner later innerKeeps laterKeeps =>
      intro breaks
      cases breaks with
      | inner broken => exact innerKeeps broken
      | later other broken =>
          rw [other.eq_outcome, ← inner.eq_outcome] at broken
          exact laterKeeps broken
  | promise later keeps =>
      intro breaks
      cases breaks with
      | promise broken => exact keeps broken

end Plan

/-- Every call comes to an end, with the outcome of the reader. -/
theorem Call.reaches_answer (call : Call) :
    (call.task.routine call.tokens).Reaches (call.task.answer call.tokens) := by
  induction call using wellFounded_nested.induction with
  | _ call ih =>
      have reaches := Plan.reaches_outcome (call.task.keeps_routine call.tokens) ih
      rwa [Task.outcome_routine] at reaches

/-- Every routine comes to an end on every stream, with one outcome, which is that of the reader,
and with its promises kept.  No chain of calls inside calls goes on without end: a call inside
another one has fewer tokens, unless it is the statement or the definition with which a round of a
loop begins.  So the next round of a loop has fewer tokens, and so has every block inside a
statement, be it a loop or a conditional.  No outcome leaves more tokens than there were, and every
statement and every definition takes at least one. -/
theorem descent_terminates :
    (∀ (task : Task) (tokens : List Token) (outcome : Outcome task.Value),
      (task.routine tokens).Reaches outcome ↔ outcome = task.answer tokens) ∧
    WellFounded (fun nested call : Call => nested ∈ call.nested) ∧
    (∀ call : Call, ∀ nested ∈ call.nested, nested.tokens.length < call.tokens.length ∨
      nested.tokens = call.tokens ∧ nested.task.Opens call.task) ∧
    (∀ routine ∈ [Routine.statement, Routine.loop, Routine.conditional, Routine.call],
      ∀ tokens, ∀ nested ∈ (routine tokens).calls, nested.tokens.length < tokens.length) ∧
    (∀ (task : Task) (tokens : List Token),
      (task.answer tokens).rest.length ≤ tokens.length) ∧
    (∀ tokens statement, (Reader.statement.run tokens).result = .ok statement →
      (Reader.statement.run tokens).rest.length < tokens.length) ∧
    ∀ tokens instruction, (Reader.instruction.run tokens).result = .ok instruction →
      (Reader.instruction.run tokens).rest.length < tokens.length := by
  refine ⟨fun task tokens outcome => ⟨fun reaches => ?_, ?_⟩, Call.wellFounded_nested,
    fun _ _ => Call.nested_descends, fun routine member => ?_, Task.length_rest_le,
    fun _ _ => length_rest_lt rfl, fun _ _ => length_rest_lt rfl⟩
  · exact reaches.eq_outcome.trans (task.outcome_routine tokens)
  · rintro rfl
    exact Call.reaches_answer ⟨task, tokens⟩
  · exact (Routine.shrinking_of_mem member).calls

/-- A definition, without an end marker behind it. -/
def branching : List Token :=
  ["INSTRUCTION", "go", "IS", "IF", "random", "THEN", "a", "ELSE", "b", "END", "IF", "END",
    "go"].map Token.unplaced

/-- The conditional in it calls for two blocks, and comes to an end where the stream breaks off, too. -/
theorem branching_terminates :
    Call.nested ⟨.statement, branching.drop 3⟩ =
        [⟨.block [], branching.drop 6⟩, ⟨.block [], branching.drop 8⟩] ∧
      (branching.drop 6).length < (branching.drop 3).length ∧
      (Routine.statement (branching.drop 3)).Reaches
        ⟨.ok (.ifThenElse .random [.call "a"] [.call "b"]), branching.drop 11⟩ ∧
      (Routine.statement ((branching.drop 3).take 4)).Reaches ⟨.error .endOfStream, []⟩ ∧
      (Reader.instruction.run branching).result =
        .ok ⟨"go", [.ifThenElse .random [.call "a"] [.call "b"]]⟩ ∧
      (Reader.instruction.run branching).rest.length < branching.length := by
  obtain ⟨reaches, _, _, blocks, _, _, instructions⟩ := descent_terminates
  have nested : Call.nested ⟨.statement, branching.drop 3⟩ =
      [⟨.block [], branching.drop 6⟩, ⟨.block [], branching.drop 8⟩] := by rfl
  have read : (Reader.instruction.run branching).result =
      .ok ⟨"go", [.ifThenElse .random [.call "a"] [.call "b"]]⟩ := by rfl
  have first : ⟨.block [], branching.drop 6⟩ ∈ Call.nested ⟨.statement, branching.drop 3⟩ := by
    rw [nested]
    exact List.mem_cons_self
  refine ⟨nested, blocks _ List.mem_cons_self _ _ first, ?_, ?_, read, instructions _ _ read⟩
  · exact (reaches .statement _ _).mpr (by rfl)
  · exact (reaches .statement _ _).mpr (by rfl)

end BLang.Descent
