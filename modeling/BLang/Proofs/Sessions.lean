import BLang.Proofs.Commands
import BLang.Proofs.Promises

/-!
# Sessions

A session is a command as it goes on: it prints, notes an event when it happens and with the time at
which it happens, and exits where something fails.  A reader that notes events reads what it reads
without, on every way its run can end.  Nothing is noted once a source has been read, so the lines
of the log stand before the errors, and a session writes what running its command gives.
-/

namespace BLang

open Text

/-! ## Readers that tell -/

namespace Reader

variable {σ α : Type} {m : Type → Type} [Monad m]

/-- A run that tells of every event when it happens. -/
def tellingFrom (reader : Reader σ α) (tell : Event → m Unit) :
    σ → List Token → m (Outcome α)
  | _, [] => pure ⟨.error .endOfStream, []⟩
  | state, token :: rest =>
      match reader.step state token with
      | .on next events => do
          forM events tell
          tellingFrom reader tell next rest
      | .done value events => do
          forM events tell
          pure ⟨.ok value, if reader.leavesLast then token :: rest else rest⟩
      | .refuse error consumed events => do
          forM events tell
          pure ⟨.error error, if consumed then rest else token :: rest⟩

def telling (reader : Reader σ α) (tell : Event → m Unit) (tokens : List Token) :
    m (Outcome α) :=
  reader.tellingFrom tell reader.start tokens

variable [LawfulMonad m] (reader : Reader σ α) (tell : Event → m Unit)

/-- The events are told in their order, and the outcome is that of reading without telling. -/
theorem tellingFrom_eq (state : σ) (tokens : List Token) :
    reader.tellingFrom tell state tokens =
      (forM (reader.eventsFrom state tokens) tell >>= fun _ =>
        pure (reader.runFrom state tokens)) := by
  induction tokens generalizing state with
  | nil => rw [tellingFrom, eventsFrom, runFrom, List.forM_nil, pure_bind]
  | cons token rest ih =>
      rw [tellingFrom, eventsFrom, runFrom]
      cases reader.step state token with
      | on next events =>
          dsimp only
          rw [ih next, List.forM_append, bind_assoc]
      | done value events => rfl
      | refuse error consumed events => rfl

theorem telling_eq (tokens : List Token) :
    reader.telling tell tokens =
      (forM (reader.events tokens) tell >>= fun _ => pure (reader.run tokens)) :=
  tellingFrom_eq reader tell reader.start tokens

end Reader

/-! ## Sources -/

namespace Source

variable {σ α β : Type} {m : Type → Type} [Monad m]

/-- Reads the tokens of a source and notes what happens, with what the records say of the tokens. -/
def noting (reader : Reader σ α) (value : Outcome α → Except ParseError β)
    (scope : List Token → Option Nat) (note : Record → m Unit) (source : String) :
    m (Except CompileError β) :=
  match tokens source with
  | .error error => pure (.error error)
  | .ok tokens => do
      let outcome ← reader.telling (fun event => note ⟨scope tokens, event⟩) tokens
      pure ((value outcome).mapError .syntactic)

/-- The records that are noted. -/
def noted (reader : Reader σ α) (scope : List Token → Option Nat) (source : String) :
    List Record :=
  match tokens source with
  | .error _ => []
  | .ok tokens => (reader.events tokens).map fun event => ⟨scope tokens, event⟩

/-- Noting does not change the value. -/
theorem noting_eq [LawfulMonad m] (reader : Reader σ α) (value : Outcome α → Except ParseError β)
    (scope : List Token → Option Nat) (note : Record → m Unit) (source : String) :
    noting reader value scope note source =
      (forM (noted reader scope source) note >>= fun _ =>
        pure (tokens source >>= fun tokens =>
          (value (reader.run tokens)).mapError .syntactic)) := by
  rw [noting, noted]
  cases tokens source with
  | error error =>
      dsimp only
      rw [List.forM_nil, pure_bind]
      rfl
  | ok tokens =>
      dsimp only
      rw [Reader.telling_eq, bind_assoc, List.forM_map]
      simp only [pure_bind]
      rfl

def notingProgram : (Record → m Unit) → String → m (Except CompileError Program) :=
  noting .program Outcome.result fun tokens => some tokens.length

def notingStatement : (Record → m Unit) → String → m (Except CompileError Statement) :=
  noting .statement lastValue fun _ => none

variable [LawfulMonad m] (note : Record → m Unit) (source : String)

theorem notingProgram_eq :
    notingProgram note source =
      (forM (programRecords source) note >>= fun _ => pure (program source)) :=
  noting_eq _ _ _ note source

theorem notingStatement_eq :
    notingStatement note source =
      (forM (statementRecords source) note >>= fun _ => pure (statement source)) :=
  noting_eq _ _ _ note source

end Source

namespace Command

/-! ## Sessions -/

/-- What is written in a session, with the number of its events and the value it goes on with or the
status it exits with.  What is written to standard error bears the times of the events, so it depends
on the number of those before the session. -/
structure Session (α : Type) where
  out : String
  err : Nat → String
  events : Nat
  result : Except Nat α

namespace Session

variable {α β : Type}

instance : Monad Session where
  pure value := ⟨"", fun _ => "", 0, .ok value⟩
  bind first next :=
    match first.result with
    | .ok value =>
        ⟨first.out ++ (next value).out,
          fun before => first.err before ++ (next value).err (before + first.events),
          first.events + (next value).events, (next value).result⟩
    | .error code => ⟨first.out, first.err, first.events, .error code⟩

theorem pure_eq (value : α) : (pure value : Session α) = ⟨"", fun _ => "", 0, .ok value⟩ :=
  rfl

theorem bind_ok (out : String) (err : Nat → String) (events : Nat) (value : α)
    (next : α → Session β) :
    (⟨out, err, events, .ok value⟩ : Session α) >>= next =
      ⟨out ++ (next value).out, fun before => err before ++ (next value).err (before + events),
        events + (next value).events, (next value).result⟩ :=
  rfl

theorem bind_error (out : String) (err : Nat → String) (events code : Nat) (next : α → Session β) :
    (⟨out, err, events, .error code⟩ : Session α) >>= next = ⟨out, err, events, .error code⟩ :=
  rfl

instance : LawfulMonad Session := LawfulMonad.mk' Session
  (by
    rintro α ⟨out, err, events, _ | value⟩
    · rfl
    · change (⟨out ++ "", fun before => err before ++ "", events, .ok value⟩ : Session α) = _
      simp only [String.append_empty])
  (by
    intro α β value next
    simp only [pure_eq, bind_ok, String.empty_append, Nat.add_zero, Nat.zero_add])
  (by
    rintro α β γ ⟨out, err, events, _ | value⟩ next last
    · rfl
    · rw [bind_ok, bind_ok]
      rcases next value with ⟨more, wrong, others, _ | other⟩
      · rfl
      · simp only [bind_ok, String.append_assoc, Nat.add_assoc])

/-- The output of a session that is over, of which the events are the first. -/
def output (session : Session Unit) : Output :=
  ⟨session.out, session.err 0,
    match session.result with
    | .ok _ => 0
    | .error code => code⟩

def say (text : String) : Session Unit :=
  ⟨text, fun _ => "", 0, .ok ()⟩

def complain (text : String) : Session Unit :=
  ⟨"", fun _ => text, 0, .ok ()⟩

def exit (code : Nat) : Session α :=
  ⟨"", fun _ => "", 0, .error code⟩

theorem say_bind (text : String) (session : Session α) :
    (say text >>= fun _ => session) = { session with out := text ++ session.out } := by
  simp only [say, bind_ok, String.empty_append, Nat.add_zero, Nat.zero_add]

theorem complain_bind (text : String) (session : Session α) :
    (complain text >>= fun _ => session) =
      { session with err := fun before => text ++ session.err before } := by
  simp only [complain, bind_ok, String.empty_append, Nat.add_zero, Nat.zero_add]

theorem forM_say (texts : List String) : forM texts say = say (String.join texts) := by
  induction texts with
  | nil => rfl
  | cons text rest ih =>
      rw [List.forM_cons, ih, String.join_cons]
      rfl

end Session

open Session

section Sessions

variable (world : World) (emitter : Emitter) (count : Nat)

/-- The log of the records of which the first is that of the event with the number, for a count of
`--verbose`. -/
def logOf (number : Nat) (records : List Record) : String :=
  logText (filterFor world count) (logColors world) (world.clock.entries number records)

/-- Writes the lines of records when their events happen, as far as they are wanted. -/
def noteAll (records : List Record) : Session Unit :=
  ⟨"", fun before => logOf world count before records, records.length, .ok ()⟩

def note (record : Record) : Session Unit :=
  noteAll world count [record]

def fail {α : Type} (input : String) (source : Option String) (error : CompileError) :
    Session α := do
  complain (failure emitter input source error)
  exit 1

def loadOrExit (input : String) : Session String := do
  note world count ⟨none, .readingSource input⟩
  match Source.load world.files input with
  | .ok source => pure source
  | .error error => fail emitter input none error

def formattedSession (statement : Bool) (source : String) :
    Session (Except CompileError String) :=
  if statement then
    Except.map (fun value => value.text 0) <$> Source.notingStatement (note world count) source
  else Except.map Program.text <$> Source.notingProgram (note world count) source

def parseSession (statement : Bool) (input : String) : Session Unit := do
  say (parseBanner input)
  let source ← loadOrExit world emitter count input
  match ← formattedSession world count statement source with
  | .ok text =>
      say (title emitter .green "✅ 格式化输出:" ++ "\n")
      say text
  | .error error => fail emitter input (some source) error

def checkSession (input : String) : Session Unit := do
  say (checkBanner input)
  let source ← loadOrExit world emitter count input
  match ← Except.map Program.summary <$> Source.notingProgram (note world count) source with
  | .ok summary => say (summaryLine emitter summary)
  | .error error =>
      complain (faultTitle emitter)
      fail emitter input (some source) error

def tokensSession (input : String) : Session Unit := do
  let source ← loadOrExit world emitter count input
  match Source.tokens source with
  | .ok tokens => forM tokens fun token => say (tokenLine token)
  | .error error => fail emitter input (some source) error

/-- Asks for the name of the file and parses it. -/
def promptedSession (statement : Bool) : Session Unit := do
  say (prompt statement)
  match typedName world.input with
  | .ok input => parseSession world emitter count statement input
  | .error error =>
      complain ("Error: " ++ error.message ++ "\n")
      exit 1

def taskSession : Task → Session Unit
  | .parse (some input) statement => parseSession world emitter count statement input
  | .parse none statement => promptedSession world emitter count statement
  | .check input => checkSession world emitter count input
  | .tokens input => tokensSession world emitter count input

/-- A session that ends with an effect and has logged its records before its errors. -/
def Effect.session (effect : Effect) : Session Unit :=
  ⟨effect.out, fun before => logOf world count before effect.records ++ effect.err,
    effect.records.length, if effect.code = 0 then .ok () else .error effect.code⟩

theorem logOf_cons (number : Nat) (record : Record) (records : List Record) :
    logOf world count number (record :: records) =
      logOf world count number [record] ++ logOf world count (number + 1) records := by
  unfold logOf
  rw [← logText_append]
  rfl

theorem noteAll_bind {α : Type} (records : List Record) (session : Session α) :
    (noteAll world count records >>= fun _ => session) =
      { session with
        err := fun before => logOf world count before records ++
          session.err (before + records.length)
        events := records.length + session.events } := by
  simp only [noteAll, bind_ok, String.empty_append]

theorem forM_note (records : List Record) :
    forM records (note world count) = noteAll world count records := by
  induction records with
  | nil => rfl
  | cons record rest ih =>
      rw [List.forM_cons, ih, note, noteAll_bind]
      simp only [noteAll, ← logOf_cons, List.length_cons, List.length_nil, Nat.zero_add,
        Nat.add_comm 1]

theorem formattedSession_eq (statement : Bool) (source : String) :
    formattedSession world count statement source =
      (noteAll world count (recordsOf statement source) >>= fun _ =>
        pure (formatted statement source)) := by
  unfold formattedSession formatted recordsOf
  split
  · rw [Source.notingStatement_eq, forM_note, map_bind, map_pure]
  · rw [Source.notingProgram_eq, forM_note, map_bind, map_pure]

variable {world emitter count}

theorem fail_eq {α : Type} (input : String) (source : Option String) (error : CompileError) :
    fail emitter input source error =
      (⟨"", fun _ => failure emitter input source error, 0, .error 1⟩ : Session α) := by
  rw [fail, complain_bind]
  simp only [exit, String.append_empty]

/-- Loading and working go together: the event of loading comes first, and what cannot be loaded
ends the session after its banner. -/
theorem session_withSource {banner input : String} {process : String → Session Unit}
    {work : String → Effect}
    (same : ∀ source, process source = (work source).session world count) :
    (say banner >>= fun _ => loadOrExit world emitter count input >>= process) =
      (withSource world emitter banner input work).session world count := by
  rw [say_bind, loadOrExit, note, bind_assoc, noteAll_bind]
  cases loaded : Source.load world.files input with
  | error error =>
      dsimp only
      rw [withSource_of_error loaded, fail_eq, bind_error, String.append_empty]
      rfl
  | ok source =>
      dsimp only
      rw [withSource_of_ok loaded, pure_bind, same]
      simp only [Effect.session, logOf_cons world count _ _ (work source).records,
        String.append_assoc, List.length_cons, List.length_nil, Nat.zero_add, Nat.add_comm 1]

theorem parseSession_eq (statement : Bool) (input : String) :
    parseSession world emitter count statement input =
      (runParse world emitter statement input).session world count := by
  apply session_withSource
  intro source
  rw [formattedSession_eq, bind_assoc, noteAll_bind, pure_bind]
  cases formatted statement source with
  | ok text =>
      dsimp only
      rw [say_bind]
      rfl
  | error error =>
      dsimp only
      rw [fail_eq]
      rfl

theorem checkSession_eq (input : String) :
    checkSession world emitter count input =
      (runCheck world emitter input).session world count := by
  apply session_withSource
  intro source
  rw [Source.notingProgram_eq, forM_note, map_bind, bind_assoc, noteAll_bind, map_pure, pure_bind,
    Source.summary]
  cases Source.program source with
  | ok program => rfl
  | error error =>
      simp only [Except.map]
      rw [complain_bind, fail_eq, title_red_eq_faultTitle]
      rfl

theorem tokensSession_eq (input : String) :
    tokensSession world emitter count input =
      (runTokens world emitter input).session world count := by
  -- there is no banner, so nothing is said before the source is loaded
  have started := pure_bind (m := Session) () fun _ => tokensSession world emitter count input
  rw [← started]
  apply session_withSource
  intro source
  cases Source.tokens source with
  | ok tokens =>
      dsimp only
      rw [← List.forM_map, forM_say]
      rfl
  | error error =>
      dsimp only
      rw [fail_eq]
      rfl

theorem promptedSession_eq (statement : Bool) :
    promptedSession world emitter count statement =
      (runPrompted world emitter statement).session world count := by
  rw [promptedSession, say_bind, runPrompted]
  cases typedName world.input with
  | error error =>
      simp only [complain_bind, exit, String.append_empty]
      rfl
  | ok input =>
      dsimp only
      rw [parseSession_eq]
      rfl

theorem taskSession_eq (task : Task) :
    taskSession world emitter count task =
      (runTask world emitter task).session world count := by
  cases task with
  | parse input statement =>
      cases input with
      | none => exact promptedSession_eq statement
      | some input => exact parseSession_eq statement input
  | check input => exact checkSession_eq input
  | tokens input => exact tokensSession_eq input

theorem Effect.output_session (effect : Effect) :
    (effect.session world count).output =
      ⟨effect.out, logOf world count 0 effect.records ++ effect.err, effect.code⟩ := by
  rcases effect with ⟨records, out, err, code⟩
  cases code with
  | zero => rfl
  | succ code => rfl

end Sessions

/-- A command as it goes on. -/
def session (world : World) (invocation : Invocation) : Session Unit :=
  taskSession world (emitterFor world invocation.noColor) invocation.verbosity invocation.task

/-- A session writes what running its command gives, and exits so. -/
theorem output_session (world : World) (invocation : Invocation) :
    (session world invocation).output = perform world invocation := by
  rw [session, taskSession_eq, Effect.output_session]
  rfl

end Command

end BLang
