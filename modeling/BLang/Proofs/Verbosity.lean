import BLang.Proofs.Sessions

/-!
# Verbosity

To be told more is not to be told otherwise.  With `--verbose` put in, arguments still ask for the
same task, since all that is taken from the flags that have been given, apart from their count, is
which of the others are among them.  A setting for the log reaches nothing but the log, and the log
stands before the errors.
-/

namespace BLang.Command

/-! ## Flags -/

namespace Given

theorem has_iff (given : Given) (flag : Flag) : given.has flag = true ↔ flag ∈ given.flags := by
  simp [has, List.any_eq_true]

theorem has_add (given : Given) (flag other : Flag) :
    (given.add flag).has other = (given.has other || decide (flag = other)) := by
  rw [Bool.eq_iff_iff, Bool.or_eq_true, decide_eq_true_iff, has_iff, has_iff]
  by_cases same : flag = other
  · simp [add, same]
  · simp [add, same, Ne.symm same]

/-- The same has been given, apart from `--verbose`. -/
structure Alike (given other : Given) : Prop where
  input : given.input = other.input
  has : ∀ flag, flag ≠ .verbose → given.has flag = other.has flag

namespace Alike

variable {given other : Given}

theorem refl (given : Given) : Alike given given :=
  ⟨rfl, fun _ _ => rfl⟩

theorem add (alike : Alike given other) (flag : Flag) : Alike (given.add flag) (other.add flag) where
  input := alike.input
  has := by
    intro wanted notVerbose
    rw [has_add, has_add, alike.has wanted notVerbose]

end Alike

/-- One more `--verbose` has been given. -/
def louder (given : Given) : Given :=
  { given.add .verbose with verbosity := given.verbosity + 1 }

theorem has_louder {flag : Flag} (notVerbose : flag ≠ .verbose) (given : Given) :
    given.louder.has flag = given.has flag := by
  have added := has_add given .verbose flag
  rw [decide_eq_false (Ne.symm notVerbose), Bool.or_false] at added
  exact added

theorem Alike.louder_right {given other : Given} (alike : Alike given other) :
    Alike given other.louder where
  input := alike.input
  has flag notVerbose := (alike.has flag notVerbose).trans (has_louder notVerbose other).symm

end Given

/-! ## What is asked for -/

/-- The task that is asked for, and whether it has to do without colours. -/
def Request.asked? : Request → Option (Task × Bool)
  | .perform invocation => some (invocation.task, invocation.noColor)
  | _ => none

/-- Two attempts to take an argument that go on with the same, or both ask for nothing. -/
inductive Abreast : Except Request Given → Except Request Given → Prop where
  | on {next other : Given} (alike : next.Alike other) : Abreast (.ok next) (.ok other)
  | off {request other : Request} (nothing : request.asked? = none)
      (otherNothing : other.asked? = none) : Abreast (.error request) (.error other)

namespace Given

theorem asked?_unknownLong (given : Given) (place : Place) (name : String) (rest : List String) :
    (given.unknownLong place name rest).asked? = none := by
  unfold unknownLong
  dsimp only
  split
  · rfl
  · split <;> rfl

namespace Alike

variable {given other : Given}

theorem takeFlag (alike : Alike given other) (place : Place) (flag : Flag) :
    Abreast (given.takeFlag place flag) (other.takeFlag place flag) := by
  have once (flag : Flag) (notVerbose : flag ≠ .verbose) :
      Abreast
        (if given.has flag then .error (.misuse (.repeated flag) place.usage true)
          else .ok (given.add flag))
        (if other.has flag then .error (.misuse (.repeated flag) place.usage true)
          else .ok (other.add flag)) := by
    rw [alike.has flag notVerbose]
    split
    · exact .off rfl rfl
    · exact .on (alike.add flag)
  cases flag with
  | help => exact .off rfl rfl
  | version => exact .off rfl rfl
  | verbose => exact .on ⟨alike.input, (alike.add .verbose).has⟩
  | statement => exact once .statement nofun
  | noColor => exact once .noColor nofun

theorem takeLong (alike : Alike given other) (place : Place) (rest otherRest : List String)
    (name : String) (value : Option String) :
    Abreast (given.takeLong place rest name value) (other.takeLong place otherRest name value) := by
  unfold Given.takeLong
  cases place.flagOfLong? name with
  | none => exact .off (given.asked?_unknownLong ..) (other.asked?_unknownLong ..)
  | some flag =>
      cases value with
      | some value => exact .off rfl rfl
      | none => exact alike.takeFlag place flag

theorem takeShort (alike : Alike given other) (place : Place) (letters : List Char) :
    Abreast (given.takeShort place letters) (other.takeShort place letters) := by
  induction letters generalizing given other with
  | nil => exact .on alike
  | cons letter rest ih =>
      unfold Given.takeShort
      cases place.flagOfShort? letter with
      | none => exact .off rfl rfl
      | some flag =>
          have step := alike.takeFlag place flag
          dsimp only
          generalize given.takeFlag place flag = first, other.takeFlag place flag = second at step ⊢
          cases step with
          | on next => exact ih next
          | off nothing otherNothing => exact .off nothing otherNothing

theorem takeInput (alike : Alike given other) (verb : Verb) (text : String) :
    Abreast (given.takeInput verb text) (other.takeInput verb text) := by
  unfold Given.takeInput
  rw [alike.input]
  cases other.input with
  | none => exact .on ⟨rfl, alike.has⟩
  | some input => exact .off rfl rfl

/-- A flag is taken alike, whatever comes after it. -/
theorem takeOption? (alike : Alike given other) (place : Place) (rest otherRest : List String)
    (argument : Argument) :
    (given.takeOption? place rest argument = none ∧
      other.takeOption? place otherRest argument = none) ∨
    ∃ first second, given.takeOption? place rest argument = some first ∧
      other.takeOption? place otherRest argument = some second ∧ Abreast first second := by
  cases argument with
  | long name value =>
      exact .inr ⟨_, _, rfl, rfl, alike.takeLong place rest otherRest name value⟩
  | short letters => exact .inr ⟨_, _, rfl, rfl, alike.takeShort place letters⟩
  | dashes => exact .inl ⟨rfl, rfl⟩
  | plain text => exact .inl ⟨rfl, rfl⟩

/-- Under a command what is no flag is the input, and that is taken alike as well. -/
theorem takeNext (alike : Alike given other) (verb : Verb) (rest otherRest : List String)
    (text : String) (argument : Argument) :
    Abreast
      ((given.takeOption? (.under verb) rest argument).getD (given.takeInput verb text))
      ((other.takeOption? (.under verb) otherRest argument).getD (other.takeInput verb text)) := by
  rcases alike.takeOption? (.under verb) rest otherRest argument with
    ⟨noFlag, otherNoFlag⟩ | ⟨first, second, taken, otherTaken, step⟩
  · rw [noFlag, otherNoFlag]
    exact alike.takeInput verb text
  · rw [taken, otherTaken]
    exact step

end Alike

end Given

/-! ## Arguments -/

def IsVerbose (text : String) : Prop :=
  text = "-v" ∨ text = "--verbose"

/-- The second arguments are the first with `--verbose` put in, though not behind `--`; the truth
value tells whether `--` has been passed. -/
inductive Louder : Bool → List String → List String → Prop where
  | nil (plain : Bool) : Louder plain [] []
  | verbose {flag : String} {arguments louder : List String} (spelled : IsVerbose flag)
      (later : Louder false arguments louder) : Louder false arguments (flag :: louder)
  | cons {plain : Bool} {text : String} {arguments louder : List String}
      (later : Louder (plain || decide (text = "--")) arguments louder) :
      Louder plain (text :: arguments) (text :: louder)

theorem Argument.ofText_eq_dashes_iff (text : String) :
    Argument.ofText text = .dashes ↔ text = "--" := by
  rw [← String.toList_inj, show "--".toList = ['-', '-'] from rfl]
  unfold Argument.ofText
  split
  next dashes => exact iff_of_true rfl dashes
  next more long =>
    refine iff_of_false nofun fun same => more ?_
    cases long.symm.trans same
    rfl
  next more short =>
    refine iff_of_false nofun fun same => more ?_
    cases short.symm.trans same
    rfl
  next other => exact iff_of_false nofun fun same => other '-' [] same

/-- Whether `--` has been passed when an argument has been read. -/
theorem passed_eq (plain : Bool) (text : String) :
    (plain || decide (text = "--")) =
      (plain || decide ((if plain then .plain text else Argument.ofText text) = .dashes)) := by
  cases plain with
  | true => rfl
  | false =>
      rw [Bool.false_or, Bool.false_or, if_neg Bool.false_ne_true]
      exact decide_eq_decide.mpr (Argument.ofText_eq_dashes_iff text).symm

theorem asked?_concluded {top otherTop given other : Given} (tops : top.Alike otherTop)
    (alike : given.Alike other) (verb : Verb) :
    (concluded top verb given).asked? = (concluded otherTop verb other).asked? := by
  have same : taskOf verb given = taskOf verb other := by
    unfold taskOf
    rw [alike.input, alike.has .statement nofun]
  unfold concluded
  rw [same]
  cases taskOf verb other with
  | error fault => rfl
  | ok task =>
      dsimp only [Request.asked?]
      rw [tops.has .noColor nofun, alike.has .noColor nofun]

theorem readUnder_verbose {flag : String} (spelled : IsVerbose flag) (top : Given) (verb : Verb)
    (given : Given) (rest : List String) :
    readUnder top verb given false (flag :: rest) = readUnder top verb given.louder false rest := by
  rcases spelled with rfl | rfl <;> cases verb <;> rfl

theorem readTop_verbose {flag : String} (spelled : IsVerbose flag) (given : Given)
    (rest : List String) :
    readTop given false (flag :: rest) = readTop given.louder false rest := by
  rcases spelled with rfl | rfl <;> rfl

/-- Only what has been given decides on the task, and a flag that is put in keeps that alike. -/
theorem asked?_readUnder {plain : Bool} {arguments louder : List String}
    (more : Louder plain arguments louder) {top otherTop given other : Given}
    (tops : top.Alike otherTop) (alike : given.Alike other) (verb : Verb) :
    (readUnder top verb given plain arguments).asked? =
      (readUnder otherTop verb other plain louder).asked? := by
  induction more generalizing given other with
  | nil plain => exact asked?_concluded tops alike verb
  | verbose spelled later ih =>
      rw [readUnder_verbose spelled]
      exact ih alike.louder_right
  | @cons plain text arguments louder later ih =>
      rw [passed_eq] at ih
      unfold readUnder
      dsimp only
      generalize (if plain then .plain text else Argument.ofText text) = argument at ih ⊢
      split
      next dashes =>
        rw [decide_eq_true dashes, Bool.or_true] at ih
        exact ih alike
      next noDashes =>
        rw [decide_eq_false noDashes, Bool.or_false] at ih
        have step := alike.takeNext verb arguments louder text argument
        generalize
          (Given.takeOption? _ (.under verb) arguments argument).getD _ = first,
          (Given.takeOption? _ (.under verb) louder argument).getD _ = second at step ⊢
        cases step with
        | on next => exact ih next
        | off nothing otherNothing => exact nothing.trans otherNothing.symm

theorem asked?_readHelp (arguments : List String) : (readHelp arguments).asked? = none := by
  cases arguments with
  | nil => rfl
  | cons name rest =>
      unfold readHelp
      dsimp only
      cases Verb.ofName? name with
      | some verb => cases rest <;> rfl
      | none =>
          dsimp only
          split
          · cases rest <;> rfl
          · rfl

theorem asked?_readTop {plain : Bool} {arguments louder : List String}
    (more : Louder plain arguments louder) {given other : Given} (alike : given.Alike other) :
    (readTop given plain arguments).asked? = (readTop other plain louder).asked? := by
  induction more generalizing given other with
  | nil plain =>
      unfold readTop
      split <;> split <;> rfl
  | verbose spelled later ih =>
      rw [readTop_verbose spelled]
      exact ih alike.louder_right
  | @cons plain text arguments louder later ih =>
      rw [passed_eq] at ih later
      unfold readTop
      dsimp only
      generalize (if plain then .plain text else Argument.ofText text) = argument at ih later ⊢
      split
      next dashes =>
        rw [decide_eq_true dashes, Bool.or_true] at ih
        exact ih alike
      next noDashes =>
        rw [decide_eq_false noDashes, Bool.or_false] at ih later
        rcases alike.takeOption? .top arguments louder argument with
          ⟨noFlag, otherNoFlag⟩ | ⟨first, second, taken, otherTaken, step⟩
        · rw [noFlag, otherNoFlag]
          dsimp only
          split
          -- behind `--` no command is taken
          · split <;> rfl
          next running =>
            rw [Bool.not_eq_true] at running
            rw [running] at later
            split
            next verb named => exact asked?_readUnder later alike (.refl _) verb
            next unnamed =>
              split
              · rw [asked?_readHelp, asked?_readHelp]
              · rfl
        · rw [taken, otherTaken]
          cases step with
          | on next => exact ih next
          | off nothing otherNothing => exact nothing.trans otherNothing.symm

/-- Whoever puts in `--verbose` asks for the same. -/
theorem asked?_readArguments {arguments louder : List String}
    (more : Louder false arguments louder) :
    (readArguments arguments).asked? = (readArguments louder).asked? :=
  asked?_readTop more (.refl _)

/-! ## Settings -/

/-- The world with another setting for the log, at other times. -/
def World.logging (world : World) (setting : Option String) (clock : Clock) : World :=
  { world with
    setting := fun name => if name = "RUST_LOG" then setting else world.setting name
    clock := clock }

section Logging

variable (world : World) (setting : Option String) (clock : Clock)

theorem emitterFor_logging (noColor : Bool) :
    emitterFor (world.logging setting clock) noColor = emitterFor world noColor :=
  rfl

theorem logColors_logging : logColors (world.logging setting clock) = logColors world :=
  rfl

theorem runTask_logging (emitter : Emitter) (task : Task) :
    runTask (world.logging setting clock) emitter task = runTask world emitter task :=
  rfl

end Logging

/-- The second output is the first with the lines of some entries before its errors: of some of the
events that happened, in their order, each with its own time. -/
def Logged (colors : Bool) (clock : Clock) (happened : List Record) (quiet loud : Output) : Prop :=
  ∃ entries : List Entry,
    (entries.map Entry.moment).Sublist ((clock.entries 0 happened).map Entry.moment) ∧
      (∀ line ∈ entries.map (Entry.line colors), IsLine line) ∧
      loud = ⟨quiet.out, String.join (entries.map (Entry.line colors)) ++ quiet.err, quiet.code⟩

theorem logged_perform (world : World) (setting : Option String) (clock quietClock : Clock)
    (task : Task) (noColor : Bool) (count : Nat) :
    Logged (logColors world) clock (runTask world (emitterFor world noColor) task).records
      (perform (world.logging none quietClock) ⟨task, noColor, 0⟩)
      (perform (world.logging setting clock) ⟨task, noColor, count⟩) := by
  rw [perform_unlogged rfl]
  simp only [perform, logText, logColors_logging, emitterFor_logging, runTask_logging]
  refine ⟨_, ?_, ?_, rfl⟩
  · rw [LogFilter.map_moment_logged?]
    exact List.filter_sublist.map Entry.moment
  · exact List.forall_mem_map.mpr fun entry _ => entry.isLine (logColors world)

/-- Logging does not change results.  A session, which logs while it reads, prints and exits as its
command does.  Arguments with `--verbose` put in wherever flags are read ask for the same, or both
ask for nothing.  And whatever else the world is like, however the arguments ask for a task, with any
count and any setting for the log, the output is what it is with neither, with lines of what happened
before the errors. -/
theorem logging_changes_no_result :
    (∀ (world : World) (invocation : Invocation),
      (session world invocation).output = perform world invocation) ∧
    (∀ arguments louder : List String, Louder false arguments louder →
      (readArguments arguments).asked? = (readArguments louder).asked?) ∧
    ∀ (world : World) (setting : Option String) (clock quietClock : Clock) (task : Task)
      (noColor : Bool) (count : Nat) (quiet loud : List String),
      readArguments quiet = .perform ⟨task, noColor, 0⟩ →
      readArguments loud = .perform ⟨task, noColor, count⟩ →
        Logged (logColors world) clock (runTask world (emitterFor world noColor) task).records
          (run (world.logging none quietClock) quiet) (run (world.logging setting clock) loud) := by
  refine ⟨output_session, fun _ _ => asked?_readArguments, ?_⟩
  intro world setting clock quietClock task noColor count quiet loud quietly loudly
  simp only [run, quietly, loudly]
  exact logged_perform world setting clock quietClock task noColor count

/-- The file that breaks off, where the log has no colours. -/
def brokenOffInPrint : World :=
  { brokenOff with setting := fun name => if name = "NO_COLOR" then some "1" else none }

/-- A minute passes from one event to the next. -/
def minutes : Clock :=
  ⟨fun number => "12:0" ++ Nat.repr number⟩

def brokenOffLog : String :=
  "12:00 DEBUG bl_driver: reading source path=a.bl\n" ++
    "12:01 TRACE parse_program\x7btoken_count=6\x7d: bl_syntax::parser::stmt: " ++
    "parsed statement index=0\n"

/-- A check that fails behind the first statement, with everything logged. -/
theorem brokenOff_logged :
    Louder false ["check", "a.bl"] ["-v", "check", "a.bl", "--verbose"] ∧
      (readArguments ["-v", "check", "a.bl", "--verbose"]).asked? =
        some (.check "a.bl", false) ∧
      (session (brokenOffInPrint.logging (some "trace") minutes) ⟨.check "a.bl", false, 1⟩).output =
        run (brokenOffInPrint.logging (some "trace") minutes) ["-v", "check", "a.bl"] ∧
      Logged false minutes
        (runTask brokenOffInPrint (emitterFor brokenOffInPrint false) (.check "a.bl")).records
        (run (brokenOffInPrint.logging none "") ["check", "a.bl"])
        (run (brokenOffInPrint.logging (some "trace") minutes) ["-v", "check", "a.bl"]) ∧
      (run (brokenOffInPrint.logging (some "trace") minutes) ["-v", "check", "a.bl"]).err =
        brokenOffLog ++ (run (brokenOffInPrint.logging none "") ["check", "a.bl"]).err := by
  have more : Louder false ["check", "a.bl"] ["-v", "check", "a.bl", "--verbose"] :=
    .verbose (.inl rfl) (.cons (.cons (.verbose (.inr rfl) (.nil false))))
  obtain ⟨sessions, sameTask, logged⟩ := logging_changes_no_result
  refine ⟨more, (sameTask _ _ more).symm, sessions _ _, ?_, ?_⟩
  · exact logged brokenOffInPrint (some "trace") minutes "" (.check "a.bl") false 1 _ _ rfl rfl
  · have log : logText (filterFor (brokenOffInPrint.logging (some "trace") minutes) 1) false
        (minutes.entries 0 (runTask brokenOffInPrint (emitterFor brokenOffInPrint false)
          (.check "a.bl")).records) = brokenOffLog := by decide +kernel
    have quiet : run (brokenOffInPrint.logging none "") ["check", "a.bl"] =
        perform (brokenOffInPrint.logging none "") ⟨.check "a.bl", false, 0⟩ := rfl
    rw [quiet, perform_unlogged rfl, ← log]
    rfl

end BLang.Command
