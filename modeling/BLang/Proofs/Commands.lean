import BLang.Command.Run
import BLang.Proofs.ErrorPlaces

/-!
# Three commands on one file

To parse a file, to check it and to list its tokens is to load it, to scan it and, for the first
two, to read it as a program.  The first step that fails is the same for all commands that take it,
and so is what they say about it.  What a command prints about its result it prints when everything
has succeeded.
-/

namespace BLang

open Text

/-! ## Logs -/

theorem Text.painted_append (colors : Bool) (left right : List Piece) :
    painted colors (left ++ right) = painted colors left ++ painted colors right := by
  unfold painted
  rw [List.flatMap_append, String.ofList_append]

theorem Text.painted_ne_empty {colors : Bool} {pieces : List Piece} {piece : Piece}
    (member : piece ∈ pieces) (filled : piece.chars colors ≠ []) : painted colors pieces ≠ "" := by
  rw [painted, Ne, String.ofList_eq_empty_iff, List.flatMap_eq_nil_iff]
  exact fun empty => filled (empty piece member)

/-- A text that is not empty, with a newline after it. -/
def IsLine (text : String) : Prop :=
  ∃ front, front ≠ "" ∧ text = front ++ "\n"

theorem Entry.isLine (colors : Bool) (entry : Entry) : IsLine (entry.line colors) := by
  have blank : (bare " ").chars colors ≠ [] := nofun
  unfold line pieces
  rw [painted_append]
  refine ⟨_, painted_ne_empty ?_ blank, rfl⟩
  simp

theorem logText_append (filter : LogFilter) (colors : Bool) (before after : List Entry) :
    logText filter colors (before ++ after) =
      logText filter colors before ++ logText filter colors after := by
  rw [logText, List.filterMap_append, List.map_append, String.join_append]
  rfl

/-- When an event happened, and which. -/
def Entry.moment (entry : Entry) : String × Event :=
  (entry.time, entry.record.event)

namespace LogFilter

/-- Of an entry that is kept the event and its time are as they were. -/
theorem map_moment_logged? (filter : LogFilter) (entries : List Entry) :
    (entries.filterMap filter.logged?).map Entry.moment =
      (entries.filter fun entry => filter.shows entry.record.event).map Entry.moment := by
  induction entries with
  | nil => rfl
  | cons entry rest ih =>
      rw [List.filterMap_cons, logged?, kept?, List.filter_cons]
      cases filter.shows entry.record.event with
      | true => exact congrArg (entry.moment :: ·) ih
      | false => exact ih

theorem detailFor_upTo (detail : Nat) (part : String) : (upTo detail).detailFor part = detail := by
  simp [detailFor, upTo, choose, LogRule.forAll, LogRule.covers]

/-- Warnings are never recorded, so a filter for them keeps nothing. -/
theorem logged?_upTo_warnDetail (entry : Entry) : (upTo warnDetail).logged? entry = none := by
  have hidden : (upTo warnDetail).shows entry.record.event = false := by
    rw [shows, detailFor_upTo]
    cases entry.record.event.level <;> rfl
  rw [logged?, kept?, hidden, if_neg Bool.false_ne_true]
  rfl

end LogFilter

theorem logText_upTo_warnDetail (colors : Bool) (entries : List Entry) :
    logText (.upTo warnDetail) colors entries = "" := by
  rw [logText, List.filterMap_eq_nil_iff.mpr fun entry _ =>
    LogFilter.logged?_upTo_warnDetail entry]
  rfl

/-! ## Loading -/

theorem Text.fromUTF8?_eq_some_iff (bytes : ByteArray) (text : String) :
    String.fromUTF8? bytes = some text ↔ bytes = text.toUTF8 := by
  unfold String.fromUTF8?
  constructor
  · intro decoded
    split at decoded
    · cases decoded
      rfl
    · cases decoded
  · rintro rfl
    exact dif_pos text.isValidUTF8

/-- A source is loaded from exactly the files that hold its UTF-8 form. -/
theorem Source.load_eq_ok_iff (files : FileAccess) (path source : String) :
    Source.load files path = .ok source ↔ files path = .ok source.toUTF8 := by
  unfold Source.load
  cases files path with
  | error error => exact iff_of_false nofun nofun
  | ok bytes =>
      change (decodeText bytes).mapError CompileError.unreadable = .ok source ↔ _
      rw [Except.ok.injEq, ← fromUTF8?_eq_some_iff, decodeText]
      cases String.fromUTF8? bytes with
      | none => exact iff_of_false nofun nofun
      | some text => exact (Except.ok.injEq text source).to_iff.trans (Option.some_inj).symm

namespace Command

/-! ## How the commands end -/

/-- The output of an effect when nothing is logged. -/
def Effect.output (effect : Effect) : Output :=
  ⟨effect.out, effect.err, effect.code⟩

/-- Without `--verbose` and without a setting for the log nothing is logged. -/
theorem perform_unlogged {world : World} (unset : world.setting "RUST_LOG" = none) (task : Task)
    (noColor : Bool) :
    perform world ⟨task, noColor, 0⟩ = (runTask world (emitterFor world noColor) task).output := by
  have filter : filterFor world 0 = .upTo warnDetail := by
    rw [filterFor, unset]
    rfl
  simp only [perform, filter, logText_upTo_warnDetail, String.empty_append]
  rfl

section Endings

variable {world : World} {emitter : Emitter} {banner input source : String}
  {work : String → Effect}

theorem withSource_of_error {error : CompileError}
    (failed : Source.load world.files input = .error error) :
    withSource world emitter banner input work =
      ⟨[⟨none, .readingSource input⟩], banner, failure emitter input none error, 1⟩ := by
  rw [withSource, failed]

theorem withSource_of_ok (loaded : Source.load world.files input = .ok source) :
    withSource world emitter banner input work =
      ⟨⟨none, .readingSource input⟩ :: (work source).records, banner ++ (work source).out,
        (work source).err, (work source).code⟩ := by
  rw [withSource, loaded]

/-- The line with which parsing a file begins. -/
def parseBanner (input : String) : String :=
  "📖 解析 " ++ input ++ " ...\n"

/-- The line with which checking a file begins. -/
def checkBanner (input : String) : String :=
  "🔍 检查 " ++ input ++ " ...\n"

/-- The line before the fault that a check finds in a source, in red on a display with colours. -/
def faultTitle (emitter : Emitter) : String :=
  if emitter.display then "\x1b[31m❌ 发现错误:\x1b[0m\n" else "❌ 发现错误:\n"

theorem title_red_eq_faultTitle (emitter : Emitter) :
    title emitter .red "❌ 发现错误:" ++ "\n" = faultTitle emitter := by
  unfold title faultTitle
  cases emitter.display with
  | true => rfl
  | false => rfl

/-- The outputs with which parsing a file, checking it and listing its tokens end together. -/
inductive Endings (world : World) (emitter : Emitter) (input : String) :
    Output → Output → Output → Prop where
  | unreadable {error : CompileError} (failed : Source.load world.files input = .error error) :
      Endings world emitter input
        ⟨parseBanner input, failure emitter input none error, 1⟩
        ⟨checkBanner input, failure emitter input none error, 1⟩
        ⟨"", failure emitter input none error, 1⟩
  | lexical {source : String} {error : CompileError}
      (loaded : Source.load world.files input = .ok source)
      (failed : Source.tokens source = .error error) :
      Endings world emitter input
        ⟨parseBanner input, failure emitter input (some source) error, 1⟩
        ⟨checkBanner input,
          faultTitle emitter ++ failure emitter input (some source) error, 1⟩
        ⟨"", failure emitter input (some source) error, 1⟩
  | syntactic {source : String} {tokens : List Token} {error : CompileError}
      (loaded : Source.load world.files input = .ok source)
      (scanned : Source.tokens source = .ok tokens)
      (failed : Source.program source = .error error) :
      Endings world emitter input
        ⟨parseBanner input, failure emitter input (some source) error, 1⟩
        ⟨checkBanner input,
          faultTitle emitter ++ failure emitter input (some source) error, 1⟩
        ⟨String.join (tokens.map tokenLine), "", 0⟩
  | accepted {source : String} {tokens : List Token} {program : Program}
      (loaded : Source.load world.files input = .ok source)
      (scanned : Source.tokens source = .ok tokens)
      (read : Source.program source = .ok program) :
      Endings world emitter input
        ⟨parseBanner input ++ (title emitter .green "✅ 格式化输出:" ++ "\n" ++ program.text), "", 0⟩
        ⟨checkBanner input ++ summaryLine emitter program.summary, "", 0⟩
        ⟨String.join (tokens.map tokenLine), "", 0⟩

/-- What cannot be scanned cannot be read either, for the same reason. -/
theorem program_of_tokens_error {error : CompileError}
    (failed : Source.tokens source = .error error) : Source.program source = .error error := by
  rw [Source.program, failed]
  rfl

theorem endings (world : World) (emitter : Emitter) (input : String) :
    Endings world emitter input (runParse world emitter false input).output
      (runCheck world emitter input).output (runTokens world emitter input).output := by
  cases loaded : Source.load world.files input with
  | error error =>
      simp only [runParse, runCheck, runTokens, withSource_of_error loaded]
      exact .unreadable loaded
  | ok source =>
      simp only [runParse, runCheck, runTokens, withSource_of_ok loaded, title_red_eq_faultTitle,
        show formatted false source = (Source.program source).map Program.text from rfl,
        Source.summary]
      cases scanned : Source.tokens source with
      | error error =>
          simp only [program_of_tokens_error scanned, Except.map, Effect.output,
            String.append_empty]
          exact .lexical loaded scanned
      | ok tokens =>
          cases read : Source.program source with
          | error error =>
              simp only [Except.map, Effect.output, String.append_empty, String.empty_append]
              exact .syntactic loaded scanned read
          | ok program =>
              simp only [Except.map, Effect.output, String.empty_append]
              exact .accepted loaded scanned read

end Endings

/-! ## What they have in common -/

/-- The file at the path holds the UTF-8 form of a text. -/
def Loads (world : World) (input : String) : Prop :=
  ∃ source, world.files input = .ok (String.toUTF8 source)

/-- The file at the path holds the UTF-8 form of a program. -/
def Accepts (world : World) (input : String) : Prop :=
  ∃ source program, world.files input = .ok (String.toUTF8 source) ∧
    Source.program source = .ok program

/-- What the outputs of parsing a file, of checking it and of listing its tokens have in common. -/
structure Agree (world : World) (emitter : Emitter) (input : String)
    (parsed checked listed : Output) : Prop where
  accepted : Accepts world input → parsed.code = 0 ∧ checked.code = 0 ∧ listed.code = 0
  refused : ¬ Accepts world input → parsed.code = 1 ∧ checked.code = 1
  parsedOut : parsed.code ≠ 0 → parsed.out = parseBanner input
  checkedOut : checked.code ≠ 0 → checked.out = checkBanner input
  listedOut : listed.code ≠ 0 → listed.out = ""
  loadedErr : checked.code ≠ 0 → Loads world input → checked.err = faultTitle emitter ++ parsed.err
  unloadedErr : ¬ Loads world input → checked.err = parsed.err
  listedErr : listed.code ≠ 0 → listed.err = parsed.err
  cleanErr : ∀ output ∈ [parsed, checked, listed], output.code = 0 → output.err = ""

theorem loads_iff (world : World) (input : String) :
    Loads world input ↔ ∃ source, Source.load world.files input = .ok source := by
  simp only [Loads, Source.load_eq_ok_iff]

theorem accepts_iff (world : World) (input : String) :
    Accepts world input ↔ ∃ source program, Source.load world.files input = .ok source ∧
      Source.program source = .ok program := by
  simp only [Accepts, Source.load_eq_ok_iff]

/-- A source that cannot be read is not accepted. -/
theorem not_accepts_of_error {world : World} {input source : String} {error : CompileError}
    (loaded : Source.load world.files input = .ok source)
    (failed : Source.program source = .error error) : ¬ Accepts world input := by
  rw [accepts_iff]
  rintro ⟨other, program, otherLoaded, read⟩
  cases loaded.symm.trans otherLoaded
  cases failed.symm.trans read

/-- Without a program in the file, parsing and checking fail behind their banners, and listing the
tokens fails with the same words or succeeds. -/
theorem Agree.of_refused {world : World} {emitter : Emitter} {input parsedErr checkedErr : String}
    {listed : Output} (notAccepts : ¬ Accepts world input)
    (loadedErr : Loads world input → checkedErr = faultTitle emitter ++ parsedErr)
    (unloadedErr : ¬ Loads world input → checkedErr = parsedErr)
    (listing : listed = ⟨"", parsedErr, 1⟩ ∨ listed.code = 0 ∧ listed.err = "") :
    Agree world emitter input ⟨parseBanner input, parsedErr, 1⟩ ⟨checkBanner input, checkedErr, 1⟩
      listed where
  accepted accepts := absurd accepts notAccepts
  refused _ := ⟨rfl, rfl⟩
  parsedOut _ := rfl
  checkedOut _ := rfl
  listedOut fails := by
    rcases listing with rfl | ⟨succeeds, _⟩
    · rfl
    · exact absurd succeeds fails
  loadedErr _ := loadedErr
  unloadedErr := unloadedErr
  listedErr fails := by
    rcases listing with rfl | ⟨succeeds, _⟩
    · rfl
    · exact absurd succeeds fails
  cleanErr := by
    rcases listing with rfl | ⟨_, clean⟩
    · simp
    · simp [clean]

theorem Endings.agree {world : World} {emitter : Emitter} {input : String}
    {parsed checked listed : Output}
    (endings : Endings world emitter input parsed checked listed) :
    Agree world emitter input parsed checked listed := by
  cases endings with
  | @unreadable error failed =>
      have notLoads : ¬ Loads world input := by
        rw [loads_iff]
        rintro ⟨source, loaded⟩
        cases failed.symm.trans loaded
      have notAccepts : ¬ Accepts world input :=
        fun ⟨source, _, loaded, _⟩ => notLoads ⟨source, loaded⟩
      exact .of_refused notAccepts (fun loads => absurd loads notLoads) (fun _ => rfl) (.inl rfl)
  | @lexical source error loaded failed =>
      have loads : Loads world input := (loads_iff world input).mpr ⟨source, loaded⟩
      have notAccepts := not_accepts_of_error loaded (program_of_tokens_error failed)
      exact .of_refused notAccepts (fun _ => rfl) (fun notLoads => absurd loads notLoads) (.inl rfl)
  | @syntactic source tokens error loaded scanned failed =>
      have loads : Loads world input := (loads_iff world input).mpr ⟨source, loaded⟩
      have notAccepts := not_accepts_of_error loaded failed
      exact .of_refused notAccepts (fun _ => rfl) (fun notLoads => absurd loads notLoads)
        (.inr ⟨rfl, rfl⟩)
  | @accepted source tokens program loaded scanned read =>
      have loads : Loads world input := (loads_iff world input).mpr ⟨source, loaded⟩
      have accepts : Accepts world input :=
        (accepts_iff world input).mpr ⟨source, program, loaded, read⟩
      exact {
        accepted := fun _ => ⟨rfl, rfl, rfl⟩
        refused := fun notAccepts => absurd accepts notAccepts
        parsedOut := fun fails => absurd rfl fails
        checkedOut := fun fails => absurd rfl fails
        listedOut := fun fails => absurd rfl fails
        loadedErr := fun fails => absurd rfl fails
        unloadedErr := fun notLoads => absurd loads notLoads
        listedErr := fun fails => absurd rfl fails
        cleanErr := by simp }

/-- What stands after the command: a flag and the input, which may look like a flag. -/
def remainder (input : Option String) (statement : Bool) : List String :=
  (if statement then ["--statement"] else []) ++ input.elim [] fun input => ["--", input]

def Task.words : Task → List String
  | .parse input statement => Verb.parse.name :: remainder input statement
  | .check input => Verb.check.name :: remainder (some input) false
  | .tokens input => Verb.tokens.name :: remainder (some input) false

/-- A command line for a task. -/
def Task.line (noColor : Bool) (task : Task) : List String :=
  (if noColor then ["--no-color"] else []) ++ task.words

theorem readArguments_line (task : Task) (noColor : Bool) :
    readArguments (task.line noColor) = .perform ⟨task, noColor, 0⟩ := by
  cases task with
  | parse input statement => cases input <;> cases statement <;> cases noColor <;> rfl
  | check input => cases noColor <;> rfl
  | tokens input => cases noColor <;> rfl

/-- Whatever the files and the colours, without `--verbose` and a setting for the log the commands
agree on every input.  Parsing and checking end with 0 if the file holds a program, and then so does
listing the tokens, and else with 1.  A command that fails has printed its banner at most.  A check
says of a fault what parsing says of it, behind a title line if the file could be loaded, and so
does listing the tokens if it fails.  A command that succeeds says nothing on standard error.  There
is a command line for every task. -/
theorem commands_agree_on_files (world : World) (unset : world.setting "RUST_LOG" = none)
    (input : String) (noColor : Bool) :
    (∀ parse check list : List String,
      readArguments parse = .perform ⟨.parse (some input) false, noColor, 0⟩ →
      readArguments check = .perform ⟨.check input, noColor, 0⟩ →
      readArguments list = .perform ⟨.tokens input, noColor, 0⟩ →
        Agree world (emitterFor world noColor) input
          (run world parse) (run world check) (run world list)) ∧
    ∀ task : Task, readArguments (task.line noColor) = .perform ⟨task, noColor, 0⟩ := by
  constructor
  · intro parse check list toParse toCheck toList
    have parsed := perform_unlogged unset (.parse (some input) false) noColor
    have checked := perform_unlogged unset (.check input) noColor
    have listed := perform_unlogged unset (.tokens input) noColor
    simp only [run, toParse, toCheck, toList, parsed, checked, listed]
    exact (endings world (emitterFor world noColor) input).agree
  · exact fun task => readArguments_line task noColor

/-- One file with a program that breaks off, and no other file. -/
def brokenOff : World where
  files := fun path =>
    if path = "a.bl" then .ok (String.toUTF8 "PROGRAM p IS BEGIN move") else .error .missing
  input := .empty
  setting := fun _ => none
  clock := ""

/-- The same file, with colours demanded. -/
def brokenOffInColor : World :=
  { brokenOff with setting := fun name => if name = "CLICOLOR_FORCE" then some "1" else none }

/-- What is said of the program, without colours. -/
def brokenOffText : String :=
  "Error: expected 'END', found '### END OF INPUT ###'\n   ╭─[a.bl:1:24]\n   │\n" ++
    " 1 │ PROGRAM p IS BEGIN move\n   │                        │ \n" ++
    "   │                        ╰─ expected 'END' here\n───╯\n"

/-- The file is scanned but not read, and a file that is missing is neither. -/
theorem brokenOff_agrees :
    brokenOff.setting "RUST_LOG" = none ∧ brokenOffInColor.setting "RUST_LOG" = none ∧
      (run brokenOff ["--no-color", "tokens", "a.bl"]).code = 0 ∧
      run brokenOff ["--no-color", "parse", "a.bl"] = ⟨"📖 解析 a.bl ...\n", brokenOffText, 1⟩ ∧
      (run brokenOff ["--no-color", "check", "a.bl"]).err = "❌ 发现错误:\n" ++ brokenOffText ∧
      (run brokenOffInColor ["check", "a.bl"]).err =
        "\x1b[31m❌ 发现错误:\x1b[0m\n" ++ (run brokenOffInColor ["parse", "a.bl"]).err ∧
      (run brokenOff ["tokens", "b.bl"]).err = (run brokenOff ["parse", "b.bl"]).err := by
  have present := (commands_agree_on_files brokenOff rfl "a.bl" true).1
    ["--no-color", "parse", "a.bl"] ["--no-color", "check", "a.bl"] ["--no-color", "tokens", "a.bl"]
    rfl rfl rfl
  have colored := (commands_agree_on_files brokenOffInColor rfl "a.bl" false).1
    ["parse", "a.bl"] ["check", "a.bl"] ["tokens", "a.bl"] rfl rfl rfl
  have absent := (commands_agree_on_files brokenOff rfl "b.bl" false).1
    ["parse", "b.bl"] ["check", "b.bl"] ["tokens", "b.bl"] rfl rfl rfl
  have parsed : run brokenOff ["--no-color", "parse", "a.bl"] =
      ⟨"📖 解析 a.bl ...\n", brokenOffText, 1⟩ := by decide +kernel
  have loads : ∃ source, brokenOff.files "a.bl" = .ok (String.toUTF8 source) :=
    ⟨"PROGRAM p IS BEGIN move", rfl⟩
  have checkFails : (run brokenOff ["--no-color", "check", "a.bl"]).code ≠ 0 := by decide
  have coloredFails : (run brokenOffInColor ["check", "a.bl"]).code ≠ 0 := by decide
  have listFails : (run brokenOff ["tokens", "b.bl"]).code ≠ 0 := by decide
  have checked := present.loadedErr checkFails loads
  rw [parsed] at checked
  exact ⟨rfl, rfl, rfl, parsed, checked, colored.loadedErr coloredFails loads,
    absent.listedErr listFails⟩

end Command

end BLang
