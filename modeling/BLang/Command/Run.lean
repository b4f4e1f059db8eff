import BLang.Text.Blank
import BLang.Command.Arguments
import BLang.Log.Line
import BLang.Source

/-! # Running a command

A run takes the arguments and the world around them to what is printed and to the exit status. The
work of a command does not depend on how much is logged: it gives the records of all that happened,
and the lines of those that are wanted stand before its own errors. -/
namespace BLang.Command

open Text

structure World where
  files : FileAccess
  input : ByteArray
  setting : String → Option String
  clock : Clock

structure Output where
  out : String
  err : String
  code : Nat
  deriving DecidableEq

/-- What a command does, apart from logging. -/
structure Effect where
  records : List Record
  out : String
  err : String
  code : Nat
  deriving DecidableEq

/-- An error with the name of the input and perhaps its source. -/
def failure (emitter : Emitter) (input : String) (source : Option String)
    (error : CompileError) : String :=
  match error.report emitter (some input) source with
  | .ok text => text
  | .error breach => breach.message ++ "\n"

def title (emitter : Emitter) (ink : Ink) (text : String) : String :=
  painted emitter.display [inked ink text]

/-- Loads the input and goes on with its source; an input that cannot be loaded is reported. -/
def withSource (world : World) (emitter : Emitter) (banner input : String)
    (work : String → Effect) : Effect :=
  let reading : Record := ⟨none, .readingSource input⟩
  match Source.load world.files input with
  | .error error => ⟨[reading], banner, failure emitter input none error, 1⟩
  | .ok source =>
      let effect := work source
      ⟨reading :: effect.records, banner ++ effect.out, effect.err, effect.code⟩

/-- The printed form of a source, read as a program or as a statement. -/
def formatted (statement : Bool) (source : String) : Except CompileError String :=
  if statement then (Source.statement source).map fun value => value.text 0
  else (Source.program source).map Program.text

/-- What happens while a source is read as a program or as a statement. -/
def recordsOf (statement : Bool) (source : String) : List Record :=
  if statement then Source.statementRecords source else Source.programRecords source

def runParse (world : World) (emitter : Emitter) (statement : Bool) (input : String) : Effect :=
  withSource world emitter ("📖 解析 " ++ input ++ " ...\n") input fun source =>
    let records := recordsOf statement source
    match formatted statement source with
    | .ok text => ⟨records, title emitter .green "✅ 格式化输出:" ++ "\n" ++ text, "", 0⟩
    | .error error => ⟨records, "", failure emitter input (some source) error, 1⟩

def summaryLine (emitter : Emitter) (summary : Summary) : String :=
  title emitter .green "✅ 无错误" ++ " 程序 '" ++ summary.name ++ "': " ++
    Nat.repr summary.instructions ++ " 条指令, " ++ Nat.repr summary.statements ++ " 条语句\n"

def runCheck (world : World) (emitter : Emitter) (input : String) : Effect :=
  withSource world emitter ("🔍 检查 " ++ input ++ " ...\n") input fun source =>
    let records := Source.programRecords source
    match Source.summary source with
    | .ok summary => ⟨records, summaryLine emitter summary, "", 0⟩
    | .error error =>
        ⟨records, "",
          title emitter .red "❌ 发现错误:" ++ "\n" ++ failure emitter input (some source) error, 1⟩

/-- A token with its span, in columns. -/
def tokenLine (token : Token) : String :=
  alignRight 6 (Nat.repr token.span.start) ++ ".." ++ alignLeft 6 (Nat.repr token.span.stop) ++
    " " ++ token.lexeme ++ "\n"

def runTokens (world : World) (emitter : Emitter) (input : String) : Effect :=
  withSource world emitter "" input fun source =>
    match Source.tokens source with
    | .ok tokens => ⟨[], String.join (tokens.map tokenLine), "", 0⟩
    | .error error => ⟨[], "", failure emitter input (some source) error, 1⟩

def prompt (statement : Bool) : String :=
  "Enter valid BL " ++ (if statement then "statement(s)" else "program") ++ " file name: "

/-- The bytes up to and including the first line feed. -/
def firstLine : List UInt8 → List UInt8
  | [] => []
  | byte :: rest => if byte = 10 then [byte] else byte :: firstLine rest

/-- The first line of what is typed, without blanks at its ends. -/
def typedName (input : ByteArray) : Except ReadError String :=
  (decodeText (ByteArray.mk (firstLine input.toList).toArray)).map fun line =>
    String.ofList (trim line.toList)

def runPrompted (world : World) (emitter : Emitter) (statement : Bool) : Effect :=
  match typedName world.input with
  | .error error => ⟨[], prompt statement, "Error: " ++ error.message ++ "\n", 1⟩
  | .ok input =>
      let effect := runParse world emitter statement input
      { effect with out := prompt statement ++ effect.out }

def runTask (world : World) (emitter : Emitter) : Task → Effect
  | .parse (some input) statement => runParse world emitter statement input
  | .parse none statement => runPrompted world emitter statement
  | .check input => runCheck world emitter input
  | .tokens input => runTokens world emitter input

/-- Reports are coloured only on demand, snippets unless that is refused. -/
def emitterFor (world : World) (noColor : Bool) : Emitter :=
  let forced := (world.setting "CLICOLOR_FORCE").any fun value => decide (value ≠ "0")
  ⟨forced && !noColor, !noColor⟩

/-- The filter for a count of `--verbose`. -/
def filterOfCount : Nat → LogFilter
  | 0 => .upTo warnDetail
  | 1 => .upTo Level.debug.detail
  | _ => .upTo Level.trace.detail

/-- The environment decides on the filter before the flags do, unless its filter cannot be read. -/
def filterFor (world : World) (count : Nat) : LogFilter :=
  ((world.setting "RUST_LOG").bind LogFilter.ofText?).getD (filterOfCount count)

def logColors (world : World) : Bool :=
  !(world.setting "NO_COLOR").any fun value => decide (value ≠ "")

def perform (world : World) (invocation : Invocation) : Output :=
  let effect := runTask world (emitterFor world invocation.noColor) invocation.task
  let log := logText (filterFor world invocation.verbosity) (logColors world)
    (world.clock.entries 0 effect.records)
  ⟨effect.out, log ++ effect.err, effect.code⟩

/-- The texts about the command line are coloured if that is demanded and not refused. -/
def usageColors (world : World) : Bool :=
  let isSet := fun name => (world.setting name).any fun value => decide (value ≠ "")
  isSet "CLICOLOR_FORCE" && !isSet "NO_COLOR"

def run (world : World) (arguments : List String) : Output :=
  let shown := displayed (usageColors world)
  match readArguments arguments with
  | .perform invocation => perform world invocation
  | .display text => ⟨shown text, "", 0⟩
  | .noArguments => ⟨"", shown topHelp, 2⟩
  | .misuse fault usage hint => ⟨"", shown (fault.report usage hint), 2⟩

end BLang.Command
