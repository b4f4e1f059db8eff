import BLang.Text.Control
import BLang.Text.Fields
import BLang.Text.Ink

/-! # The command line and its usage

The commands of `blc`, the flags that may stand before a command and after it, the texts that
explain them, and the ways to misuse them. All these texts are made of pieces: names that are
written as they stand are bold, headings are underlined, what is wrong is yellow and what would be
right is green. On a display without colours the control sequences are taken out again, together
with those that came in with the arguments. -/
namespace BLang.Command

open Text

/-- The commands that work on a source. -/
inductive Verb where
  | parse
  | check
  | tokens
  deriving DecidableEq

namespace Verb

def all : List Verb := [parse, check, tokens]

def name : Verb → String
  | parse => "parse"
  | check => "check"
  | tokens => "tokens"

def summary : Verb → String
  | parse => "解析 BL 源文件并格式化输出"
  | check => "检查语法错误"
  | tokens => "列出词法单元"

def ofName? (text : String) : Option Verb :=
  all.find? fun verb => decide (verb.name = text)

/-- Whether the command can do without an input. -/
def inputOptional : Verb → Bool
  | parse => true
  | _ => false

end Verb

def helpName : String := "help"

/-- The names of all commands. -/
def commandNames : List String :=
  Verb.all.map Verb.name ++ [helpName]

/-- Where an argument stands: before the command or after it. -/
inductive Place where
  | top
  | under (verb : Verb)
  deriving DecidableEq

inductive Flag where
  | statement
  | noColor
  | verbose
  | help
  | version
  deriving DecidableEq

namespace Flag

def all : List Flag := [statement, noColor, verbose, help, version]

/-- The name of the flag, written after two hyphens. -/
def long : Flag → String
  | statement => "statement"
  | noColor => "no-color"
  | verbose => "verbose"
  | help => "help"
  | version => "version"

/-- The letter of the flag, written after one hyphen. -/
def short? : Flag → Option Char
  | statement => some 's'
  | noColor => none
  | verbose => some 'v'
  | help => some 'h'
  | version => some 'V'

/-- What a usage adds to a flag that may be repeated. -/
def repetition : Flag → String
  | verbose => "..."
  | _ => ""

def shown (flag : Flag) : String :=
  "--" ++ flag.long ++ flag.repetition

def pieces (flag : Flag) : List Piece :=
  [inked .bold ("--" ++ flag.long), bare flag.repetition]

end Flag

namespace Place

def allows : Place → Flag → Bool
  | top, flag => decide (flag ≠ .statement)
  | under .parse, flag => decide (flag ≠ .version)
  | under _, flag => decide (flag ≠ .version) && decide (flag ≠ .statement)

def flags (place : Place) : List Flag :=
  Flag.all.filter place.allows

def flagOfLong? (place : Place) (name : String) : Option Flag :=
  place.flags.find? fun flag => decide (flag.long = name)

def flagOfShort? (place : Place) (char : Char) : Option Flag :=
  place.flags.find? fun flag => decide (flag.short? = some char)

/-- The words with which a usage starts. -/
def path : Place → String
  | top => "blc"
  | under verb => "blc " ++ verb.name

/-- What a usage says of the input. -/
def inputName (required : Bool) : String :=
  if required then "<INPUT>" else "[INPUT]"

def usage (place : Place) : List Piece :=
  inked .bold place.path ::
    match place with
    | top => [bare " [OPTIONS] <COMMAND>"]
    | under verb => [bare (" [OPTIONS] " ++ inputName (!verb.inputOptional))]

/-- Whether a flag belongs to the group of arguments that a place has of its own. -/
def owns : Place → Flag → Bool
  | top, flag => decide (flag = .noColor) || decide (flag = .verbose)
  | under _, flag => decide (flag = .statement)

/-- The group of arguments that a place has of its own. -/
def group : Place → String
  | top => "<" ++ Flag.noColor.shown ++ "|" ++ Flag.verbose.shown ++ ">"
  | under .parse => "<INPUT|" ++ Flag.statement.shown ++ ">"
  | under _ => "<INPUT>"

/-- What ends the usage of a place: a command is required at the top, below it an input unless it is
optional and not given. -/
def ending (place : Place) (input : Bool) : String :=
  match place with
  | top => "<COMMAND>"
  | under verb => inputName (input || !verb.inputOptional)

/-- The usage that repeats the flags that have been given. -/
def usageWith (place : Place) (flags : List Flag) (input : Bool) : List Piece :=
  inked .bold place.path ::
    flags.flatMap (fun flag => bare " " :: flag.pieces) ++ [bare (" " ++ place.ending input)]

/-- The usage that repeats the flags that have been given and names the group of the place once
instead of its members. -/
def usageWithGroup (place : Place) (flags : List Flag) : List Piece :=
  inked .bold place.path ::
    (flags.filter fun flag => !place.owns flag).flatMap (fun flag => bare " " :: flag.pieces) ++
    bare (" " ++ place.group) ::
    match place with
    | top => [bare (" " ++ top.ending false)]
    | under _ => []

end Place

def line (pieces : List Piece) : List Piece :=
  pieces ++ [newline]

def heading (text : String) : Piece :=
  inked .heading (text ++ ":")

def usageLine (usage : List Piece) : List Piece :=
  line ([heading "Usage", bare " "] ++ usage)

def versionText : List Piece :=
  line [bare "blc 0.1.0"]

/-- A command with its summary, in columns. -/
def commandLine (name summary : String) : List Piece :=
  line [bare "  ", inked .bold name, bare (spaces (8 - name.length) ++ summary)]

namespace Flag

def summary : Flag → String
  | statement => "输入是单条语句而不是完整程序"
  | noColor => "关闭彩色输出"
  | verbose => "输出日志 (-v: debug, -vv: trace)"
  | help => "Print help"
  | version => "Print version"

/-- The letter of a flag before its name. -/
def shortPieces (flag : Flag) : List Piece :=
  match flag.short? with
  | some char => [bare "  ", inked .bold (String.ofList ['-', char]), bare ", "]
  | none => [bare "      "]

/-- A flag with its summary, in columns. -/
def helpLine (flag : Flag) : List Piece :=
  line (flag.shortPieces ++ flag.pieces ++
    [bare (spaces (14 - flag.shown.length) ++ flag.summary)])

end Flag

def helpSummary : String :=
  "Print this message or the help of the given subcommand(s)"

def topHelp : List Piece :=
  line [bare "BL 解析器 - 解析、检查并格式化 BL 程序"] ++ [newline] ++
    usageLine Place.top.usage ++ [newline] ++
    line [heading "Commands"] ++
    Verb.all.flatMap (fun verb => commandLine verb.name verb.summary) ++
    commandLine helpName helpSummary ++ [newline] ++
    line [heading "Options"] ++
    [Flag.noColor, .verbose, .help, .version].flatMap Flag.helpLine

def Verb.inputHelp : Verb → String
  | .parse => "  [INPUT]  输入文件 (缺省时从标准输入读取文件名)"
  | _ => "  <INPUT>  输入文件"

/-- The flags of a command in the order in which its help tells them. -/
def Verb.helpFlags : Verb → List Flag
  | .parse => [.noColor, .statement, .verbose, .help]
  | _ => [.noColor, .verbose, .help]

def Verb.help (verb : Verb) : List Piece :=
  line [bare verb.summary] ++ [newline] ++
    usageLine (Place.under verb).usage ++ [newline] ++
    line [heading "Arguments"] ++
    line [bare verb.inputHelp] ++ [newline] ++
    line [heading "Options"] ++
    verb.helpFlags.flatMap Flag.helpLine

def helpUsage : List Piece :=
  [inked .bold "blc help", bare " [COMMAND]..."]

def helpHelp : List Piece :=
  line [bare helpSummary] ++ [newline] ++
    usageLine helpUsage ++ [newline] ++
    line [heading "Arguments"] ++
    line [bare "  [COMMAND]...  Print help for the subcommand(s)"]

def Place.help : Place → List Piece
  | top => topHelp
  | under verb => verb.help

/-- Why arguments are not understood. -/
inductive Fault where
  | noCommand
  | unknownCommand (name : String) (similar : List String)
  | commandAfterDashes (name : String)
  | missingInput
  | unexpected (argument : String)
  | unexpectedOption (option : String)
  | misspelled (option similar : String)
  | misplaced (option command flag : String)
  | repeated (flag : Flag)
  | unneededValue (flag : Flag) (value : String)
  deriving DecidableEq

def wrong (text : String) : Piece :=
  inked .yellow text

def right (text : String) : Piece :=
  inked .green text

/-- Pieces of a list with commas between them. -/
def listed (pieces : List Piece) : List Piece :=
  pieces.intersperse (bare ", ")

/-- Each name between single quotes. -/
def quotedNames (names : List String) : List Piece :=
  match names with
  | [] => []
  | [name] => [bare "'", right name, bare "'"]
  | name :: rest => [bare "'", right name, bare "', "] ++ quotedNames rest

namespace Fault

def unexpectedPieces (argument : String) : List Piece :=
  [bare "unexpected argument '", wrong argument, bare "' found"]

def message : Fault → List Piece
  | noCommand =>
      [bare "'", wrong "blc", bare "' requires a subcommand but one was not provided\n",
        bare "  [subcommands: "] ++ listed (commandNames.map right) ++ [bare "]"]
  | unknownCommand name _ => [bare "unrecognized subcommand '", wrong name, bare "'"]
  | commandAfterDashes name => unexpectedPieces name
  | missingInput =>
      [bare "the following required arguments were not provided:\n  ", right "<INPUT>"]
  | unexpected argument => unexpectedPieces argument
  | unexpectedOption option => unexpectedPieces option
  | misspelled option _ => unexpectedPieces option
  | misplaced option _ _ => unexpectedPieces option
  | repeated flag =>
      [bare "the argument '", wrong flag.shown, bare "' cannot be used multiple times"]
  | unneededValue flag value =>
      [bare "unexpected value '", wrong value, bare "' for '", inked .bold flag.shown,
        bare "' found; no more were expected"]

/-- A hint at what may have been meant. -/
def tip? : Fault → Option (List Piece)
  | unknownCommand _ [] => none
  | unknownCommand _ [name] =>
      some ([bare "a similar subcommand exists: "] ++ quotedNames [name])
  | unknownCommand _ names =>
      some ([bare "some similar subcommands exist: "] ++ quotedNames names)
  | commandAfterDashes name =>
      some [bare "subcommand '", right name, bare "' exists; to use it, remove the '",
        wrong "--", bare "' before it"]
  | unexpectedOption option =>
      some [bare "to pass '", wrong option, bare "' as a value, use '", right ("-- " ++ option),
        bare "'"]
  | misspelled _ similar =>
      some ([bare "a similar argument exists: "] ++ quotedNames [similar])
  | misplaced _ command flag =>
      some [bare "'", right (command ++ " " ++ flag), bare "' exists"]
  | _ => none

def tipLines (fault : Fault) : List Piece :=
  match fault.tip? with
  | some tip => line ([bare "  ", right "tip:", bare " "] ++ tip) ++ [newline]
  | none => []

/-- The answer to a misuse, with the usage it should have followed and perhaps the flag that tells
more. -/
def report (fault : Fault) (usage : List Piece) (hint : Bool) : List Piece :=
  line ([inked .alarm "error:", bare " "] ++ fault.message) ++ [newline] ++
    fault.tipLines ++ usageLine usage ++
    if hint then
      newline :: line [bare "For more information, try '", inked .bold "--help", bare "'."]
    else []

end Fault

/-- The text of pieces on a display with colours or without. -/
def displayed (colors : Bool) (pieces : List Piece) : String :=
  let chars := pieces.flatMap Piece.marked
  String.ofList (if colors then chars else visible chars)

end BLang.Command
