import BLang.Text.Similarity
import BLang.Command.Usage

/-! # Reading arguments

Arguments are read from left to right and the first fault decides. Flags may stand before the
command and after it; flags of one letter can be joined. Except for `--verbose`, a flag may be given
once on each side of the command. After `--` nothing is a flag. A count of `--verbose` after the
command replaces the one before it. A name that is not known is compared with those that are. -/
namespace BLang.Command

open Text

/-- A command with all it needs to know. -/
inductive Task where
  | parse (input : Option String) (statement : Bool)
  | check (input : String)
  | tokens (input : String)
  deriving DecidableEq

structure Invocation where
  task : Task
  noColor : Bool
  verbosity : Nat
  deriving DecidableEq

/-- What arguments ask for. The hint of a misuse tells whether to point to `--help`. -/
inductive Request where
  | perform (invocation : Invocation)
  | display (text : List Piece)
  | noArguments
  | misuse (fault : Fault) (usage : List Piece) (hint : Bool)
  deriving DecidableEq

/-- What has been given on one side of the command. A flag given again moves to the end. An input is
settled once a flag has followed it. -/
structure Given where
  flags : List Flag
  verbosity : Nat
  input : Option String
  settled : Bool
  deriving DecidableEq

namespace Given

def nothing : Given := ⟨[], 0, none, false⟩

def isNothing (given : Given) : Bool :=
  given.flags.isEmpty && given.input.isNone

def has (given : Given) (flag : Flag) : Bool :=
  given.flags.any fun other => decide (other = flag)

def add (given : Given) (flag : Flag) : Given :=
  { given with
    flags := given.flags.filter (fun other => decide (other ≠ flag)) ++ [flag],
    settled := given.input.isSome }

/-- The flags with one more, which keeps its place if it is among them. -/
def flagsWith (given : Given) (flag : Flag) : List Flag :=
  if given.has flag then given.flags else given.flags ++ [flag]

/-- Whether a member of the group of the place has been given. -/
def hasGroup (given : Given) (place : Place) : Bool :=
  given.flags.any place.owns || given.settled

/-- The usage for an option that is not known. -/
def usage (given : Given) (place : Place) : List Piece :=
  if given.isNothing then place.usage else place.usageWith given.flags given.input.isSome

/-- The usage for a flag that was given a value. -/
def usageOfValue (given : Given) (place : Place) (flag : Flag) : List Piece :=
  if given.hasGroup place then place.usageWithGroup (given.flagsWith flag)
  else place.usageWith (given.flagsWith flag) false

/-- Takes a flag; `--help` and `--version` end the reading. -/
def takeFlag (given : Given) (place : Place) (flag : Flag) : Except Request Given :=
  match flag with
  | .help => .error (.display place.help)
  | .version => .error (.display versionText)
  | .verbose => .ok { given.add .verbose with verbosity := given.verbosity + 1 }
  | flag =>
      if given.has flag then .error (.misuse (.repeated flag) place.usage true)
      else .ok (given.add flag)

/-- An option that nothing resembles; after a command it may have been meant as input. -/
def strange (place : Place) (option : String) : Fault :=
  match place with
  | .top => .unexpected option
  | .under _ => .unexpectedOption option

/-- The flag of the place whose name is most similar. -/
def similarFlag? (place : Place) (name : String) : Option Flag :=
  (similarNames name (place.flags.map Flag.long)).getLast?.bind place.flagOfLong?

/-- The command that is named first in the arguments and has a flag with a similar name. -/
def similarElsewhere? (name : String) : List String → Option (Verb × Flag)
  | [] => none
  | argument :: rest =>
      match Verb.ofName? argument with
      | some verb =>
          match similarFlag? (.under verb) name with
          | some flag => some (verb, flag)
          | none => similarElsewhere? name rest
      | none => similarElsewhere? name rest

/-- The answer to an option with an unknown name, before some more arguments. -/
def unknownLong (given : Given) (place : Place) (name : String) (rest : List String) : Request :=
  let option := "--" ++ name
  match similarFlag? place name with
  | some flag =>
      .misuse (.misspelled option ("--" ++ flag.long))
        (place.usageWith (given.flagsWith flag) given.input.isSome) true
  | none =>
      match place, similarElsewhere? name rest with
      | .top, some (verb, flag) =>
          .misuse (.misplaced option verb.name ("--" ++ flag.long)) (given.usage place) true
      | _, _ => .misuse (strange place option) (given.usage place) true

/-- Takes an option written with two hyphens, of which the name and a value are given. -/
def takeLong (given : Given) (place : Place) (rest : List String) (name : String)
    (value : Option String) : Except Request Given :=
  match place.flagOfLong? name, value with
  | none, _ => .error (given.unknownLong place name rest)
  | some flag, some value =>
      .error (.misuse (.unneededValue flag value) (given.usageOfValue place flag) true)
  | some flag, none => given.takeFlag place flag

/-- Takes the letters of an option written with one hyphen. -/
def takeShort (given : Given) (place : Place) : List Char → Except Request Given
  | [] => .ok given
  | char :: rest =>
      match place.flagOfShort? char with
      | none => .error (.misuse (strange place (String.ofList ['-', char])) place.usage true)
      | some flag =>
          match given.takeFlag place flag with
          | .ok next => next.takeShort place rest
          | .error request => .error request

end Given

/-- The kinds of arguments, by their first characters. -/
inductive Argument where
  | dashes
  | long (name : String) (value : Option String)
  | short (letters : List Char)
  | plain (text : String)
  deriving DecidableEq

/-- A name and the text after the first equals sign. -/
def splitValue : List Char → List Char × Option (List Char)
  | [] => ([], none)
  | '=' :: rest => ([], some rest)
  | char :: rest => (char :: (splitValue rest).1, (splitValue rest).2)

def Argument.ofText (text : String) : Argument :=
  match text.toList with
  | ['-', '-'] => .dashes
  | '-' :: '-' :: rest =>
      .long (String.ofList (splitValue rest).1) ((splitValue rest).2.map String.ofList)
  | '-' :: char :: rest => .short (char :: rest)
  | _ => .plain text

/-- Takes an argument that is a flag or a group of flags, before some more arguments; there is
nothing to take from another kind. -/
def Given.takeOption? (given : Given) (place : Place) (rest : List String) :
    Argument → Option (Except Request Given)
  | .long name value => some (given.takeLong place rest name value)
  | .short letters => some (given.takeShort place letters)
  | _ => none

def taskOf (verb : Verb) (given : Given) : Except Fault Task :=
  match verb, given.input with
  | .parse, input => .ok (.parse input (given.has .statement))
  | .check, some input => .ok (.check input)
  | .tokens, some input => .ok (.tokens input)
  | _, none => .error .missingInput

/-- The request of a command after the last argument. -/
def concluded (top : Given) (verb : Verb) (given : Given) : Request :=
  match taskOf verb given with
  | .error fault =>
      .misuse fault ((Place.under verb).usageWith given.flags given.input.isSome) true
  | .ok task =>
      .perform ⟨task, top.has .noColor || given.has .noColor,
        if given.has .verbose then given.verbosity else top.verbosity⟩

/-- An argument that is no flag: the input, of which there is one. -/
def Given.takeInput (given : Given) (verb : Verb) (text : String) : Except Request Given :=
  match given.input with
  | none => .ok { given with input := some text }
  | some _ => .error (.misuse (.unexpected text) (Place.under verb).usage true)

/-- Reads the arguments after the command; `plain` tells that `--` has been passed. -/
def readUnder (top : Given) (verb : Verb) (given : Given) (plain : Bool) :
    List String → Request
  | [] => concluded top verb given
  | text :: rest =>
      let argument := if plain then .plain text else Argument.ofText text
      if argument = .dashes then readUnder top verb given true rest
      else
        match (given.takeOption? (.under verb) rest argument).getD
            (given.takeInput verb text) with
        | .ok next => readUnder top verb next plain rest
        | .error request => request

/-- The request of the command `help`. -/
def readHelp : List String → Request
  | [] => .display topHelp
  | name :: rest =>
      match Verb.ofName? name, rest with
      | some verb, [] => .display verb.help
      | some verb, other :: _ =>
          .misuse (.unknownCommand other []) (Place.under verb).usage true
      | none, _ =>
          if name = helpName then
            match rest with
            | [] => .display helpHelp
            | other :: _ => .misuse (.unknownCommand other []) helpUsage false
          else .misuse (.unknownCommand name []) Place.top.usage true

def unknownCommand (name : String) : Request :=
  .misuse (.unknownCommand name (similarNames name commandNames)) Place.top.usage true

/-- Reads the arguments up to the command; `plain` tells that `--` has been passed. -/
def readTop (given : Given) (plain : Bool) : List String → Request
  | [] => if given.isNothing then .noArguments else .misuse .noCommand Place.top.usage true
  | text :: rest =>
      let argument := if plain then .plain text else Argument.ofText text
      if argument = .dashes then readTop given true rest
      else
        match given.takeOption? .top rest argument with
        | some (.ok next) => readTop next plain rest
        | some (.error request) => request
        | none =>
            if plain then
              if commandNames.contains text then
                .misuse (.commandAfterDashes text) Place.top.usage true
              else unknownCommand text
            else
              match Verb.ofName? text with
              | some verb => readUnder given verb Given.nothing false rest
              | none => if text = helpName then readHelp rest else unknownCommand text

def readArguments (arguments : List String) : Request :=
  readTop Given.nothing false arguments

end BLang.Command
