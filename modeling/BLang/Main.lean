import Std.Time
import BLang.Command.Run

/-! # The program

The command line `blc`: it gathers the arguments, the environment and the file that a command names,
lets the library decide, and prints what it says. -/
namespace BLang.Main

open Command

/-- The number that the system gives to an error. Some errors carry its negative. -/
def systemNumber (code : UInt32) : Nat :=
  min code.toNat (0 - code).toNat

/-- Why the system could not give the bytes of a file. -/
def readErrorOf : IO.Error → ReadError
  | .noFileOrDirectory .. => .missing
  | .inappropriateType _ code details =>
      match systemNumber code with
      | 20 => .notFolder
      | 21 => .isFolder
      | number => .other (details ++ " (os error " ++ toString number ++ ")")
  | .invalidArgument _ code details =>
      match systemNumber code with
      | 36 => .nameTooLong
      | number => .other (details ++ " (os error " ++ toString number ++ ")")
  | .permissionDenied .. => .other "Permission denied (os error 13)"
  | error => .other error.toString

def readBytes (path : String) : IO (Except ReadError ByteArray) :=
  if path.toList.contains '\x00' then return .error .nulInName
  else
    try
      return .ok (← IO.FS.readBinFile path)
    catch error =>
      return .error (readErrorOf error)

/-- The bytes that are typed, up to the end of the first line. -/
partial def typedBytes (stream : IO.FS.Stream) (bytes : ByteArray) : IO ByteArray := do
  let next ← stream.read 1
  let bytes := bytes ++ next
  if next.isEmpty || next.toList == [10] then return bytes else typedBytes stream bytes

/-- The bytes of standard input, if the task has to ask for a name, and the name of its input. -/
def gather : Task → IO (ByteArray × Option String)
  | .parse (some input) _ => return (ByteArray.empty, some input)
  | .check input => return (ByteArray.empty, some input)
  | .tokens input => return (ByteArray.empty, some input)
  | .parse none statement => do
      let out ← IO.getStdout
      out.putStr (prompt statement)
      out.flush
      let bytes ← typedBytes (← IO.getStdin) ByteArray.empty
      return (bytes, (typedName bytes).toOption)

def environment : IO (String → Option String) := do
  let names := ["CLICOLOR_FORCE", "NO_COLOR", "RUST_LOG"]
  let values ← names.mapM fun name => do return (name, ← IO.getEnv name)
  return fun name => (values.lookup name).join

/-- The present time of day and date, in universal time. -/
def now : IO String := do
  let time := Std.Time.DateTime.ofTimestampWithZone (← Std.Time.Timestamp.now) Std.Time.TimeZone.UTC
  return time.format "uuuu-MM-dd'T'HH:mm:ss.SSSSSS'Z'"

/-- The world in which the arguments are run. The first event is that of opening the file, and all
others happen when it has been read. -/
def worldFor (arguments : List String) : IO World := do
  let (typed, input) ←
    match readArguments arguments with
    | .perform invocation => gather invocation.task
    | _ => pure (ByteArray.empty, none)
  let opened ← now
  let content ←
    match input with
    | some path => readBytes path
    | none => pure (.error .missing)
  let read ← now
  let clock : Clock := ⟨fun number => if number = 0 then opened else read⟩
  return ⟨fun _ => content, typed, ← environment, clock⟩

/-- What is still to be printed when the prompt has been shown. -/
def afterPrompt (arguments : List String) (out : String) : String :=
  match readArguments arguments with
  | .perform ⟨.parse none statement, _, _⟩ =>
      String.ofList (out.toList.drop (prompt statement).length)
  | _ => out

end BLang.Main

open BLang in
def main (arguments : List String) : IO UInt32 := do
  let world ← Main.worldFor arguments
  let output := Command.run world arguments
  (← IO.getStdout).putStr (Main.afterPrompt arguments output.out)
  (← IO.getStderr).putStr output.err
  return output.code.toUInt32
