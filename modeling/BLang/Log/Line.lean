import BLang.Text.Ink
import BLang.Log.Filter

/-! # Log lines

The events of a run are numbered, and a clock tells when each of them happened. An entry of the log,
a record with that time, is written as one line: the time, the level, the program in whose reading
it happened, the part of the system it comes from, a message, and fields with their values. -/
namespace BLang

open Text

def Level.name : Level → String
  | .debug => "DEBUG"
  | .trace => "TRACE"

def Level.ink : Level → Ink
  | .debug => .blue
  | .trace => .magenta

namespace Event

def message : Event → String
  | readingSource _ => "reading source"
  | parsedStatement _ => "parsed statement"
  | parsedInstruction _ _ => "parsed instruction"
  | parsedProgram _ _ => "parsed program"

def fields : Event → List (String × String)
  | readingSource path => [("path", path)]
  | parsedStatement earlier => [("index", Nat.repr earlier.length)]
  | parsedInstruction name statements => [("name", name), ("statements", Nat.repr statements)]
  | parsedProgram name instructions =>
      [("program", name), ("instructions", Nat.repr instructions)]

end Event

namespace Record

def fieldPieces (field : String × String) : List Piece :=
  [inked .italic field.1, inked .dim "=", bare field.2]

def scopePieces : Option Nat → List Piece
  | some count =>
      [inked .bold "parse_program", inked .bold "\x7b"] ++
        fieldPieces ("token_count", Nat.repr count) ++
        [inked .bold "\x7d", inked .dim ":", bare " "]
  | none => []

end Record

structure Entry where
  time : String
  record : Record
  deriving DecidableEq

namespace Entry

def pieces (entry : Entry) : List Piece :=
  let event := entry.record.event
  [inked .dim entry.time, bare " ", inked event.level.ink event.level.name, bare " "] ++
    Record.scopePieces entry.record.scope ++
    [inked .dim event.part, inked .dim ":", bare " ", bare event.message] ++
    event.fields.flatMap (fun field => bare " " :: Record.fieldPieces field) ++ [newline]

def line (colors : Bool) (entry : Entry) : String :=
  painted colors entry.pieces

end Entry

/-- The times at which the events of a run happen, by their numbers. -/
structure Clock where
  time : Nat → String

/-- A clock that stands still. -/
instance : Coe String Clock :=
  ⟨fun time => ⟨fun _ => time⟩⟩

/-- The entries of records of which the first is that of the event with the number. -/
def Clock.entries (clock : Clock) : Nat → List Record → List Entry
  | _, [] => []
  | number, record :: rest => ⟨clock.time number, record⟩ :: clock.entries (number + 1) rest

/-- An entry as far as a filter keeps it. -/
def LogFilter.logged? (filter : LogFilter) (entry : Entry) : Option Entry :=
  (filter.kept? entry.record).map fun record => { entry with record := record }

/-- The lines of the entries that a filter keeps. -/
def logText (filter : LogFilter) (colors : Bool) (entries : List Entry) : String :=
  String.join ((entries.filterMap filter.logged?).map (Entry.line colors))

end BLang
