/-! # Control sequences

A text may hold sequences that are meant for a terminal: an escape character with what belongs to
it, longer commands with parameters, and strings for the terminal itself. What is left of the text
on a display without colours is found character by character. Between sequences every character is
kept but the control characters, of which only the blank ones stay. A blank control character
inside a command is kept as well, and the text that follows it is shown until the next control
character; then the command goes on. -/
namespace BLang.Text

/-- Where in a control sequence a text stands. -/
inductive Control where
  | ground
  | escape | escapeMore
  | command | commandArgument | commandMore | commandIgnored
  | device | deviceArgument | deviceMore | deviceIgnored | deviceString
  | systemString
  | privateString
  deriving DecidableEq

namespace Control

def isBetween (low high code : Nat) : Bool :=
  decide (low ≤ code) && decide (code ≤ high)

/-- A character after the introduction of a command, or after some of its arguments. -/
def ofCommand (state : Control) (code : Nat) : Control :=
  if isBetween 0x40 0x7E code then ground
  else if isBetween 0x20 0x2F code then
    match state with
    | commandIgnored => commandIgnored
    | _ => commandMore
  else if isBetween 0x30 0x3B code then
    match state with
    | command | commandArgument => commandArgument
    | _ => commandIgnored
  else if isBetween 0x3C 0x3F code then
    match state with
    | command => commandArgument
    | _ => commandIgnored
  else state

/-- A character after the introduction of a string for a device, or after some of its arguments. -/
def ofDevice (state : Control) (code : Nat) : Control :=
  if isBetween 0x40 0x7E code then deviceString
  else if isBetween 0x20 0x2F code then deviceMore
  else if isBetween 0x30 0x3B code then
    match state with
    | deviceMore => deviceIgnored
    | _ => deviceArgument
  else if isBetween 0x3C 0x3F code then
    match state with
    | device => deviceArgument
    | _ => deviceIgnored
  else state

/-- A character after an escape character. -/
def ofEscape (code : Nat) : Control :=
  if code == 0x5B then command
  else if code == 0x5D then systemString
  else if code == 0x50 then device
  else if code == 0x58 || code == 0x5E || code == 0x5F then privateString
  else if isBetween 0x20 0x2F code then escapeMore
  else if isBetween 0x30 0x7E code then ground
  else escape

/-- The characters that end or begin a sequence wherever they stand. -/
def interrupt? (code : Nat) : Option Control :=
  if code == 0x18 || code == 0x1A then some ground
  else if code == 0x1B then some escape
  else none

/-- The state after an ASCII character that interrupts nothing. -/
def ofCode (state : Control) (code : Nat) : Control :=
  match state with
  | ground => ground
  | escape => ofEscape code
  | escapeMore => if isBetween 0x30 0x7E code then ground else escapeMore
  | command | commandArgument | commandMore | commandIgnored => ofCommand state code
  | device | deviceArgument | deviceMore => ofDevice state code
  | systemString => if code == 0x07 then ground else systemString
  | deviceIgnored | deviceString | privateString => state

def next (state : Control) (code : Nat) : Control :=
  (interrupt? code).getD (state.ofCode code)

/-- Whether blank control characters are kept in the state. -/
def keepsBlanks : Control → Bool
  | ground | escape | escapeMore => true
  | command | commandArgument | commandMore | commandIgnored => true
  | _ => false

def isBlankControl (code : Nat) : Bool :=
  code == 0x09 || code == 0x0A || code == 0x0C || code == 0x0D

/-- Whether an ASCII character is kept in the state. -/
def keeps (state : Control) (code : Nat) : Bool :=
  match state with
  | ground => isBetween 0x20 0x7E code || isBlankControl code
  | _ => state.keepsBlanks && isBlankControl code

/-- The state after a character beyond ASCII. The byte `9C` in its UTF-8 form ends a string for a
device and a private one. -/
def afterWide (state : Control) (char : Char) : Control :=
  match state with
  | deviceIgnored | deviceString | privateString =>
      if (String.utf8EncodeChar char).contains 0x9C then ground else state
  | _ => state

/-- A character that may belong to a sequence: whether it is kept, and the state after it. -/
def skip (state : Control) (char : Char) : Bool × Control :=
  if 0x80 ≤ char.toNat then
    if state = ground then (true, ground) else (false, state.afterWide char)
  else (state.keeps char.toNat, state.next char.toNat)

/-- A character while text is shown: it is shown on, or it is seen as part of a sequence. A state
that was left when the text began to be shown lasts until a sequence begins or a character beyond
ASCII is shown. -/
def pass (state : Control) (char : Char) : Bool × Control :=
  if 0x80 ≤ char.toNat then (true, ground)
  else if ground.keeps char.toNat then (true, state)
  else skip ((interrupt? char.toNat).getD state) char

end Control

/-- What is left of a text; `shown` tells that the character before was kept. -/
def visibleFrom (shown : Bool) (state : Control) : List Char → List Char
  | [] => []
  | char :: rest =>
      let (keep, next) := if shown then state.pass char else state.skip char
      if keep then char :: visibleFrom true next rest else visibleFrom false next rest

/-- The text without its control sequences. -/
def visible (chars : List Char) : List Char :=
  visibleFrom false .ground chars

end BLang.Text
