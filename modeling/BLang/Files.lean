import BLang.Text.Bytes
import BLang.Text.Fields

/-! # Files

Reading a file gives its bytes or says why there are none. A file tree is the content of one folder
and of the folders below it. The folders on the way to a file need no entries of their own. A path
is walked name by name: an empty name and `.` stay where they are and `..` goes up, and each of them
can only follow a folder. Above the tree there are folders, of which nothing else is known. The
length of a name and of a path is bounded. -/
namespace BLang

inductive ReadError where
  | missing
  | isFolder
  | notFolder
  | nameTooLong
  | nulInName
  | notText
  | other (text : String)
  deriving DecidableEq

def ReadError.message : ReadError → String
  | .missing => "No such file or directory (os error 2)"
  | .isFolder => "Is a directory (os error 21)"
  | .notFolder => "Not a directory (os error 20)"
  | .nameTooLong => "File name too long (os error 36)"
  | .nulInName => "file name contained an unexpected NUL byte"
  | .notText => "stream did not contain valid UTF-8"
  | .other text => text

/-- A way to get the bytes of the file with a given path. -/
abbrev FileAccess := String → Except ReadError ByteArray

/-- The text whose UTF-8 form the bytes are. -/
def decodeText (bytes : ByteArray) : Except ReadError String :=
  match String.fromUTF8? bytes with
  | some text => .ok text
  | none => .error .notText

inductive Node where
  | file (content : ByteArray)
  | folder

/-- The names on the way to each node, and the node. -/
structure FileTree where
  entries : List (List String × Node)

namespace FileTree

def pathNames (path : String) : List String :=
  (Text.fields '/' path.toList).map String.ofList

/-- The names of a path that lead somewhere else. -/
def steps (path : String) : List String :=
  (pathNames path).filter fun name => !(decide (name = "") || decide (name = "."))

def ofList (files : List (String × Node)) : FileTree :=
  ⟨files.map fun file => (steps file.1, file.2)⟩

/-- The node at a place in the tree. -/
def node? (tree : FileTree) (place : List String) : Option Node :=
  match tree.entries.find? fun entry => decide (entry.1 = place) with
  | some entry => some entry.2
  | none =>
      if place.isEmpty || tree.entries.any fun entry => place.isPrefixOf entry.1 then some .folder
      else none

/-- The greatest length of a name in bytes. -/
def nameLimit : Nat := 255

/-- The greatest length of a path in bytes. -/
def pathLimit : Nat := 4095

/-- The place above a place; `none` stands for the places above the tree. -/
def parent : Option (List String) → Option (List String)
  | none => none
  | some [] => none
  | some place => some place.dropLast

/-- The place of a name in a folder, and what is there. -/
def enter (tree : FileTree) (place : Option (List String)) (name : String) :
    Except ReadError (Option (List String) × Node) :=
  if nameLimit < Text.byteLength name.toList then .error .nameTooLong
  else
    match place with
    | none => .error .missing
    | some names =>
        match tree.node? (names ++ [name]) with
        | some node => .ok (some (names ++ [name]), node)
        | none => .error .missing

/-- Walks from a node at a place along the names. -/
def walk (tree : FileTree) (place : Option (List String)) (node : Node) :
    List String → Except ReadError Node
  | [] => .ok node
  | name :: rest =>
      match node with
      | .file _ => .error .notFolder
      | .folder =>
          if name = "" || name = "." then walk tree place .folder rest
          else if name = ".." then walk tree (parent place) .folder rest
          else
            match tree.enter place name with
            | .ok (next, found) => walk tree next found rest
            | .error error => .error error

/-- A path that starts with a slash starts above the tree. -/
def startOf (path : List Char) : Option (List String) :=
  match path with
  | '/' :: _ => none
  | _ => some []

def read (tree : FileTree) : FileAccess := fun path =>
  if path.toList.contains '\x00' then .error .nulInName
  else if path.isEmpty then .error .missing
  else if pathLimit < Text.byteLength path.toList then .error .nameTooLong
  else
    match tree.walk (startOf path.toList) .folder (pathNames path) with
    | .ok (.file content) => .ok content
    | .ok .folder => .error .isFolder
    | .error error => .error error

/-- Reads what a path leads to when it is joined to the folder of the tree: the empty path leads to
the folder itself. -/
def readJoined (tree : FileTree) : FileAccess := fun path =>
  tree.read (if path.isEmpty then "." else path)

end FileTree

end BLang
