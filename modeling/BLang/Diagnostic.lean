import BLang.Span

/-! # Diagnostics

What is said about an error: a message, and perhaps a place, a label for the place, a file, notes in
the order in which they were added, and a piece of help. -/
namespace BLang

structure Diagnostic where
  message : String
  span : Option Span
  label : Option String
  file : Option String
  notes : List String
  help : Option String
  deriving DecidableEq

namespace Diagnostic

def error (message : String) : Diagnostic :=
  ⟨message, none, none, none, [], none⟩

def withSpan (diagnostic : Diagnostic) (span : Span) : Diagnostic :=
  { diagnostic with span := some span }

def withLabel (diagnostic : Diagnostic) (label : String) : Diagnostic :=
  { diagnostic with label := some label }

def withFile (diagnostic : Diagnostic) (file : String) : Diagnostic :=
  { diagnostic with file := some file }

def withNote (diagnostic : Diagnostic) (note : String) : Diagnostic :=
  { diagnostic with notes := diagnostic.notes ++ [note] }

def withHelp (diagnostic : Diagnostic) (help : String) : Diagnostic :=
  { diagnostic with help := some help }

end Diagnostic

end BLang
