/-! # Fields and padding

Cutting a text at a separator, joining texts with one between them, and filling a text with spaces
to a given number of characters. -/
namespace BLang.Text

/-- The stretches between the separators; there is always at least one, perhaps empty. -/
def fields (separator : Char) : List Char → List (List Char)
  | [] => [[]]
  | char :: rest =>
      if char = separator then [] :: fields separator rest
      else
        match fields separator rest with
        | [] => [[char]]
        | field :: others => (char :: field) :: others

def joined (separator : String) : List String → String
  | [] => ""
  | [text] => text
  | text :: rest => text ++ separator ++ joined separator rest

def spaces (count : Nat) : String :=
  String.ofList (List.replicate count ' ')

/-- The text at the right end of a field of the given width. -/
def alignRight (width : Nat) (text : String) : String :=
  spaces (width - text.length) ++ text

/-- The text at the left end of a field of the given width. -/
def alignLeft (width : Nat) (text : String) : String :=
  text ++ spaces (width - text.length)

end BLang.Text
