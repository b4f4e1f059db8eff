import BLang.Diagnostic.Emitter
import BLang.Proofs.Scanning
import BLang.Proofs.SourceLines
import Mathlib.Data.List.Infix

/-!
# What a snippet tells

The report of a diagnostic shows its message, its file, its notes and its help.  In a source the
message is always shown, the rest only if the span, with its numbers taken for characters, does not
end behind the last of them; and of several notes only the last is shown.  So the snippet tells what
the report tells just for spans that do not end there and for at most one note.
-/

namespace BLang

open Text

namespace Text

/-- The part stands somewhere in the text. -/
def Shows (text part : String) : Prop :=
  part.toList <:+: text.toList

instance (text part : String) : Decidable (Shows text part) :=
  inferInstanceAs (Decidable (_ <:+: _))

theorem toList_painted_plain (pieces : List Piece) :
    (painted false pieces).toList = pieces.flatMap fun piece => piece.text.toList := by
  rw [painted, String.toList_ofList]
  exact congrArg (pieces.flatMap ·) (funext Piece.chars_plain)

variable {pieces : List Piece} {piece : Piece} {part : String}

/-- What stands in a piece stands in the whole. -/
theorem shows_painted (member : piece ∈ pieces) (inside : part.toList <:+: piece.text.toList) :
    Shows (painted false pieces) part := by
  obtain ⟨before, after, rfl⟩ := List.append_of_mem member
  rw [Shows, toList_painted_plain, List.flatMap_append, List.flatMap_cons]
  exact inside.trans (List.infix_append' _ _ _)

theorem length_le_of_shows {text part : String} (shows : Shows text part) :
    part.length ≤ text.length := by
  rw [← String.length_toList, ← String.length_toList]
  exact List.IsInfix.length_le shows

theorem toList_infix_append_left (part after : String) :
    part.toList <:+: (part ++ after).toList := by
  rw [String.toList_append]
  exact (List.prefix_append _ _).isInfix

theorem toList_infix_append_right (before part : String) :
    part.toList <:+: (before ++ part).toList := by
  rw [String.toList_append]
  exact (List.suffix_append _ _).isInfix

end Text

/-! ## The report -/

namespace Diagnostic

variable (diagnostic : Diagnostic)

/-- The texts of a diagnostic but for its label. -/
def texts : List String :=
  diagnostic.message :: (diagnostic.file.toList ++ diagnostic.notes ++ diagnostic.help.toList)

/-- The file is told first, alone or with the span. -/
theorem exists_location {file : String} (known : diagnostic.file = some file) :
    ∃ place, diagnostic.location = some (file ++ place) := by
  cases shown : diagnostic.span with
  | none => exact ⟨"", by simp [location, known, shown]⟩
  | some span =>
      refine ⟨":" ++ (Nat.repr span.start ++ ".." ++ Nat.repr span.stop), ?_⟩
      simp [location, known, shown, String.append_assoc]

/-- The characters of the lines, each with a newline after it. -/
def lineChars (texts : List String) : List Char :=
  texts.flatMap fun text => text.toList ++ ['\n']

theorem plainText_eq : diagnostic.plainText = String.ofList (lineChars diagnostic.lines) := by
  rw [plainText, ← String.toList_inj, String.toList_join, String.toList_ofList, lineChars,
    List.flatMap_map]
  simp only [String.toList_append]
  rfl

theorem plainChars_pieces :
    diagnostic.pieces.flatMap (Piece.chars false) = lineChars diagnostic.lines := by
  have title : [inked .boldRed "error", bare ": ", inked .bold diagnostic.message,
      newline].flatMap (Piece.chars false) = lineChars ["error: " ++ diagnostic.message] := by
    simp [lineChars, Piece.chars_plain]
  have place : diagnostic.locationPieces.flatMap (Piece.chars false) =
      lineChars (diagnostic.location.toList.map ("  --> " ++ ·)) := by
    unfold locationPieces
    cases diagnostic.location <;> simp [lineChars, Piece.chars_plain]
  have notes : (diagnostic.notes.flatMap notePieces).flatMap (Piece.chars false) =
      lineChars (diagnostic.notes.map ("  = note: " ++ ·)) := by
    rw [lineChars, List.flatMap_assoc, List.flatMap_map]
    congr 1
    funext note
    simp [notePieces, Piece.chars_plain]
  have help : (helpPieces diagnostic.help).flatMap (Piece.chars false) =
      lineChars (diagnostic.help.toList.map ("  = help: " ++ ·)) := by
    cases diagnostic.help <;>
      simp [helpPieces, lineChars, Piece.chars_plain]
  simp only [pieces, lines, List.flatMap_append, title, place, notes, help, lineChars]

/-- On a display that has no colours the report made for colours is the one without. -/
theorem painted_pieces : painted false diagnostic.pieces = diagnostic.plainText := by
  rw [painted, plainChars_pieces, plainText_eq]

theorem shows_report :
    ∀ part ∈ diagnostic.texts, Shows (Emitter.plain.report diagnostic) part := by
  intro part member
  rw [show Emitter.plain.report diagnostic = diagnostic.plainText from rfl, ← painted_pieces]
  unfold texts at member
  simp only [List.mem_cons, List.mem_append, Option.mem_toList] at member
  rcases member with rfl | (known | note) | help
  · have told : inked .bold diagnostic.message ∈ diagnostic.pieces := by simp [pieces]
    exact shows_painted told (List.infix_refl _)
  · obtain ⟨place, located⟩ := diagnostic.exists_location known
    have told : bare (part ++ place) ∈ diagnostic.pieces := by
      simp [pieces, locationPieces, located]
    exact shows_painted told (toList_infix_append_left part place)
  · have line : inked .gray ("note: " ++ part) ∈ diagnostic.notes.flatMap notePieces :=
      List.mem_flatMap.mpr ⟨part, note, by simp [notePieces]⟩
    have told : inked .gray ("note: " ++ part) ∈ diagnostic.pieces :=
      List.mem_append_left _ (List.mem_append_right _ line)
    exact shows_painted told (toList_infix_append_right "note: " part)
  · have told : inked .green ("help: " ++ part) ∈ diagnostic.pieces := by
      simp [pieces, helpPieces, Option.mem_def.mp help]
    exact shows_painted told (toList_infix_append_right "help: " part)

end Diagnostic

/-! ## The snippet -/

namespace Snippet

variable (diagnostic : Diagnostic) {source : List Char} {span : Span}

theorem pieces_of_lines {first last : Line} (begins : lineAt? source span.start = some first)
    (ends : lineAt? source (final span) = some last) :
    pieces diagnostic source span =
      titlePieces diagnostic ++ framePieces diagnostic source span first last := by
  rw [pieces, begins, ends]

/-- Of a span that ends behind the last character only the title is shown. -/
theorem pieces_of_beyond (beyond : source.length < final span) :
    pieces diagnostic source span = titlePieces diagnostic := by
  have none : lineAt? source (final span) = none := if_neg (Nat.not_le.mpr beyond)
  rw [pieces, none]
  cases lineAt? source span.start <;> exact List.append_nil _

/-- A span that ends at a character or at the end of a source is shown there. -/
theorem exists_pieces (filled : source ≠ []) (within : final span ≤ source.length) :
    ∃ first last, pieces diagnostic source span =
      titlePieces diagnostic ++ framePieces diagnostic source span first last := by
  obtain ⟨first, begins⟩ := exists_lineAt? filled ((Nat.le_max_left _ _).trans within)
  obtain ⟨last, ends⟩ := exists_lineAt? filled within
  exact ⟨first, last, pieces_of_lines diagnostic begins ends⟩

/-- The snippet without colours. -/
def plainText (diagnostic : Diagnostic) (source : String) (span : Span) : String :=
  painted false (pieces diagnostic source.toList span)

variable {first last : Line}

/-- What a row holds is in the frame. -/
theorem mem_framePieces {row : Row} {piece : Piece}
    (listed : row ∈ bodyRows span first last diagnostic.label ++
      footRows (footLink source span first last diagnostic.label) "Help" diagnostic.help ++
      footRows (footLink source span first last diagnostic.label) "Note"
        diagnostic.notes.getLast?)
    (inside : piece ∈ row.content) : piece ∈ framePieces diagnostic source span first last := by
  have drawn : piece ∈ row.pieces (gutterWidth last) :=
    List.mem_append_left _ (List.mem_append_right _ inside)
  exact List.mem_append_left _
    (List.mem_append_right _ (List.mem_flatMap.mpr ⟨row, listed, drawn⟩))

theorem mem_footRows (link : Link) (title text : String) :
    (⟨.unnumbered, link, [inked .footer title, bare (": " ++ text)]⟩ : Row) ∈
      footRows link title (some text) :=
  List.mem_cons_of_mem _ List.mem_cons_self

variable (source span first last)

theorem exists_file_mem : ∃ place, bare (diagnostic.file.getD anonymous ++ place) ∈
    framePieces diagnostic source span first last := by
  refine ⟨":" ++ (Nat.repr (first.number + 1) ++ ":" ++
    Nat.repr (span.start - first.offset + 1)), ?_⟩
  simp [framePieces, headPieces, String.append_assoc]

theorem help_mem {help : String} (known : diagnostic.help = some help) :
    bare (": " ++ help) ∈ framePieces diagnostic source span first last := by
  have row := mem_footRows (footLink source span first last diagnostic.label) "Help" help
  rw [← known] at row
  exact mem_framePieces diagnostic (List.mem_append_left _ (List.mem_append_right _ row))
    (List.mem_cons_of_mem _ List.mem_cons_self)

theorem last_note_mem {note : String} (known : diagnostic.notes.getLast? = some note) :
    bare (": " ++ note) ∈ framePieces diagnostic source span first last := by
  have row := mem_footRows (footLink source span first last diagnostic.label) "Note" note
  rw [← known] at row
  exact mem_framePieces diagnostic (List.mem_append_right _ row)
    (List.mem_cons_of_mem _ List.mem_cons_self)

/-- The notes before the last make no difference. -/
theorem pieces_eq_of_last_note {notes : List String}
    (same : notes.getLast? = diagnostic.notes.getLast?) :
    pieces { diagnostic with notes := notes } source span = pieces diagnostic source span := by
  unfold pieces framePieces
  rw [same]
  rfl

end Snippet

/-! ## What is shown in a source -/

variable {diagnostic : Diagnostic} {source : String} {span : Span}

/-- A span within the source is shown there. -/
theorem Emitter.reportIn_of_within (emitter : Emitter) (known : diagnostic.span = some span)
    (ordered : span.start ≤ span.stop) (bounded : span.stop ≤ source.utf8ByteSize) :
    emitter.reportIn diagnostic source =
      .ok (painted emitter.colors (Snippet.pieces diagnostic source.toList span)) := by
  have visible : visibleSpan diagnostic source.toList = some span := by
    rw [visibleSpan, known, Text.byteLength_toList]
    simp [Option.filter, bounded]
  simp [reportIn, visible, Nat.not_lt.mpr ordered]

namespace Snippet

theorem shows_message (diagnostic : Diagnostic) :
    Shows (plainText diagnostic source span) diagnostic.message := by
  have told : bare (" " ++ diagnostic.message) ∈ pieces diagnostic source.toList span := by
    simp [pieces, titlePieces]
  exact shows_painted told (toList_infix_append_right " " diagnostic.message)

/-- A span that ends up to the last character is shown with the file, the help and the last note. -/
theorem shows_of_within (diagnostic : Diagnostic) (filled : source ≠ "")
    (within : final span ≤ source.length) :
    Shows (plainText diagnostic source span) (diagnostic.file.getD anonymous) ∧
      (∀ help, diagnostic.help = some help → Shows (plainText diagnostic source span) help) ∧
      ∀ note, diagnostic.notes.getLast? = some note →
        Shows (plainText diagnostic source span) note := by
  have chars : source.toList ≠ [] := by simpa using filled
  rw [← String.length_toList] at within
  obtain ⟨first, last, drawn⟩ := exists_pieces diagnostic chars within
  have inFrame {piece : Piece} {part : String}
      (member : piece ∈ framePieces diagnostic source.toList span first last)
      (inside : part.toList <:+: piece.text.toList) :
      Shows (plainText diagnostic source span) part :=
    shows_painted (drawn ▸ List.mem_append_right _ member) inside
  refine ⟨?_, fun help known => ?_, fun note known => ?_⟩
  · obtain ⟨place, told⟩ := exists_file_mem diagnostic source.toList span first last
    exact inFrame told (toList_infix_append_left _ place)
  · exact inFrame (help_mem diagnostic _ _ _ _ known) (toList_infix_append_right ": " help)
  · exact inFrame (last_note_mem diagnostic _ _ _ _ known) (toList_infix_append_right ": " note)

end Snippet

namespace Diagnostic

/-- The report in the source shows the texts of the diagnostic and the name of the source. -/
def ShownIn (diagnostic : Diagnostic) (source : String) : Prop :=
  ∃ text, Emitter.plain.reportIn diagnostic source = .ok text ∧
    (∀ part ∈ diagnostic.texts, Shows text part) ∧
    Shows text (diagnostic.file.getD Snippet.anonymous)

theorem shownIn_iff (known : diagnostic.span = some span) (ordered : span.start ≤ span.stop)
    (bounded : span.stop ≤ source.utf8ByteSize) :
    diagnostic.ShownIn source ↔
      (∀ part ∈ diagnostic.texts, Shows (Snippet.plainText diagnostic source span) part) ∧
        Shows (Snippet.plainText diagnostic source span)
          (diagnostic.file.getD Snippet.anonymous) := by
  rw [ShownIn, Emitter.plain.reportIn_of_within known ordered bounded]
  simp [Emitter.plain, Snippet.plainText]

/-- With one note at most all texts are shown with a span that ends in the source. -/
theorem shownIn_of_within (known : diagnostic.span = some span) (ordered : span.start ≤ span.stop)
    (bounded : span.stop ≤ source.utf8ByteSize) (filled : source ≠ "")
    (within : Snippet.final span ≤ source.length) (few : diagnostic.notes.length ≤ 1) :
    diagnostic.ShownIn source := by
  obtain ⟨file, help, note⟩ := Snippet.shows_of_within diagnostic filled within
  refine (shownIn_iff known ordered bounded).mpr ⟨fun part member => ?_, file⟩
  unfold texts at member
  simp only [List.mem_cons, List.mem_append, Option.mem_toList] at member
  rcases member with rfl | (named | listed) | helps
  · exact Snippet.shows_message diagnostic
  · rwa [Option.mem_def.mp named] at file
  · obtain ⟨single, alone⟩ := List.length_eq_one_iff.mp
      (Nat.le_antisymm few (List.length_pos_of_mem listed))
    rw [alone, List.mem_singleton] at listed
    exact note part (by rw [alone, listed]; rfl)
  · exact help part helps

/-- A diagnostic of which the earliest note is given and all other texts are empty. -/
def noting (span : Span) (first : String) (others : Nat) : Diagnostic :=
  ⟨"", some span, none, none, first :: List.replicate others "", none⟩

/-- No note but the last is shown for every text of it. -/
theorem exists_not_shownIn (ordered : span.start ≤ span.stop)
    (bounded : span.stop ≤ source.utf8ByteSize) (others : Nat) :
    ∃ first, ¬ (noting span first (others + 1)).ShownIn source := by
  let quiet := Snippet.plainText (noting span "" (others + 1)) source span
  -- a note that is longer than the whole snippet, which does not depend on it
  let long := String.ofList (List.replicate (quiet.length + 1) 'a')
  refine ⟨long, fun shown => ?_⟩
  have told := ((shownIn_iff rfl ordered bounded).mp shown).1 long (by simp [texts, noting])
  have same : Snippet.plainText (noting span long (others + 1)) source span = quiet :=
    congrArg (painted false) (Snippet.pieces_eq_of_last_note (noting span "" (others + 1))
      source.toList span
      (by simp [noting, List.replicate_succ]))
  rw [same] at told
  have length := length_le_of_shows told
  simp [long] at length

/-- Behind the last character not even the name of the source is shown for every diagnostic. -/
theorem not_shownIn_of_beyond (ordered : span.start ≤ span.stop)
    (bounded : span.stop ≤ source.utf8ByteSize) (beyond : source.length < Snippet.final span)
    (notes : List String) :
    ¬ Diagnostic.ShownIn ⟨"", some span, none, none, notes, none⟩ source := by
  intro shown
  have told := ((shownIn_iff rfl ordered bounded).mp shown).2
  rw [← String.length_toList] at beyond
  rw [Snippet.plainText, Snippet.pieces_of_beyond _ beyond] at told
  have untold : ¬ Shows (painted false (Snippet.titlePieces (error ""))) Snippet.anonymous := by
    decide
  exact untold told

end Diagnostic

/-- For a span with its ends in order and within the bytes of a source, the report of a diagnostic
shows its message, its file, its notes and its help.  In the source the message is shown as well.
Its file or `<input>`, its help and its last note are shown there if the span, with its numbers taken
for characters, does not end behind the last of them.  With a given number of notes all of it is
shown for every diagnostic exactly if the span does not end there and there is one note at most. -/
theorem snippet_shows_texts_iff (source : String) (span : Span) (filled : source ≠ "")
    (ordered : span.start ≤ span.stop) (bounded : span.stop ≤ source.utf8ByteSize) :
    (∀ diagnostic : Diagnostic, diagnostic.span = some span →
      (∀ part ∈ diagnostic.texts, Shows (Emitter.plain.report diagnostic) part) ∧
      ∃ text, Emitter.plain.reportIn diagnostic source = .ok text ∧
        Shows text diagnostic.message ∧
        (Snippet.final span ≤ source.length →
          Shows text (diagnostic.file.getD Snippet.anonymous) ∧
          (∀ help, diagnostic.help = some help → Shows text help) ∧
          ∀ note, diagnostic.notes.getLast? = some note → Shows text note)) ∧
    ∀ count, (∀ diagnostic : Diagnostic, diagnostic.span = some span →
        diagnostic.notes.length = count → diagnostic.ShownIn source) ↔
      Snippet.final span ≤ source.length ∧ count ≤ 1 := by
  refine ⟨fun diagnostic known => ⟨diagnostic.shows_report, _,
    Emitter.plain.reportIn_of_within known ordered bounded, Snippet.shows_message diagnostic,
    Snippet.shows_of_within diagnostic filled⟩, fun count => ⟨fun shown => ⟨?_, ?_⟩, ?_⟩⟩
  · apply Nat.le_of_not_lt
    intro beyond
    exact Diagnostic.not_shownIn_of_beyond ordered bounded beyond (List.replicate count "")
      (shown _ rfl List.length_replicate)
  · apply Nat.le_of_not_lt
    intro several
    obtain ⟨others, rfl⟩ := Nat.exists_eq_add_of_le several
    obtain ⟨first, lost⟩ := Diagnostic.exists_not_shownIn ordered bounded others
    refine lost (shown _ rfl ?_)
    simp [Diagnostic.noting]
    omega
  · rintro ⟨within, few⟩ diagnostic known rfl
    exact Diagnostic.shownIn_of_within known ordered bounded filled within few

namespace Diagnostic

/-- What may be said of a misplaced word. -/
def misplacedMove : Diagnostic :=
  ⟨"unexpected 'move'", some ⟨5, 9⟩, some "here", some "patrol.bl", ["remove it"],
    some "see 'turnleft'"⟩

/-- All of it is shown behind a character of two bytes, since the word does not end the source. -/
theorem misplacedMove_shownIn :
    ("# é\nmove # walk" ≠ "" ∧ 5 ≤ 9 ∧ 9 ≤ "# é\nmove # walk".utf8ByteSize) ∧
      misplacedMove.ShownIn "# é\nmove # walk" := by
  have filled : "# é\nmove # walk" ≠ "" := by decide
  have ordered : (Span.mk 5 9).start ≤ (Span.mk 5 9).stop := by decide
  have bounded : (Span.mk 5 9).stop ≤ "# é\nmove # walk".utf8ByteSize := by decide
  have within : Snippet.final ⟨5, 9⟩ ≤ "# é\nmove # walk".length := by decide
  obtain ⟨_, exactly⟩ := snippet_shows_texts_iff _ ⟨5, 9⟩ filled ordered bounded
  exact ⟨⟨filled, ordered, bounded⟩,
    (exactly 1).mpr ⟨within, Nat.le_refl 1⟩ misplacedMove rfl rfl⟩

def twiceNoted : Diagnostic :=
  ⟨"m", some ⟨0, 1⟩, none, none, ["first", "second"], none⟩

def behindAccent : Diagnostic :=
  ⟨"m", some ⟨2, 2⟩, none, none, [], none⟩

/-- The first of two notes is not shown, and behind an accent at the end nothing but the message. -/
theorem texts_left_out :
    Emitter.plain.reportIn twiceNoted "x" =
        .ok "Error: m\n   ╭─[<input>:1:1]\n   │\n 1 │ x\n   │ \n   │ Note: second\n───╯\n" ∧
      ¬ twiceNoted.ShownIn "x" ∧
      Emitter.plain.reportIn behindAccent "é" = .ok "Error: m\n" ∧
      ¬ behindAccent.ShownIn "é" := by
  have noted : Emitter.plain.reportIn twiceNoted "x" =
      .ok "Error: m\n   ╭─[<input>:1:1]\n   │\n 1 │ x\n   │ \n   │ Note: second\n───╯\n" := by
    decide +kernel
  have accent : Emitter.plain.reportIn behindAccent "é" = .ok "Error: m\n" := by decide +kernel
  refine ⟨noted, ?_, accent, ?_⟩
  · rintro ⟨text, told, texts, _⟩
    rw [noted] at told
    obtain rfl := Except.ok.inj told
    have shown := texts "first" (by decide)
    exact absurd shown (by decide +kernel)
  · rintro ⟨text, told, _, file⟩
    rw [accent] at told
    obtain rfl := Except.ok.inj told
    exact absurd file (by decide +kernel)

end Diagnostic

end BLang
