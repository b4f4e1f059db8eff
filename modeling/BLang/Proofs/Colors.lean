import BLang.Proofs.SnippetMarks

/-!
# Colours

With colours a report and a snippet hold escape sequences around their pieces and are otherwise the
same.  What is said of an error may itself hold escape characters, which then could not be told from
those of the colours.  If it holds none, taking the sequences out of the coloured text leaves the
text without colours.
-/

namespace BLang

namespace Text

/-! ## Escape sequences -/

/-- The characters that may stand between the bracket and the end of an escape sequence. -/
def isCode (char : Char) : Bool :=
  char.isDigit || char == ';'

/-- What comes after the escape sequence at the front, if there is one. -/
def behindSequence? : List Char → Option (List Char)
  | '\x1b' :: '[' :: rest =>
      match rest.dropWhile isCode with
      | 'm' :: later => some later
      | _ => none
  | _ => none

variable {chars later rest : List Char}

theorem length_lt_of_behindSequence? (found : behindSequence? chars = some later) :
    later.length < chars.length := by
  unfold behindSequence? at found
  split at found
  next rest =>
    have shorter : (rest.dropWhile isCode).length ≤ rest.length :=
      (List.dropWhile_suffix isCode).length_le
    split at found
    next closed =>
      cases found
      rw [closed] at shorter
      simp only [List.length_cons] at shorter ⊢
      omega
    next => cases found
  next => cases found

/-- The characters without the escape sequences among them. -/
def withoutSequences (chars : List Char) : List Char :=
  match found : behindSequence? chars with
  | some later =>
      have := length_lt_of_behindSequence? found
      withoutSequences later
  | none =>
      match chars with
      | [] => []
      | char :: rest => char :: withoutSequences rest
termination_by chars.length

/-- The text without its escape sequences. -/
def uncolored (text : String) : String :=
  String.ofList (withoutSequences text.toList)

theorem withoutSequences_of_behind (found : behindSequence? chars = some later) :
    withoutSequences chars = withoutSequences later := by
  rw [withoutSequences]
  split
  next other same => exact congrArg withoutSequences (Option.some.inj (same.symm.trans found))
  next none => cases none.symm.trans found

theorem withoutSequences_nil : withoutSequences [] = [] := by
  simp [withoutSequences, behindSequence?]

theorem withoutSequences_cons {char : Char} (other : char ≠ escape) (rest : List Char) :
    withoutSequences (char :: rest) = char :: withoutSequences rest := by
  have none : behindSequence? (char :: rest) = none := by
    unfold behindSequence?
    split
    next same => exact absurd (List.cons.inj same).1 other
    next => rfl
  rw [withoutSequences]
  split
  next later found => cases none.symm.trans found
  next => rfl

/-- A text without escape characters stays as it is. -/
theorem withoutSequences_append {text : List Char} (clean : escape ∉ text) (rest : List Char) :
    withoutSequences (text ++ rest) = text ++ withoutSequences rest := by
  induction text with
  | nil => rfl
  | cons char tail ih =>
      obtain ⟨other, later⟩ := List.ne_and_not_mem_of_not_mem_cons clean
      rw [List.cons_append, withoutSequences_cons other.symm, ih later, List.cons_append]

theorem withoutSequences_sequenceOf {code : String} (codes : ∀ char ∈ code.toList, isCode char)
    (rest : List Char) : withoutSequences (sequenceOf code ++ rest) = withoutSequences rest := by
  apply withoutSequences_of_behind
  have skipped : (code.toList ++ 'm' :: rest).dropWhile isCode = 'm' :: rest := by
    rw [List.dropWhile_append_of_pos codes]
    rfl
  simp [sequenceOf, escape, behindSequence?, skipped]

theorem withoutSequences_sequences {codes : List String}
    (all : ∀ code ∈ codes, ∀ char ∈ code.toList, isCode char) (rest : List Char) :
    withoutSequences (codes.flatMap sequenceOf ++ rest) = withoutSequences rest := by
  induction codes with
  | nil => rfl
  | cons code others ih =>
      obtain ⟨first, later⟩ := List.forall_mem_cons.mp all
      rw [List.flatMap_cons, List.append_assoc, withoutSequences_sequenceOf first, ih later]

theorem isCode_codes (ink : Ink) : ∀ code ∈ ink.codes, ∀ char ∈ code.toList, isCode char := by
  cases ink <;> simp [Ink.codes, isCode]

theorem withoutSequences_reset (rest : List Char) :
    withoutSequences (reset ++ rest) = withoutSequences rest := by
  have single : reset = sequenceOf "0" := rfl
  rw [single, withoutSequences_sequenceOf (by simp [isCode])]

/-! ## Painted pieces -/

def EscapeFree (text : String) : Prop :=
  escape ∉ text.toList

instance (text : String) : Decidable (EscapeFree text) :=
  inferInstanceAs (Decidable (_ ∉ _))

theorem resume_of_escapeFree (ink : Ink) {text : List Char} (clean : escape ∉ text) :
    ink.resume text = text := by
  induction text with
  | nil => rfl
  | cons char rest ih =>
      obtain ⟨other, later⟩ := List.ne_and_not_mem_of_not_mem_cons clean
      unfold Ink.resume
      split
      next same => cases same
      next same => exact absurd (List.cons.inj same).1.symm other
      next same =>
        cases same
        rw [ih later]

theorem withoutSequences_piece (colors : Bool) {piece : Piece} (clean : EscapeFree piece.text)
    (rest : List Char) :
    withoutSequences (piece.chars colors ++ rest) =
      piece.text.toList ++ withoutSequences rest := by
  unfold Piece.chars
  split
  next ink same =>
    rw [resume_of_escapeFree ink clean, List.append_assoc, List.append_assoc, Ink.opening,
      withoutSequences_sequences (isCode_codes ink), withoutSequences_append clean,
      withoutSequences_reset]
  next => exact withoutSequences_append clean rest

/-- The pieces hold no escape characters of their own. -/
def Clean (pieces : List Piece) : Prop :=
  ∀ piece ∈ pieces, EscapeFree piece.text

instance (pieces : List Piece) : Decidable (Clean pieces) :=
  inferInstanceAs (Decidable (∀ piece ∈ pieces, EscapeFree piece.text))

theorem uncolored_painted (colors : Bool) {pieces : List Piece} (clean : Clean pieces) :
    uncolored (painted colors pieces) = painted false pieces := by
  rw [uncolored, painted, String.toList_ofList, painted]
  congr 1
  induction pieces with
  | nil => exact withoutSequences_nil
  | cons piece rest ih =>
      obtain ⟨first, others⟩ := List.forall_mem_cons.mp clean
      rw [List.flatMap_cons, List.flatMap_cons, withoutSequences_piece colors first, ih others,
        piece.chars_plain]

/-! ## Texts without escape characters -/

@[simp]
theorem escapeFree_append (left right : String) :
    EscapeFree (left ++ right) ↔ EscapeFree left ∧ EscapeFree right := by
  simp only [EscapeFree, String.toList_append, List.mem_append, not_or]

@[simp]
theorem escapeFree_repr (number : Nat) : EscapeFree (Nat.repr number) := by
  have other : escape.isDigit = false := by decide
  rw [EscapeFree, Nat.toList_repr]
  exact Snippet.notMem_toDigits other number

theorem escapeFree_replicate {char : Char} (other : escape ≠ char) (count : Nat) :
    EscapeFree (String.ofList (List.replicate count char)) := by
  rw [EscapeFree, String.toList_ofList]
  exact fun member => other (List.eq_of_mem_replicate member)

@[simp]
theorem escapeFree_spaces (count : Nat) : EscapeFree (spaces count) :=
  escapeFree_replicate (by decide) count

@[simp]
theorem escapeFree_alignRight (width : Nat) (text : String) :
    EscapeFree (alignRight width text) ↔ EscapeFree text := by
  simp [alignRight]

theorem escapeFree_singleton {char : Char} (other : escape ≠ char) :
    EscapeFree (String.singleton char) := by
  simpa [EscapeFree] using other

@[simp]
theorem clean_nil : Clean [] :=
  List.forall_mem_nil _

@[simp]
theorem clean_cons (piece : Piece) (rest : List Piece) :
    Clean (piece :: rest) ↔ EscapeFree piece.text ∧ Clean rest :=
  List.forall_mem_cons

@[simp]
theorem clean_append (left right : List Piece) :
    Clean (left ++ right) ↔ Clean left ∧ Clean right :=
  List.forall_mem_append

theorem clean_flatMap {α : Type} {draw : α → List Piece} {items : List α}
    (each : ∀ item ∈ items, Clean (draw item)) : Clean (items.flatMap draw) := by
  intro piece member
  obtain ⟨item, listed, inside⟩ := List.mem_flatMap.mp member
  exact each item listed piece inside

end Text

/-! ## Reports -/

/-- Nothing that is said of the error holds an escape character. -/
structure Diagnostic.EscapeFree (diagnostic : Diagnostic) : Prop where
  message : Text.EscapeFree diagnostic.message
  label : ∀ label ∈ diagnostic.label, Text.EscapeFree label
  file : ∀ file ∈ diagnostic.file, Text.EscapeFree file
  notes : ∀ note ∈ diagnostic.notes, Text.EscapeFree note
  help : ∀ help ∈ diagnostic.help, Text.EscapeFree help

open Text

namespace Diagnostic

variable {diagnostic : Diagnostic}

theorem EscapeFree.location (clean : diagnostic.EscapeFree) :
    ∀ location ∈ diagnostic.location, Text.EscapeFree location := by
  have dots : Text.EscapeFree ".." := by decide
  have colon : Text.EscapeFree ":" := by decide
  have place : ∀ place ∈ diagnostic.span.map fun span =>
      Nat.repr span.start ++ ".." ++ Nat.repr span.stop, Text.EscapeFree place := by
    intro place known
    obtain ⟨span, _, rfl⟩ := Option.map_eq_some_iff.mp known
    simp [dots]
  intro location known
  simp only [Diagnostic.location] at known
  split at known
  next file stated named shown =>
    obtain rfl := Option.some.inj known
    simp [colon, clean.file file named, place stated shown]
  next file named _ =>
    obtain rfl := Option.some.inj known
    exact clean.file file named
  next => exact place location known

theorem EscapeFree.pieces (clean : diagnostic.EscapeFree) : Clean diagnostic.pieces := by
  have place : Clean diagnostic.locationPieces := by
    unfold locationPieces
    split
    next location known =>
      simp +decide [clean.location location known]
    next => exact clean_nil
  have notes : Clean (diagnostic.notes.flatMap notePieces) := by
    apply clean_flatMap
    intro note listed
    simp +decide [notePieces, clean.notes note listed]
  have help : Clean (helpPieces diagnostic.help) := by
    cases known : diagnostic.help with
    | none => exact clean_nil
    | some help => simp +decide [helpPieces, clean.help help known]
  simp +decide [Diagnostic.pieces, clean.message, place, notes, help]

end Diagnostic

/-! ## Snippets -/

namespace Snippet

variable {diagnostic : Diagnostic} {source : List Char} {line : Line} {label : String}

theorem clean_gutterPieces (width : Nat) (gutter : Gutter) : Clean (gutter.pieces width) := by
  cases gutter <;> simp +decide [Gutter.pieces]

theorem clean_linkPieces (link : Link) : Clean link.pieces := by
  cases link <;> decide

/-- What the rows hold beside their margin. -/
def CleanRows (rows : List Row) : Prop :=
  ∀ row ∈ rows, Clean row.content

theorem CleanRows.pieces {rows : List Row} (clean : CleanRows rows) (width : Nat) :
    Clean (rows.flatMap (Row.pieces width)) := by
  apply clean_flatMap
  intro row listed
  have ending : Clean [newline] := by decide
  simp only [Row.pieces, clean_append]
  exact ⟨⟨⟨clean_gutterPieces width row.gutter, clean_linkPieces row.link⟩, clean row listed⟩,
    ending⟩

theorem clean_strokes {draw : Nat → Piece × Piece}
    (drawn : ∀ position, EscapeFree (draw position).1.text ∧ EscapeFree (draw position).2.text)
    (line : Line) (count : Nat) : Clean (strokes line count draw) :=
  forall_mem_strokes drawn 0 count (shown line)

theorem escapeFree_underline (span : Span) (line : Line) (position : Nat) :
    EscapeFree (underline span line position).1.text ∧
      EscapeFree (underline span line position).2.text := by
  unfold underline
  split <;> split <;> decide

theorem escapeFree_pointer (span : Span) (line : Line) (position : Nat) :
    EscapeFree (pointer span line position).1.text ∧
      EscapeFree (pointer span line position).2.text := by
  unfold pointer
  split
  · decide
  · split <;> decide

theorem clean_labelPiece (clean : EscapeFree label) : Clean [labelPiece label] := by
  simp +decide [labelPiece, clean]

theorem clean_cells (outside : escape ∉ line.chars) (span : Span) :
    Clean (cells span line 0 (shown line)) := by
  apply forall_mem_cells
  · intro ink
    exact (by decide : EscapeFree " ")
  · intro char inside ink
    have kept : char ∈ line.chars := by
      have reversed := (List.dropWhile_suffix isBlank).subset (List.mem_reverse.mp inside)
      exact List.mem_reverse.mp reversed
    exact escapeFree_singleton fun same => outside (same ▸ kept)

theorem cleanRows_label (clean : EscapeFree label) (span : Span) (line : Line) :
    CleanRows (labelRows span line label) := by
  have below := clean_strokes (escapeFree_underline span line) line
  have leading := clean_strokes (escapeFree_pointer span line) line
  simp [CleanRows, labelRows, below, leading, clean_labelPiece clean]

theorem cleanRows_closing (clean : EscapeFree label) (line : Line) :
    CleanRows (closingRows line label) := by
  have gap (count : Nat) : Clean (strokes line count fun _ => (bare " ", bare " ")) :=
    clean_strokes (fun _ => by decide) line count
  have leading (count : Nat) :
      Clean (strokes line count fun _ => (inked .red "─", inked .red "─")) :=
    clean_strokes (fun _ => by decide) line count
  simp [CleanRows, closingRows, gap, leading, clean_labelPiece clean]

theorem cleanRows_single (outside : escape ∉ line.chars) {label : Option String}
    (clean : ∀ text ∈ label, EscapeFree text) (span : Span) :
    CleanRows (singleRows span line label) := by
  unfold singleRows
  split
  · have text : Clean (sourceRow span line .absent).content := clean_cells outside span
    refine List.forall_mem_cons.mpr ⟨text, ?_⟩
    cases known : label with
    | none => exact List.forall_mem_nil _
    | some label => exact cleanRows_label (clean label known) span line
  · exact List.forall_mem_singleton.mpr clean_nil

theorem cleanRows_labelled {first last : Line} (outside : escape ∉ first.chars)
    (otherOutside : escape ∉ last.chars) (clean : EscapeFree label) (span : Span) (final : Nat) :
    CleanRows (labelledRows span final first last label) := by
  have opening : Clean (sourceRow span first .opening).content := clean_cells outside span
  have joining : Clean (sourceRow span last .joining).content := clean_cells otherOutside span
  have skipped : Clean skippedRow.content := clean_nil
  unfold labelledRows
  refine List.forall_mem_cons.mpr ⟨opening, List.forall_mem_append.mpr ⟨?_, ?_⟩⟩
  · split
    · exact List.forall_mem_singleton.mpr skipped
    · exact List.forall_mem_nil _
  · split
    · exact List.forall_mem_cons.mpr ⟨joining, cleanRows_closing clean last⟩
    · exact List.forall_mem_nil _

theorem cleanRows_body {first last : Line} (outside : escape ∉ first.chars)
    (otherOutside : escape ∉ last.chars) {label : Option String}
    (clean : ∀ text ∈ label, EscapeFree text) (span : Span) :
    CleanRows (bodyRows span first last label) := by
  unfold bodyRows
  split
  · exact cleanRows_single outside clean span
  · cases known : label with
    | none => exact List.forall_mem_singleton.mpr clean_nil
    | some label => exact cleanRows_labelled outside otherOutside (clean label known) span _

theorem cleanRows_foot (link : Link) {title : String} (heading : EscapeFree title)
    {text : Option String} (clean : ∀ told ∈ text, EscapeFree told) :
    CleanRows (footRows link title text) := by
  have colon : EscapeFree ": " := by decide
  cases known : text with
  | none => exact List.forall_mem_nil _
  | some told =>
      simp [CleanRows, footRows, heading, colon, clean told known]

theorem clean_headPieces (span : Span) (first : Line) (width : Nat) {file : String}
    (clean : EscapeFree file) : Clean (headPieces span first width file) := by
  simp +decide [headPieces, clean]

theorem clean_closePieces (width : Nat) : Clean (closePieces width) := by
  have other : escape ≠ '─' := by decide
  have stroke := escapeFree_replicate other (width + 2)
  simp +decide [closePieces, stroke]

theorem clean_framePieces (clean : diagnostic.EscapeFree) {first last : Line}
    (outside : escape ∉ first.chars) (otherOutside : escape ∉ last.chars) (span : Span) :
    Clean (framePieces diagnostic source span first last) := by
  have file : EscapeFree (diagnostic.file.getD anonymous) := by
    cases known : diagnostic.file with
    | none => decide
    | some file => exact clean.file file known
  have note : ∀ note ∈ diagnostic.notes.getLast?, EscapeFree note :=
    fun note last => clean.notes note (List.mem_of_getLast? last)
  have body := cleanRows_body outside otherOutside clean.label span
  simp only [framePieces, clean_append]
  refine ⟨⟨clean_headPieces _ _ _ file, CleanRows.pieces ?_ _⟩, clean_closePieces _⟩
  refine List.forall_mem_append.mpr ⟨List.forall_mem_append.mpr ⟨body, ?_⟩, ?_⟩
  · exact cleanRows_foot _ (by decide) clean.help
  · exact cleanRows_foot _ (by decide) note

/-- A snippet holds what is said of the error and characters of the source. -/
theorem clean_pieces (clean : diagnostic.EscapeFree) (outside : escape ∉ source) (span : Span) :
    Clean (pieces diagnostic source span) := by
  have title : Clean (titlePieces diagnostic) := by
    simp +decide [titlePieces, clean.message]
  unfold pieces
  refine (clean_append _ _).mpr ⟨title, ?_⟩
  split
  next first last begins ends =>
    have firstOutside := fun member => outside (chars_subset_of_lineAt? begins member)
    have lastOutside := fun member => outside (chars_subset_of_lineAt? ends member)
    exact clean_framePieces clean firstOutside lastOutside span
  next => exact clean_nil

end Snippet

/-! ## Emitters -/

namespace Emitter

variable {diagnostic : Diagnostic}

theorem report_plain (diagnostic : Diagnostic) :
    plain.report diagnostic = String.ofList (Diagnostic.lineChars diagnostic.lines) :=
  diagnostic.plainText_eq

/-- Whichever renderer an emitter takes, its report is the pieces in the colours that appear. -/
theorem report_eq_painted (emitter : Emitter) (diagnostic : Diagnostic) :
    emitter.report diagnostic = painted emitter.colorReports diagnostic.pieces := by
  rw [report, colorReports]
  cases emitter.colors with
  | true => rfl
  | false => exact diagnostic.painted_pieces.symm

/-- A report with colours begins with an escape character. -/
theorem report_eq_plain_iff (emitter : Emitter) (diagnostic : Diagnostic) :
    emitter.report diagnostic = plain.report diagnostic ↔ emitter.colorReports = false := by
  rw [report_eq_painted, report_eq_painted, show plain.colorReports = false from rfl]
  constructor
  · intro same
    cases colors : emitter.colorReports with
    | false => rfl
    | true =>
        have first := congrArg (fun text : String => text.toList.head?) same
        simp only [colors, painted, String.toList_ofList] at first
        exact absurd first (by decide : some escape ≠ some 'e')
  · intro off
    rw [off]

theorem uncolored_report (clean : diagnostic.EscapeFree) (emitter : Emitter) :
    uncolored (emitter.report diagnostic) = plain.report diagnostic := by
  rw [report_eq_painted, report_eq_painted]
  exact uncolored_painted emitter.colorReports clean.pieces

theorem uncolored_reportIn (clean : diagnostic.EscapeFree) {source : String}
    (outside : EscapeFree source) (emitter : Emitter) :
    (emitter.reportIn diagnostic source).map uncolored = plain.reportIn diagnostic source := by
  unfold reportIn
  split
  next => exact congrArg Except.ok (uncolored_report clean emitter)
  next span visible =>
    split
    · rfl
    · exact congrArg Except.ok
        (uncolored_painted emitter.colors (Snippet.clean_pieces clean outside span))

/-- If nothing that is said of an error holds an escape character, taking the escape sequences out of
a report leaves the lines of the report without colours.  Only with the colours off, by the emitter
or by the display, the reports are the same at once.  In a source without escape characters, too,
the error is shown in the same way but for the escape sequences, or the span is refused with colours
and without them. -/
theorem colors_tell_nothing (diagnostic : Diagnostic) (clean : diagnostic.EscapeFree) :
    plain.report diagnostic = String.ofList (Diagnostic.lineChars diagnostic.lines) ∧
      (∀ emitter : Emitter,
        uncolored (emitter.report diagnostic) = plain.report diagnostic ∧
        (emitter.report diagnostic = plain.report diagnostic ↔ emitter.colorReports = false)) ∧
      ∀ source, EscapeFree source → ∀ emitter : Emitter,
        (emitter.reportIn diagnostic source).map uncolored =
          plain.reportIn diagnostic source := by
  refine ⟨report_plain diagnostic, fun emitter => ⟨?_, ?_⟩, fun source outside emitter => ?_⟩
  · exact uncolored_report clean emitter
  · exact report_eq_plain_iff emitter diagnostic
  · exact uncolored_reportIn clean outside emitter

/-- An error in two lines, with a label and a note. -/
def acrossLines : Diagnostic :=
  ⟨"m", some ⟨0, 3⟩, some "l", none, ["n"], none⟩

def acrossLinesText : String :=
  "Error: m\n   ╭─[<input>:1:1]\n   │\n 1 │ ╭─▶ a\n 2 │ ├─▶ b\n   │ │      \n" ++
    "   │ ╰────── l\n   │     \n   │     Note: n\n───╯\n"

theorem acrossLines_uncolored :
    (acrossLines.EscapeFree ∧ EscapeFree "a\nb") ∧
      plain.reportIn acrossLines "a\nb" = .ok acrossLinesText ∧
      ((⟨true, true⟩ : Emitter).reportIn acrossLines "a\nb").map uncolored =
        .ok acrossLinesText ∧
      (⟨true, true⟩ : Emitter).report acrossLines =
        "\x1b[1;31merror\x1b[0m: \x1b[1mm\x1b[0m\n  \x1b[1;34m-->\x1b[0m 0..3\n" ++
          "  \x1b[1;34m=\x1b[0m \x1b[90mnote: n\x1b[0m\n" ∧
      uncolored ((⟨true, true⟩ : Emitter).report acrossLines) =
        "error: m\n  --> 0..3\n  = note: n\n" ∧
      (⟨false, true⟩ : Emitter).report acrossLines = plain.report acrossLines := by
  have clean : acrossLines.EscapeFree :=
    ⟨by decide, by decide, by decide, by decide, by decide⟩
  have outside : EscapeFree "a\nb" := by decide
  obtain ⟨lines, report, snippet⟩ := colors_tell_nothing acrossLines clean
  have shown : plain.reportIn acrossLines "a\nb" = .ok acrossLinesText := by decide +kernel
  have told : String.ofList (Diagnostic.lineChars acrossLines.lines) =
      "error: m\n  --> 0..3\n  = note: n\n" := by decide +kernel
  refine ⟨⟨clean, outside⟩, shown, (snippet _ outside _).trans shown, by decide +kernel, ?_, ?_⟩
  · exact (report _).1.trans (lines.trans told)
  · exact (report _).2.mpr rfl

end Emitter

end BLang
