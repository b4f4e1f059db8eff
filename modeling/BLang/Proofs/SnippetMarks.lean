import BLang.Proofs.SnippetTexts

/-!
# What a snippet marks

A snippet tells where its span begins: the head names the line and the column.  A span of one
character is told from every longer one that begins with it, be it by the rows that are shown, by
the ink of the next character or, behind the shown part of a line, by the stroke below it.
-/

namespace BLang

open Text

/-- The parts before and after the first mark are determined by the whole. -/
theorem append_cons_inj_of_first {α : Type} {left right rest other : List α} {mark : α}
    (outside : mark ∉ left) (otherOutside : mark ∉ right)
    (same : left ++ mark :: rest = right ++ mark :: other) : left = right ∧ rest = other := by
  induction left generalizing right with
  | nil =>
      cases right with
      | nil => exact ⟨rfl, (List.cons.inj same).2⟩
      | cons first tail => exact absurd List.mem_cons_self ((List.cons.inj same).1 ▸ otherOutside)
  | cons first tail ih =>
      cases right with
      | nil => exact absurd List.mem_cons_self ((List.cons.inj same).1 ▸ outside)
      | cons second others =>
          obtain ⟨rfl, later⟩ := List.cons.inj same
          obtain ⟨rfl, behind⟩ := ih (List.not_mem_of_not_mem_cons outside)
            (List.not_mem_of_not_mem_cons otherOutside) later
          exact ⟨rfl, behind⟩

namespace Snippet

/-! ## The head -/

theorem notMem_toDigits {char : Char} (other : char.isDigit = false) (number : Nat) :
    char ∉ Nat.toDigits 10 number := by
  intro member
  have digit := Nat.isDigit_of_mem_toDigits (by decide) (by decide) member
  rw [other] at digit
  cases digit

theorem eq_of_toDigits {number other : Nat} (same : Nat.toDigits 10 number = Nat.toDigits 10 other) :
    number = other := by
  rw [← Nat.ofDigitChars_ten_toDigits (n := number), same, Nat.ofDigitChars_ten_toDigits]

/-- The head names the line and the column. -/
theorem headPieces_inj {span other : Span} {first otherFirst : Line} {width otherWidth : Nat}
    {file : String}
    (same : headPieces span first width file = headPieces other otherFirst otherWidth file) :
    first.number = otherFirst.number ∧
      span.start - first.offset = other.start - otherFirst.offset := by
  simp only [headPieces, bare, List.cons.injEq, Piece.mk.injEq, true_and, and_true] at same
  have places := congrArg String.toList same.2.1
  simp only [String.append_assoc, String.toList_append, Nat.toList_repr] at places
  have digits := List.append_cancel_left (List.append_cancel_left places)
  have colon : ':'.isDigit = false := by decide
  obtain ⟨lines, columns⟩ := append_cons_inj_of_first (notMem_toDigits colon _)
    (notMem_toDigits colon _) digits
  exact ⟨Nat.succ.inj (eq_of_toDigits lines), Nat.succ.inj (eq_of_toDigits columns)⟩

theorem length_headPieces (span : Span) (first : Line) (width : Nat) (file : String) :
    (headPieces span first width file).length = 10 := by
  simp [headPieces]

variable {diagnostic : Diagnostic} {source : List Char} {span other : Span}

/-- What stands below the head. -/
def bodyPieces (diagnostic : Diagnostic) (source : List Char) (span : Span)
    (first last : Line) : List Piece :=
  let link := footLink source span first last diagnostic.label
  (bodyRows span first last diagnostic.label ++
    (footRows link "Help" diagnostic.help ++ footRows link "Note" diagnostic.notes.getLast?)).flatMap
      (Row.pieces (gutterWidth last)) ++ closePieces (gutterWidth last)

theorem framePieces_eq (diagnostic : Diagnostic) (source : List Char) (span : Span)
    (first last : Line) : framePieces diagnostic source span first last =
      headPieces span first (gutterWidth last) (diagnostic.file.getD anonymous) ++
        bodyPieces diagnostic source span first last := by
  simp only [framePieces, bodyPieces, List.append_assoc]

/-- Snippets that are the same name the same place and have the same rows. -/
theorem framePieces_inj {first last otherFirst otherLast : Line}
    (same : framePieces diagnostic source span first last =
      framePieces diagnostic source other otherFirst otherLast) :
    (first.number = otherFirst.number ∧
      span.start - first.offset = other.start - otherFirst.offset) ∧
      bodyPieces diagnostic source span first last =
        bodyPieces diagnostic source other otherFirst otherLast := by
  rw [framePieces_eq, framePieces_eq] at same
  obtain ⟨heads, bodies⟩ := List.append_inj same (by simp only [length_headPieces])
  exact ⟨headPieces_inj heads, bodies⟩

theorem framePieces_ne_nil (diagnostic : Diagnostic) (source : List Char) (span : Span)
    (first last : Line) : framePieces diagnostic source span first last ≠ [] :=
  List.cons_ne_nil _ _

/-- A snippet that is the same as one that is not left out is not left out either. -/
theorem exists_frames (filled : source ≠ []) (within : final other ≤ source.length)
    (same : pieces diagnostic source span = pieces diagnostic source other) :
    ∃ first last otherFirst otherLast,
      lineAt? source span.start = some first ∧ lineAt? source (final span) = some last ∧
      lineAt? source other.start = some otherFirst ∧
      lineAt? source (final other) = some otherLast ∧
      framePieces diagnostic source span first last =
        framePieces diagnostic source other otherFirst otherLast := by
  obtain ⟨otherFirst, otherBegins⟩ := exists_lineAt? filled ((Nat.le_max_left _ _).trans within)
  obtain ⟨otherLast, otherEnds⟩ := exists_lineAt? filled within
  have frame := pieces_of_lines diagnostic otherBegins otherEnds
  rw [← same, pieces, List.append_cancel_left_eq] at frame
  split at frame
  next first last begins ends =>
    exact ⟨first, last, otherFirst, otherLast, begins, ends, otherBegins, otherEnds, frame⟩
  next => exact absurd frame.symm (framePieces_ne_nil _ _ _ _ _)

/-- A snippet that is not left out determines where its span begins. -/
theorem start_eq_of_pieces_eq (filled : source ≠ []) (within : final other ≤ source.length)
    (same : pieces diagnostic source span = pieces diagnostic source other) :
    span.start = other.start := by
  obtain ⟨first, last, otherFirst, otherLast, begins, _, otherBegins, _, frames⟩ :=
    exists_frames filled within same
  obtain ⟨⟨numbers, columns⟩, _⟩ := framePieces_inj frames
  obtain rfl := eq_of_lineAt? begins otherBegins numbers
  have offset := offset_le_of_lineAt? begins
  have otherOffset := offset_le_of_lineAt? otherBegins
  omega

/-! ## Rows -/

theorem newline_notMem_link (link : Link) : newline ∉ link.pieces := by
  cases link <;> decide

theorem length_gutterPieces (width : Nat) (gutter : Gutter) : (gutter.pieces width).length = 3 := by
  cases gutter <;> simp only [Gutter.pieces, List.length_cons, List.length_nil]

/-- Rows that begin in the same way are the same up to their newlines. -/
theorem rowPieces_inj {row otherRow : Row} {width otherWidth : Nat} {rest otherRest : List Piece}
    (inRow : newline ∉ row.content) (inOther : newline ∉ otherRow.content)
    (same : row.pieces width ++ rest = otherRow.pieces otherWidth ++ otherRest) :
    row.gutter.pieces width = otherRow.gutter.pieces otherWidth ∧
      row.link.pieces ++ row.content = otherRow.link.pieces ++ otherRow.content ∧
      rest = otherRest := by
  unfold Row.pieces at same
  simp only [List.append_assoc] at same
  obtain ⟨gutters, others⟩ := List.append_inj same (by simp only [length_gutterPieces])
  simp only [← List.append_assoc _ _ ([newline] ++ _)] at others
  have left : newline ∉ row.link.pieces ++ row.content := by
    simp [newline_notMem_link, inRow]
  have right : newline ∉ otherRow.link.pieces ++ otherRow.content := by
    simp [newline_notMem_link, inOther]
  exact ⟨gutters, append_cons_inj_of_first left right others⟩

/-! ## The characters of a line -/

/-- A character as it is shown at a position of its line. -/
def cell (ink : Ink) (position : Nat) (char : Char) : List Piece :=
  if isBlank char then List.replicate (columns char position) (inked ink " ")
  else [inked ink (String.singleton char)]

def inkAt (span : Span) (position : Nat) : Ink :=
  if marks span position then .red else .unmarked

theorem cells_cons (span : Span) (line : Line) (position : Nat) (char : Char)
    (rest : List Char) : cells span line position (char :: rest) =
      cell (inkAt span (line.offset + position)) position char ++
        cells span line (position + 1) rest :=
  rfl

theorem columns_pos_of_isBlank {char : Char} (blank : isBlank char = true) (position : Nat) :
    0 < columns char position := by
  unfold columns
  split
  · have reached := Nat.lt_mul_div_succ position (show 0 < tabStop by decide)
    rw [Nat.mul_comm] at reached
    omega
  · simp

/-- Every character is shown by one piece at least, and all of them have its ink. -/
theorem exists_cell (position : Nat) (char : Char) : ∃ text count, ∀ ink,
    cell ink position char = List.replicate (count + 1) (inked ink text) := by
  unfold cell
  split
  next blank =>
    obtain ⟨count, some⟩ := Nat.exists_eq_add_of_lt (columns_pos_of_isBlank blank position)
    exact ⟨" ", count, fun ink => by rw [some, Nat.zero_add]⟩
  next => exact ⟨String.singleton char, 0, fun ink => rfl⟩

theorem length_cells (span other : Span) (line : Line) (position : Nat) (chars : List Char) :
    (cells span line position chars).length = (cells other line position chars).length := by
  induction chars generalizing position with
  | nil => rfl
  | cons char rest ih =>
      obtain ⟨text, count, shown⟩ := exists_cell position char
      simp only [cells_cons, shown, List.length_append, List.length_replicate, ih]

theorem forall_mem_cell {holds : Piece → Prop} {char : Char} {ink : Ink}
    (blank : holds (inked ink " ")) (single : holds (inked ink (String.singleton char)))
    (position : Nat) : ∀ piece ∈ cell ink position char, holds piece := by
  unfold cell
  split
  · exact fun piece member => List.eq_of_mem_replicate member ▸ blank
  · exact List.forall_mem_singleton.mpr single

/-- The characters of a line are shown as spaces or as they are. -/
theorem forall_mem_cells {holds : Piece → Prop} {chars : List Char}
    (blank : ∀ ink, holds (inked ink " "))
    (single : ∀ char ∈ chars, ∀ ink, holds (inked ink (String.singleton char)))
    (span : Span) (line : Line) (position : Nat) :
    ∀ piece ∈ cells span line position chars, holds piece := by
  induction chars generalizing position with
  | nil => exact List.forall_mem_nil _
  | cons char rest ih =>
      obtain ⟨first, others⟩ := List.forall_mem_cons.mp single
      rw [cells_cons, List.forall_mem_append]
      exact ⟨forall_mem_cell (blank _) (first _) position, ih others (position + 1)⟩

theorem newline_notMem_cells (span : Span) (line : Line) (position : Nat) (chars : List Char) :
    newline ∉ cells span line position chars := by
  have apart : ∀ piece ∈ cells span line position chars, piece ≠ newline :=
    forall_mem_cells (fun _ => nofun) (fun _ _ _ => nofun) span line position
  exact fun member => apart newline member rfl

/-- The characters of a line show which of them are marked. -/
theorem marks_eq_of_cells {line : Line} {position : Nat} {chars : List Char}
    (same : cells span line position chars = cells other line position chars) :
    ∀ count < chars.length,
      marks span (line.offset + position + count) =
        marks other (line.offset + position + count) := by
  induction chars generalizing position with
  | nil => exact fun _ none => absurd none (Nat.not_lt_zero _)
  | cons char rest ih =>
      obtain ⟨text, size, shown⟩ := exists_cell position char
      rw [cells_cons, cells_cons, shown, shown] at same
      obtain ⟨cells, later⟩ := List.append_inj same (by simp only [List.length_replicate])
      intro count within
      cases count with
      | zero =>
          have inks := (List.replicate_right_inj (Nat.succ_ne_zero size)).mp cells
          simp only [inked, Piece.mk.injEq, Option.some.injEq, inkAt] at inks
          revert inks
          simp only [Nat.add_zero]
          cases marks span (line.offset + position) <;>
            cases marks other (line.offset + position) <;> simp
      | succ count =>
          have next := ih later count (Nat.lt_of_succ_lt_succ within)
          simpa only [Nat.add_assoc, Nat.add_comm 1 count] using next

/-! ## The strokes below a line -/

variable {draw otherDraw : Nat → Piece × Piece}

theorem length_stroke (head tail : Piece) (count : Nat) :
    (stroke head tail count).length = count := by
  cases count with
  | zero => rfl
  | succ count => simp [stroke]

/-- Strokes that are the same are drawn alike behind the characters, where every position has one
column.  Below a character there may be none. -/
theorem draw_eq_of_strokes {position count otherCount : Nat} {chars : List Char}
    (same : strokesFrom draw position count chars =
      strokesFrom otherDraw position otherCount chars) {behind : Nat}
    (outside : chars.length ≤ behind) (inside : behind < count)
    (otherInside : behind < otherCount) :
    (draw (position + behind)).1 = (otherDraw (position + behind)).1 := by
  induction behind generalizing position count otherCount chars with
  | zero =>
      obtain rfl := List.eq_nil_of_length_eq_zero (Nat.le_zero.mp outside)
      obtain ⟨count, rfl⟩ := Nat.exists_eq_succ_of_ne_zero (Nat.ne_of_gt inside)
      obtain ⟨otherCount, rfl⟩ := Nat.exists_eq_succ_of_ne_zero (Nat.ne_of_gt otherInside)
      exact (List.cons.inj same).1
  | succ behind ih =>
      obtain ⟨count, rfl⟩ := Nat.exists_eq_succ_of_ne_zero (Nat.ne_zero_of_lt inside)
      obtain ⟨otherCount, rfl⟩ := Nat.exists_eq_succ_of_ne_zero (Nat.ne_zero_of_lt otherInside)
      have next (rest : List Char) (shorter : rest.length ≤ behind)
          (later : strokesFrom draw (position + 1) count rest =
            strokesFrom otherDraw (position + 1) otherCount rest) :
          (draw (position + (behind + 1))).1 = (otherDraw (position + (behind + 1))).1 := by
        have drawn := ih later shorter (Nat.lt_of_succ_lt_succ inside)
          (Nat.lt_of_succ_lt_succ otherInside)
        rwa [Nat.add_assoc, Nat.add_comm 1 behind] at drawn
      cases chars with
      | nil => exact next [] (Nat.zero_le _) (List.cons.inj same).2
      | cons char rest =>
          refine next rest (Nat.le_of_succ_le_succ outside) (List.append_inj same ?_).2
          rw [length_stroke, length_stroke]

theorem forall_mem_stroke {holds : Piece → Prop} {head tail : Piece} (first : holds head)
    (others : holds tail) (width : Nat) : ∀ piece ∈ stroke head tail width, holds piece := by
  cases width with
  | zero => exact List.forall_mem_nil _
  | succ width =>
      refine List.forall_mem_cons.mpr ⟨first, fun piece member => ?_⟩
      exact List.eq_of_mem_replicate member ▸ others

/-- What holds of all pieces that may be drawn holds of the strokes. -/
theorem forall_mem_strokes {holds : Piece → Prop}
    (drawn : ∀ position, holds (draw position).1 ∧ holds (draw position).2)
    (position count : Nat) (chars : List Char) :
    ∀ piece ∈ strokesFrom draw position count chars, holds piece := by
  induction count generalizing position chars with
  | zero => exact List.forall_mem_nil _
  | succ count ih =>
      obtain ⟨first, others⟩ := drawn position
      cases chars with
      | nil =>
          exact List.forall_mem_append.mpr ⟨forall_mem_stroke first others 1, ih _ _⟩
      | cons char rest =>
          exact List.forall_mem_append.mpr ⟨forall_mem_stroke first others _, ih _ _⟩

theorem newline_notMem_strokes (clear : ∀ position,
      (draw position).1 ≠ newline ∧ (draw position).2 ≠ newline)
    (position count : Nat) (chars : List Char) :
    newline ∉ strokesFrom draw position count chars := by
  have apart : ∀ piece ∈ strokesFrom draw position count chars, piece ≠ newline :=
    forall_mem_strokes clear position count chars
  exact fun member => apart newline member rfl

theorem underline_ne_newline (span : Span) (line : Line) (position : Nat) :
    (underline span line position).1 ≠ newline ∧ (underline span line position).2 ≠ newline := by
  unfold underline
  split <;> split <;> decide

/-! ## Longer spans -/

theorem final_single (position : Nat) : final ⟨position, position + 1⟩ = position := by
  simp only [final]
  omega

section

variable {first last : Line}

theorem bodyRows_within (same : first.number = last.number) (fits : span.stop ≤ first.stop)
    (label : String) : bodyRows span first last (some label) =
      sourceRow span first .absent :: labelRows span first label := by
  simp only [bodyRows, same, if_true, singleRows, fits]

theorem bodyRows_behind (same : first.number = last.number) (behind : ¬ span.stop ≤ first.stop)
    (label : Option String) :
    bodyRows span first last label = [⟨.unnumbered, .absent, []⟩] :=
  (if_pos same).trans (if_neg behind)

theorem exists_bodyRows_of_ne (apart : first.number ≠ last.number) (label : String) :
    ∃ more, bodyRows span first last (some label) = sourceRow span first .opening :: more :=
  ⟨_, if_neg apart⟩

/-- The rows of a snippet begin with those of its span. -/
theorem exists_bodyPieces (diagnostic : Diagnostic) (source : List Char) {row : Row}
    {more : List Row} (listed : bodyRows span first last diagnostic.label = row :: more) :
    ∃ rest, bodyPieces diagnostic source span first last =
      row.pieces (gutterWidth last) ++ (more.flatMap (Row.pieces (gutterWidth last)) ++ rest) := by
  let link := footLink source span first last diagnostic.label
  refine ⟨(footRows link "Help" diagnostic.help ++
    footRows link "Note" diagnostic.notes.getLast?).flatMap (Row.pieces (gutterWidth last)) ++
      closePieces (gutterWidth last), ?_⟩
  rw [bodyPieces, listed, List.cons_append, List.flatMap_cons, List.flatMap_append]
  simp only [List.append_assoc, link]

end

section

variable {position width otherWidth : Nat} {line : Line} {rest otherRest : List Piece}

/-- A line beside the text is not part of the text. -/
theorem opening_row_ne : (sourceRow span line .opening).pieces width ++ rest ≠
    (sourceRow other line .absent).pieces otherWidth ++ otherRest := by
  intro same
  obtain ⟨_, drawn, _⟩ := rowPieces_inj (newline_notMem_cells _ _ _ _)
    (newline_notMem_cells _ _ _ _) same
  have lengths := congrArg List.length drawn
  simp [sourceRow, Link.pieces, length_cells span other] at lengths
  omega

/-- A row with a line number is not one without. -/
theorem unnumbered_row_ne : (⟨.unnumbered, .absent, []⟩ : Row).pieces width ++ rest ≠
    (sourceRow other line .absent).pieces otherWidth ++ otherRest := by
  intro same
  obtain ⟨gutters, _⟩ := rowPieces_inj List.not_mem_nil (newline_notMem_cells _ _ _ _) same
  simp [sourceRow, Gutter.pieces, inked] at gutters

/-- The character behind a marked one shows whether it is marked, or else the stroke below it. -/
theorem marked_rows_ne (begins : line.offset ≤ position) (count : Nat) (label : String) :
    (sourceRow ⟨position, position + (count + 2)⟩ line .absent).pieces width ++
        ((labelRows ⟨position, position + (count + 2)⟩ line label).flatMap (Row.pieces width) ++
          rest) ≠
      (sourceRow ⟨position, position + 1⟩ line .absent).pieces otherWidth ++
        ((labelRows ⟨position, position + 1⟩ line label).flatMap (Row.pieces otherWidth) ++
          otherRest) := by
  intro same
  obtain ⟨_, chars, below⟩ := rowPieces_inj (newline_notMem_cells _ _ _ _)
    (newline_notMem_cells _ _ _ _) same
  simp only [labelRows, List.flatMap_cons, List.append_assoc] at below
  obtain ⟨_, drawn, _⟩ := rowPieces_inj (newline_notMem_strokes (underline_ne_newline _ _) _ _ _)
    (newline_notMem_strokes (underline_ne_newline _ _) _ _ _) below
  obtain ⟨before, rfl⟩ := Nat.exists_eq_add_of_le begins
  have marked : marks ⟨line.offset + before, line.offset + before + (count + 2)⟩
      (line.offset + (before + 1)) = true := by
    simp only [marks, Bool.and_eq_true, decide_eq_true_eq]
    omega
  have unmarked : marks ⟨line.offset + before, line.offset + before + 1⟩
      (line.offset + (before + 1)) = false := by
    simp only [marks, Bool.and_eq_false_iff, decide_eq_false_iff_not]
    omega
  -- blanks at the end of a line are not shown, so the next character may have no ink
  rcases Nat.lt_or_ge (before + 1) (shown line).length with onText | behind
  · have next := marks_eq_of_cells chars (before + 1) onText
    rw [Nat.add_zero line.offset, marked, unmarked] at next
    cases next
  · have next := draw_eq_of_strokes drawn behind (by omega) (by omega)
    have single : anchor ⟨line.offset + before, line.offset + before + 1⟩ line = before := by
      simp only [anchor]
      omega
    rw [Nat.zero_add, underline, underline, marked, unmarked, single] at next
    split at next <;> simp [inked, bare] at next

end

/-- A marked character is told from a longer span that begins with it. -/
theorem pieces_ne_of_longer {position : Nat} (inside : position < source.length) {label : String}
    (known : diagnostic.label = some label) (count : Nat) :
    pieces diagnostic source ⟨position, position + (count + 2)⟩ ≠
      pieces diagnostic source ⟨position, position + 1⟩ := by
  intro same
  have filled : source ≠ [] := List.ne_nil_of_length_pos (Nat.zero_lt_of_lt inside)
  have within : final ⟨position, position + 1⟩ ≤ source.length := by
    rw [final_single]
    exact Nat.le_of_lt inside
  obtain ⟨first, last, otherFirst, otherLast, begins, _, otherBegins, otherEnds, frames⟩ :=
    exists_frames filled within same
  rw [final_single] at otherEnds
  obtain rfl := Option.some.inj (begins.symm.trans otherBegins)
  obtain rfl := Option.some.inj (begins.symm.trans otherEnds)
  have bodies := (framePieces_inj frames).2
  have reached : position + 1 ≤ first.stop := lt_stop_of_lineAt? begins inside
  have otherRows : bodyRows ⟨position, position + 1⟩ first first diagnostic.label = _ :=
    known ▸ bodyRows_within rfl reached label
  obtain ⟨otherRest, otherBody⟩ := exists_bodyPieces diagnostic source otherRows
  rw [otherBody] at bodies
  -- the longer span may leave the line, with a line beside the text, or the source line unshown
  by_cases oneLine : first.number = last.number
  · by_cases fits : position + (count + 2) ≤ first.stop
    · have rows : bodyRows ⟨position, position + (count + 2)⟩ first last diagnostic.label = _ :=
        known ▸ bodyRows_within oneLine fits label
      obtain ⟨rest, body⟩ := exists_bodyPieces diagnostic source rows
      exact marked_rows_ne (offset_le_of_lineAt? begins) count label (body.symm.trans bodies)
    · have rows : bodyRows ⟨position, position + (count + 2)⟩ first last diagnostic.label = _ :=
        bodyRows_behind oneLine fits diagnostic.label
      obtain ⟨rest, body⟩ := exists_bodyPieces diagnostic source rows
      exact unnumbered_row_ne (body.symm.trans bodies)
  · obtain ⟨more, rows⟩ := exists_bodyRows_of_ne oneLine label
    rw [← known] at rows
    obtain ⟨rest, body⟩ := exists_bodyPieces diagnostic source rows
    exact opening_row_ne (body.symm.trans bodies)

end Snippet

end BLang
