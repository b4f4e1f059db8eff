import BLang.Text.Line

/-!
# Lines and positions

The lines of a source follow one another without a gap, each with a number of its own.  So a position
up to the last character lies in one line, which its number determines, and the position of a
character lies before the end of that line.
-/

namespace BLang.Text

variable {number offset position : Nat} {chunks : List (List Char)} {source : List Char}

theorem number_le_of_mem_numbered {line : Line} (member : line ∈ numbered number offset chunks) :
    number ≤ line.number := by
  induction chunks generalizing number offset with
  | nil => cases member
  | cons chars rest ih =>
      rcases List.mem_cons.mp member with rfl | later
      · exact Nat.le_refl number
      · exact Nat.le_of_succ_le (ih later)

/-- A line is determined by its number. -/
theorem eq_of_mem_numbered {first second : Line}
    (firstMember : first ∈ numbered number offset chunks)
    (secondMember : second ∈ numbered number offset chunks)
    (same : first.number = second.number) : first = second := by
  induction chunks generalizing number offset with
  | nil => cases firstMember
  | cons chars rest ih =>
      rcases List.mem_cons.mp firstMember with rfl | firstLater
      · rcases List.mem_cons.mp secondMember with rfl | secondLater
        · rfl
        · exact absurd (number_le_of_mem_numbered secondLater) (by simp [← same])
      · rcases List.mem_cons.mp secondMember with rfl | secondLater
        · exact absurd (number_le_of_mem_numbered firstLater) (by simp [same])
        · exact ih firstLater secondLater

theorem chars_mem_of_mem_numbered {line : Line} (member : line ∈ numbered number offset chunks) :
    line.chars ∈ chunks := by
  induction chunks generalizing number offset with
  | nil => cases member
  | cons chars rest ih =>
      rcases List.mem_cons.mp member with rfl | later
      · exact List.mem_cons_self
      · exact List.mem_cons_of_mem _ (ih later)

/-- The position of a character lies before the end of its line, the last that begins up to there. -/
theorem lt_stop_of_numbered {front back : List Line} {line : Line}
    (split : numbered number offset chunks = front ++ line :: back)
    (later : ∀ next ∈ back, position < next.offset)
    (bounded : position < offset + chunks.flatten.length) : position < line.stop := by
  induction chunks generalizing number offset front with
  | nil => cases front <;> cases split
  | cons chars rest ih =>
      rw [List.flatten_cons, List.length_append] at bounded
      cases front with
      | nil =>
          obtain ⟨rfl, rfl⟩ := List.cons.inj split
          cases rest with
          | nil => simpa [Line.stop] using bounded
          | cons next others => exact later _ List.mem_cons_self
      | cons first front => exact ih (List.cons.inj split).2 (by omega)

theorem split_of_lineAt? {line : Line} (found : lineAt? source position = some line) :
    ∃ front back, lines source = front ++ line :: back ∧ line.offset ≤ position ∧
      ∀ next ∈ back, position < next.offset := by
  unfold lineAt? at found
  split at found
  · obtain ⟨begins, after, before, split, none⟩ := List.find?_eq_some_iff_append.mp found
    refine ⟨before.reverse, after.reverse, ?_, of_decide_eq_true begins, fun next member => ?_⟩
    · have whole := congrArg List.reverse split
      simpa using whole
    · simpa using none next (List.mem_reverse.mp member)
  · cases found

theorem offset_le_of_lineAt? {line : Line} (found : lineAt? source position = some line) :
    line.offset ≤ position := by
  obtain ⟨_, _, _, begins, _⟩ := split_of_lineAt? found
  exact begins

theorem lt_stop_of_lineAt? {line : Line} (found : lineAt? source position = some line)
    (bounded : position < source.length) : position < line.stop := by
  obtain ⟨_, _, split, _, later⟩ := split_of_lineAt? found
  refine lt_stop_of_numbered split later ?_
  rwa [splitLines_flatten, Nat.zero_add]

theorem chars_subset_of_lineAt? {line : Line} (found : lineAt? source position = some line) :
    line.chars ⊆ source := by
  obtain ⟨_, _, split, _⟩ := split_of_lineAt? found
  have member : line ∈ lines source := by simp [split]
  have chunk := chars_mem_of_mem_numbered member
  intro char inside
  rw [← splitLines_flatten source]
  exact List.mem_flatten_of_mem chunk inside

theorem eq_of_lineAt? {other : Nat} {first second : Line}
    (found : lineAt? source position = some first)
    (otherFound : lineAt? source other = some second)
    (same : first.number = second.number) : first = second := by
  obtain ⟨_, _, split, _⟩ := split_of_lineAt? found
  obtain ⟨_, _, otherSplit, _⟩ := split_of_lineAt? otherFound
  have member : first ∈ lines source := by simp [split]
  have otherMember : second ∈ lines source := by simp [otherSplit]
  exact eq_of_mem_numbered member otherMember same

/-- Up to the end of a source that is not empty every position lies in a line. -/
theorem exists_lineAt? (filled : source ≠ []) (bounded : position ≤ source.length) :
    ∃ line, lineAt? source position = some line := by
  rw [lineAt?, if_pos bounded, ← Option.isSome_iff_exists, List.find?_isSome]
  cases chunks : splitLines source with
  | nil =>
      have whole := splitLines_flatten source
      rw [chunks] at whole
      exact absurd whole.symm filled
  | cons chars rest =>
      have first : (⟨0, 0, chars⟩ : Line) ∈ lines source := by
        rw [lines, chunks]
        exact List.mem_cons_self
      exact ⟨_, List.mem_reverse.mpr first, decide_eq_true (Nat.zero_le position)⟩

end BLang.Text
