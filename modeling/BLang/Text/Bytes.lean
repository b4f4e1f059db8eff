/-! # Byte lengths

Positions in a source are counted in bytes of its UTF-8 form, while texts are read character by
character. The byte length of a list of characters joins the two. -/
namespace BLang.Text

def byteLength : List Char → Nat
  | [] => 0
  | char :: rest => char.utf8Size + byteLength rest

theorem byteLength_append (left right : List Char) :
    byteLength (left ++ right) = byteLength left + byteLength right := by
  induction left with
  | nil => exact (Nat.zero_add _).symm
  | cons char rest ih =>
      simp only [List.cons_append, byteLength, ih, Nat.add_assoc]

theorem length_le_byteLength (chars : List Char) : chars.length ≤ byteLength chars := by
  induction chars with
  | nil => exact Nat.le_refl 0
  | cons char rest ih =>
      have positive := char.utf8Size_pos
      simp only [List.length_cons, byteLength]
      omega

end BLang.Text
