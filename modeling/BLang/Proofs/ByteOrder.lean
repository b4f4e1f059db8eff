import BLang.Text.Order
import Mathlib.Tactic.SplitIfs

/-!
# Code points and bytes

Names are compared by their code points.  In UTF-8 a smaller code point has the earlier bytes: the
first byte grows with the number of bytes, and the bytes of a character hold the digits of its code
point to the base 64 from the highest down.  So names are in the order of their bytes.
-/

namespace BLang.Text

/-- The bytes of a text in UTF-8. -/
def bytes (text : String) : List UInt8 :=
  text.toUTF8.data.toList

def encoded (chars : List Char) : List UInt8 :=
  chars.flatMap String.utf8EncodeChar

theorem bytes_eq (text : String) : bytes text = encoded text.toList := by
  have whole := String.toByteArray_ofList (l := text.toList)
  rw [String.ofList_toList] at whole
  rw [bytes, String.toUTF8_eq_toByteArray, whole, List.utf8Encode, List.data_toByteArray]
  rfl

/-! ## One character -/

theorem byte_eq_iff {left right : Nat} (leftSmall : left < 256) (rightSmall : right < 256) :
    UInt8.ofNat left = UInt8.ofNat right ↔ left = right := by
  rw [← UInt8.toNat_inj, UInt8.toNat_ofNat_of_lt' leftSmall, UInt8.toNat_ofNat_of_lt' rightSmall]

theorem byte_lt_iff {left right : Nat} (leftSmall : left < 256) (rightSmall : right < 256) :
    UInt8.ofNat left < UInt8.ofNat right ↔ left < right := by
  rw [UInt8.lt_iff_toNat_lt, UInt8.toNat_ofNat_of_lt' leftSmall,
    UInt8.toNat_ofNat_of_lt' rightSmall]

theorem digit_lt {left right : Nat} (less : left < right) :
    left / 64 < right / 64 ∨ left / 64 = right / 64 ∧ left % 64 < right % 64 := by
  omega

/-- Of two code points the first digit in which they differ decides. -/
theorem digits_lt {left right : Nat} (less : left < right) (bound : right < 0x110000) :
    left / 262144 % 8 < right / 262144 % 8 ∨ left / 262144 % 8 = right / 262144 % 8 ∧
      (left / 4096 % 64 < right / 4096 % 64 ∨ left / 4096 % 64 = right / 4096 % 64 ∧
        (left / 64 % 64 < right / 64 % 64 ∨ left / 64 % 64 = right / 64 % 64 ∧
          left % 64 < right % 64)) := by
  rcases digit_lt less with higher | ⟨same, last⟩
  · rcases digit_lt higher with highest | ⟨same, second⟩
    · rcases digit_lt highest with first | ⟨same, third⟩
      · omega
      · omega
    · omega
  · omega

theorem toNat_lt (char : Char) : char.toNat < 0x110000 := by
  rcases char.valid with low | high
  · exact Nat.lt_trans low (by decide)
  · exact high.2

/-- The bytes of a smaller character come before those of a greater one, whatever follows them. -/
theorem utf8EncodeChar_lt {left right : Char} (less : left.toNat < right.toNat)
    (lefts rights : List UInt8) :
    String.utf8EncodeChar left ++ lefts < String.utf8EncodeChar right ++ rights := by
  have digits := digits_lt less (toNat_lt right)
  have bound := toNat_lt right
  unfold String.utf8EncodeChar
  change left.val.toNat < right.val.toNat at less
  change right.val.toNat < _ at bound
  dsimp only [Char.toNat] at digits
  dsimp only
  generalize left.val.toNat = small at *
  generalize right.val.toNat = great at *
  -- with different numbers of bytes the first byte decides, with equal ones the digits do
  split_ifs <;>
    simp (disch := omega) only [List.cons_append, List.nil_append, List.cons_lt_cons_iff,
      byte_lt_iff, byte_eq_iff] <;>
    omega

theorem utf8EncodeChar_eq_cons (char : Char) :
    ∃ first rest, String.utf8EncodeChar char = first :: rest := by
  unfold String.utf8EncodeChar
  dsimp only
  split_ifs
  all_goals exact ⟨_, _, rfl⟩

/-! ## Whole texts -/

theorem append_lt_append (front : List UInt8) {left right : List UInt8} (less : left < right) :
    front ++ left < front ++ right := by
  induction front with
  | nil => exact less
  | cons byte rest ih => exact List.cons_lt_cons_iff.mpr (Or.inr ⟨rfl, ih⟩)

theorem encoded_lt_of_earlier {lefts rights : List Char} (before : earlier lefts rights = true) :
    encoded lefts < encoded rights := by
  induction lefts generalizing rights with
  | nil =>
      cases rights with
      | nil => cases before
      | cons char chars =>
          obtain ⟨first, rest, bytes⟩ := utf8EncodeChar_eq_cons char
          rw [encoded, encoded, List.flatMap_cons, bytes]
          exact List.nil_lt_cons first _
  | cons left lefts ih =>
      cases rights with
      | nil => cases before
      | cons right rights =>
          rcases (earlier_cons left right lefts rights).mp before with less | ⟨same, later⟩
          · exact utf8EncodeChar_lt less _ _
          · rw [Char.toNat_inj.mp same]
            exact append_lt_append _ (ih later)

/-- The order of names is that of their bytes. -/
theorem precedes_iff_bytes_lt (left right : String) :
    precedes left right = true ↔ bytes left < bytes right := by
  rw [bytes_eq, bytes_eq]
  constructor
  · exact encoded_lt_of_earlier
  · intro less
    rw [← Bool.not_eq_false]
    intro notBefore
    cases after : precedes right left with
    | true => exact List.lt_asymm less (encoded_lt_of_earlier after)
    | false =>
        rw [eq_of_not_precedes notBefore after] at less
        exact List.lt_irrefl _ less

end BLang.Text
