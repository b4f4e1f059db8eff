/-! # The order of names

Names are kept in the order of their code points, character by character, a proper beginning
coming first. UTF-8 keeps that order, so it is the order of the encoded bytes as well. The order
is strict and total: of two different texts exactly one precedes the other. -/
namespace BLang.Text

def earlier : List Char → List Char → Bool
  | _, [] => false
  | [], _ :: _ => true
  | left :: lefts, right :: rights =>
      decide (left.toNat < right.toNat) ||
        (decide (left.toNat = right.toNat) && earlier lefts rights)

theorem earlier_cons (left right : Char) (lefts rights : List Char) :
    earlier (left :: lefts) (right :: rights) = true ↔
      left.toNat < right.toNat ∨ left.toNat = right.toNat ∧ earlier lefts rights = true := by
  simp only [earlier, Bool.or_eq_true, Bool.and_eq_true, decide_eq_true_eq]

theorem earlier_irrefl (chars : List Char) : earlier chars chars = false := by
  induction chars with
  | nil => rfl
  | cons char rest ih => simp [earlier, ih]

theorem earlier_trans (first second third : List Char)
    (left : earlier first second = true) (right : earlier second third = true) :
    earlier first third = true := by
  induction first generalizing second third with
  | nil =>
      cases second with
      | nil => exact absurd left (by simp [earlier])
      | cons char chars =>
          cases third with
          | nil => exact absurd right (by simp [earlier])
          | cons last lasts => rfl
  | cons head tail ih =>
      cases second with
      | nil => exact absurd left (by simp [earlier])
      | cons char chars =>
          cases third with
          | nil => exact absurd right (by simp [earlier])
          | cons last lasts =>
              rw [earlier_cons] at left right ⊢
              rcases left with less | ⟨same, left⟩
              · rcases right with after | ⟨equal, _⟩
                · exact Or.inl (Nat.lt_trans less after)
                · exact Or.inl (equal ▸ less)
              · rcases right with after | ⟨equal, right⟩
                · exact Or.inl (same ▸ after)
                · exact Or.inr ⟨same.trans equal, ih chars lasts left right⟩

theorem eq_of_not_earlier (left right : List Char)
    (forward : earlier left right = false) (backward : earlier right left = false) :
    left = right := by
  induction left generalizing right with
  | nil =>
      cases right with
      | nil => rfl
      | cons char chars => exact absurd forward (by simp [earlier])
  | cons head tail ih =>
      cases right with
      | nil => exact absurd backward (by simp [earlier])
      | cons char chars =>
          rw [← Bool.not_eq_true, earlier_cons] at forward backward
          have same : head.toNat = char.toNat := by
            have notLess : ¬ head.toNat < char.toNat := fun less => forward (Or.inl less)
            have notMore : ¬ char.toNat < head.toNat := fun more => backward (Or.inl more)
            omega
          have tails : tail = chars := ih chars
            (Bool.eq_false_iff.mpr fun less => forward (Or.inr ⟨same, less⟩))
            (Bool.eq_false_iff.mpr fun more => backward (Or.inr ⟨same.symm, more⟩))
          rw [tails, Char.toNat_inj.mp same]

def precedes (left right : String) : Bool :=
  earlier left.toList right.toList

theorem precedes_irrefl (text : String) : precedes text text = false :=
  earlier_irrefl text.toList

theorem precedes_trans {first second third : String}
    (left : precedes first second = true) (right : precedes second third = true) :
    precedes first third = true :=
  earlier_trans _ _ _ left right

theorem eq_of_not_precedes {left right : String}
    (forward : precedes left right = false) (backward : precedes right left = false) :
    left = right :=
  String.toList_inj.mp (eq_of_not_earlier _ _ forward backward)

end BLang.Text
