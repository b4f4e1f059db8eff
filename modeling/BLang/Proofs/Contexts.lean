import BLang.Context
import Mathlib.Data.List.Nodup

/-!
# What a context holds

A context is determined by the definitions in it.  Looking up a name finds the one definition with
that name, and an insertion adds the new definition and drops an earlier one of the same name.  A
list of definitions with different names is listed by exactly one context.
-/

namespace BLang

namespace Instruction

theorem name_ne_of_before {left right : Instruction} (before : left.Before right) :
    left.name ≠ right.name := by
  intro same
  have precedes : Text.precedes left.name right.name = true := before
  rw [same, Text.precedes_irrefl] at precedes
  cases precedes

/-- After an insertion the new definition is there, and of the old ones those with other names. -/
theorem mem_place_iff {new other : Instruction} {entries : List Instruction}
    (ordered : entries.Pairwise Before) :
    other ∈ place new entries ↔ other = new ∨ other ∈ entries ∧ other.name ≠ new.name := by
  induction entries with
  | nil => simp [place]
  | cons old rest ih =>
      obtain ⟨oldFirst, restOrdered⟩ := List.pairwise_cons.mp ordered
      unfold place
      split
      next front =>
        have apart : ∀ later ∈ old :: rest, later.name ≠ new.name := by
          intro later member
          rcases List.mem_cons.mp member with rfl | inRest
          · exact (name_ne_of_before front).symm
          · exact (name_ne_of_before (Text.precedes_trans front (oldFirst later inRest))).symm
        rw [List.mem_cons]
        exact or_congr_right ⟨fun member => ⟨member, apart other member⟩, fun both => both.1⟩
      next notFront =>
        split
        next back =>
          rw [List.mem_cons, ih restOrdered, List.mem_cons, or_and_right, or_left_comm]
          apply or_congr_right
          apply or_congr_left
          refine ⟨?_, fun both => both.1⟩
          rintro rfl
          exact ⟨rfl, name_ne_of_before back⟩
        next notBack =>
          have same := name_eq_of_not_before notFront notBack
          rw [List.mem_cons, List.mem_cons]
          refine or_congr_right ⟨fun member => ⟨Or.inr member, ?_⟩, ?_⟩
          · rw [same]
            exact (name_ne_of_before (oldFirst other member)).symm
          · rintro ⟨rfl | member, different⟩
            · exact absurd same.symm different
            · exact member

end Instruction

namespace Context

theorem names_nodup (context : Context) :
    (context.entries.map Instruction.name).Nodup := by
  rw [List.Nodup, List.pairwise_map]
  exact context.ordered.imp Instruction.name_ne_of_before

theorem contains_iff (context : Context) (name : String) :
    context.contains name = true ↔ name ∈ context.entries.map Instruction.name := by
  simp only [contains, List.any_eq_true, decide_eq_true_eq, List.mem_map]

theorem get?_eq_some_iff (context : Context) (name : String) (body : Block) :
    context.get? name = some body ↔ (⟨name, body⟩ : Instruction) ∈ context.entries := by
  rw [get?, Option.map_eq_some_iff]
  constructor
  · rintro ⟨entry, found, rfl⟩
    have same : entry.name = name := by simpa using List.find?_some found
    subst same
    exact List.mem_of_find?_eq_some found
  · intro member
    cases found : context.entries.find? (fun entry => decide (entry.name = name)) with
    | none => exact absurd (List.find?_eq_none.mp found _ member) (by simp)
    | some entry =>
        have same : entry.name = name := by simpa using List.find?_some found
        have unique := List.inj_on_of_nodup_map context.names_nodup
          (List.mem_of_find?_eq_some found) member same
        exact ⟨entry, rfl, by rw [unique]⟩

theorem mem_insert_iff (context : Context) (new other : Instruction) :
    other ∈ (context.insert new).entries ↔
      other = new ∨ other ∈ context.entries ∧ other.name ≠ new.name :=
  Instruction.mem_place_iff context.ordered

/-- Two contexts with the same definitions are the same. -/
theorem ext_entries {left right : Context}
    (same : ∀ entry, entry ∈ left.entries ↔ entry ∈ right.entries) : left = right := by
  have apart (context : Context) : context.entries.Nodup :=
    List.Nodup.of_map Instruction.name context.names_nodup
  have perm : left.entries.Perm right.entries :=
    (List.perm_ext_iff_of_nodup (apart left) (apart right)).mpr same
  have entries : left.entries = right.entries := by
    apply List.Perm.eq_of_pairwise ?_ left.ordered right.ordered perm
    intro first second _ _ forward backward
    exact absurd rfl (Instruction.name_ne_of_before (Text.precedes_trans forward backward))
  cases left
  cases right
  cases entries
  rfl

/-- The context holds exactly the listed definitions, and their names are different. -/
structure Lists (context : Context) (definitions : List Instruction) : Prop where
  distinct : (definitions.map Instruction.name).Nodup
  entries : ∀ entry, entry ∈ context.entries ↔ entry ∈ definitions

namespace Lists

variable {context : Context} {definitions : List Instruction}

theorem empty : Context.empty.Lists [] :=
  ⟨List.nodup_nil, fun _ => Iff.rfl⟩

theorem self (context : Context) : context.Lists context.entries :=
  ⟨context.names_nodup, fun _ => Iff.rfl⟩

theorem contains_iff (lists : context.Lists definitions) (name : String) :
    context.contains name = true ↔ name ∈ definitions.map Instruction.name := by
  simp only [Context.contains_iff, List.mem_map, lists.entries]

theorem get?_eq_some_iff (lists : context.Lists definitions) (name : String) (body : Block) :
    context.get? name = some body ↔ (⟨name, body⟩ : Instruction) ∈ definitions :=
  (Context.get?_eq_some_iff context name body).trans (lists.entries _)

/-- A definition of a new name is added at the end of the list. -/
theorem insert (lists : context.Lists definitions) {new : Instruction}
    (unused : context.contains new.name = false) :
    (context.insert new).Lists (definitions ++ [new]) := by
  have notListed : new.name ∉ definitions.map Instruction.name := by
    rwa [← lists.contains_iff, Bool.not_eq_true]
  constructor
  · rw [List.map_append, List.map_singleton, List.nodup_append]
    refine ⟨lists.distinct, List.nodup_singleton _, ?_⟩
    intro name listed other single same
    rw [List.mem_singleton.mp single] at same
    exact notListed (same ▸ listed)
  · intro entry
    rw [mem_insert_iff, lists.entries, List.mem_append, List.mem_singleton, or_comm]
    refine or_congr_left ⟨fun both => both.1, fun listed => ⟨listed, ?_⟩⟩
    exact fun same => notListed (List.mem_map.mpr ⟨entry, listed, same⟩)

theorem unique {other : Context} (lists : context.Lists definitions)
    (otherLists : other.Lists definitions) : context = other :=
  ext_entries fun entry => (lists.entries entry).trans (otherLists.entries entry).symm

end Lists

/-- A context in which looking up finds just the definitions lists them. -/
theorem lists_of_get? {context : Context} {definitions : List Instruction}
    (distinct : (definitions.map Instruction.name).Nodup)
    (found : ∀ name body,
      context.get? name = some body ↔ (⟨name, body⟩ : Instruction) ∈ definitions) :
    context.Lists definitions :=
  ⟨distinct, fun entry => (context.get?_eq_some_iff entry.name entry.body).symm.trans
    (found entry.name entry.body)⟩

end Context

end BLang
