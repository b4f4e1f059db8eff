import BLang.Text.Order
import BLang.Statement

/-! # Contexts

The instructions a program defines, each under its own name. They are held in the order of their
names, so that two contexts with the same definitions are the same context. -/
namespace BLang

structure Instruction where
  name : String
  body : Block
  deriving DecidableEq

namespace Instruction

def Before (left right : Instruction) : Prop :=
  Text.precedes left.name right.name = true

instance (left right : Instruction) : Decidable (Before left right) :=
  inferInstanceAs (Decidable (_ = true))

/-- Puts an instruction at its place, instead of one with the same name. -/
def place (new : Instruction) : List Instruction → List Instruction
  | [] => [new]
  | old :: rest =>
      if new.Before old then new :: old :: rest
      else if old.Before new then old :: place new rest
      else new :: rest

theorem name_eq_of_not_before {left right : Instruction}
    (forward : ¬ left.Before right) (backward : ¬ right.Before left) : left.name = right.name :=
  Text.eq_of_not_precedes (Bool.eq_false_iff.mpr forward) (Bool.eq_false_iff.mpr backward)

theorem mem_place {new other : Instruction} {entries : List Instruction}
    (member : other ∈ place new entries) : other = new ∨ other ∈ entries := by
  induction entries with
  | nil => exact Or.inl (List.mem_singleton.mp member)
  | cons old rest ih =>
      rw [place] at member
      split at member
      · exact List.mem_cons.mp member
      · split at member
        · rcases List.mem_cons.mp member with same | later
          · exact Or.inr (same ▸ List.mem_cons_self)
          · exact (ih later).imp id (List.mem_cons_of_mem old)
        · exact (List.mem_cons.mp member).imp id (List.mem_cons_of_mem old)

theorem pairwise_place (new : Instruction) {entries : List Instruction}
    (ordered : entries.Pairwise Before) : (place new entries).Pairwise Before := by
  induction entries with
  | nil => exact List.pairwise_singleton Before new
  | cons old rest ih =>
      have oldFirst := (List.pairwise_cons.mp ordered).1
      have restOrdered := (List.pairwise_cons.mp ordered).2
      rw [place]
      split
      next front =>
        refine List.pairwise_cons.mpr ⟨fun other member => ?_, ordered⟩
        rcases List.mem_cons.mp member with same | later
        · exact same ▸ front
        · exact Text.precedes_trans front (oldFirst other later)
      next notFront =>
        split
        next back =>
          refine List.pairwise_cons.mpr ⟨fun other member => ?_, ih restOrdered⟩
          rcases mem_place member with same | later
          · exact same ▸ back
          · exact oldFirst other later
        next notBack =>
          have same := name_eq_of_not_before notFront notBack
          refine List.pairwise_cons.mpr ⟨fun other later => ?_, restOrdered⟩
          have step := oldFirst other later
          rwa [Before, ← same] at step

end Instruction

structure Context where
  entries : List Instruction
  ordered : entries.Pairwise Instruction.Before
  deriving DecidableEq

namespace Context

def empty : Context := ⟨[], List.Pairwise.nil⟩

/-- Adds a definition; an earlier one of the same name is replaced. -/
def insert (context : Context) (new : Instruction) : Context :=
  ⟨new.place context.entries, Instruction.pairwise_place new context.ordered⟩

def ofList (definitions : List Instruction) : Context :=
  definitions.foldl insert empty

def get? (context : Context) (name : String) : Option Block :=
  (context.entries.find? (fun entry => decide (entry.name = name))).map Instruction.body

def contains (context : Context) (name : String) : Bool :=
  context.entries.any (fun entry => decide (entry.name = name))

def size (context : Context) : Nat :=
  context.entries.length

end Context

end BLang
