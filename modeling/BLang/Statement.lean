import BLang.Condition

/-! # Statements

A statement calls an instruction or guards blocks with a condition; a block is a list of statements.
Nothing is asked of the name of a call. -/
namespace BLang

inductive Statement where
  | call (name : String)
  | ifThen (condition : Condition) (body : List Statement)
  | ifThenElse (condition : Condition) (body other : List Statement)
  | whileDo (condition : Condition) (body : List Statement)

abbrev Block := List Statement

mutual

/-- Equality of statements, decided part by part. -/
def Statement.decideEq : (left right : Statement) → Decidable (left = right)
  | .call left, .call right =>
      if same : left = right then isTrue (by rw [same])
      else isFalse (fun equal => same (Statement.call.inj equal))
  | .ifThen left body, .ifThen right body' =>
      if same : left = right then
        match Block.decideEq body body' with
        | isTrue bodies => isTrue (by rw [same, bodies])
        | isFalse differ => isFalse (fun equal => differ (Statement.ifThen.inj equal).2)
      else isFalse (fun equal => same (Statement.ifThen.inj equal).1)
  | .ifThenElse left body other, .ifThenElse right body' other' =>
      if same : left = right then
        match Block.decideEq body body' with
        | isTrue bodies =>
            match Block.decideEq other other' with
            | isTrue others => isTrue (by rw [same, bodies, others])
            | isFalse differ =>
                isFalse (fun equal => differ (Statement.ifThenElse.inj equal).2.2)
        | isFalse differ => isFalse (fun equal => differ (Statement.ifThenElse.inj equal).2.1)
      else isFalse (fun equal => same (Statement.ifThenElse.inj equal).1)
  | .whileDo left body, .whileDo right body' =>
      if same : left = right then
        match Block.decideEq body body' with
        | isTrue bodies => isTrue (by rw [same, bodies])
        | isFalse differ => isFalse (fun equal => differ (Statement.whileDo.inj equal).2)
      else isFalse (fun equal => same (Statement.whileDo.inj equal).1)
  | .call _, .ifThen .. | .call _, .ifThenElse .. | .call _, .whileDo .. => isFalse nofun
  | .ifThen .., .call _ | .ifThen .., .ifThenElse .. | .ifThen .., .whileDo .. => isFalse nofun
  | .ifThenElse .., .call _ | .ifThenElse .., .ifThen .. | .ifThenElse .., .whileDo .. =>
      isFalse nofun
  | .whileDo .., .call _ | .whileDo .., .ifThen .. | .whileDo .., .ifThenElse .. => isFalse nofun

/-- Equality of blocks, decided statement by statement. -/
def Block.decideEq : (left right : List Statement) → Decidable (left = right)
  | [], [] => isTrue rfl
  | [], _ :: _ => isFalse nofun
  | _ :: _, [] => isFalse nofun
  | left :: lefts, right :: rights =>
      match Statement.decideEq left right with
      | isTrue same =>
          match Block.decideEq lefts rights with
          | isTrue rest => isTrue (by rw [same, rest])
          | isFalse differ => isFalse (fun equal => differ (List.cons.inj equal).2)
      | isFalse differ => isFalse (fun equal => differ (List.cons.inj equal).1)

end

instance : DecidableEq Statement := Statement.decideEq

mutual

/-- The number of statements in a statement, itself included. -/
def Statement.size : Statement → Nat
  | .call _ => 1
  | .ifThen _ body => 1 + Block.size body
  | .ifThenElse _ body other => 1 + Block.size body + Block.size other
  | .whileDo _ body => 1 + Block.size body

/-- The number of statements in a block, nested ones included. -/
def Block.size : List Statement → Nat
  | [] => 0
  | statement :: rest => statement.size + Block.size rest

end

theorem Block.size_append (left right : Block) :
    Block.size (left ++ right) = Block.size left + Block.size right := by
  induction left with
  | nil => simp [Block.size]
  | cons statement rest ih => simp only [List.cons_append, Block.size, ih, Nat.add_assoc]

end BLang
