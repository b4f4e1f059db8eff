import BLang.Grammar
import BLang.Reader.Statement
import BLang.Proofs.Runs

/-!
# What the reader of statements has read

The state of the reader determines the words on the way to it: those of the open frames from the
outside in, each with the statements read in its current body, and those of the phase.  In the other
direction the words of a statement, if its calls are well named, lead through the reader from any
place where a statement may start to the place where that statement is finished.
-/

namespace BLang

namespace Head

/-- The form of the statement that is open. -/
def form : Head → Form
  | thenBranch _ => .conditional
  | elseBranch _ _ => .conditional
  | loop _ => .loop

/-- The words before the current body. -/
def words : Head → List String
  | thenBranch condition => [Keyword.IF.spelling, condition.spelling, Keyword.THEN.spelling]
  | elseBranch condition body =>
      [Keyword.IF.spelling, condition.spelling, Keyword.THEN.spelling] ++ Block.words body ++
        [Keyword.ELSE.spelling]
  | loop condition => [Keyword.WHILE.spelling, condition.spelling, Keyword.DO.spelling]

def WellNamed : Head → Prop
  | elseBranch _ body => Block.WellNamed body
  | _ => True

/-- The statement that `END` completes when the current body is the given one. -/
def completed : Head → Block → Statement
  | thenBranch condition, body => .ifThen condition body
  | elseBranch condition first, body => .ifThenElse condition first body
  | loop condition, body => .whileDo condition body

theorem completed_words (head : Head) (body : Block) :
    (head.completed body).words =
      head.words ++ Block.words body ++ [Keyword.END.spelling, head.form.keyword.spelling] := by
  cases head <;> simp [completed, words, form, Form.keyword, Statement.words]

theorem completed_wellNamed (head : Head) (body : Block) :
    (head.completed body).WellNamed ↔ head.WellNamed ∧ Block.WellNamed body := by
  cases head <;> simp [completed, WellNamed, Statement.WellNamed]

end Head

namespace Frame

def words (frame : Frame) : List String :=
  frame.head.words ++ Block.words frame.read.reverse

def WellNamed (frame : Frame) : Prop :=
  frame.head.WellNamed ∧ Block.WellNamed frame.read.reverse

/-- The frame with one more statement in its current body. -/
def add (frame : Frame) (statement : Statement) : Frame :=
  ⟨frame.head, statement :: frame.read⟩

theorem add_words (frame : Frame) (statement : Statement) :
    (frame.add statement).words = frame.words ++ statement.words := by
  simp [add, words, Block.words_append, Block.words]

theorem add_wellNamed {frame : Frame} {statement : Statement} (frameNamed : frame.WellNamed)
    (named : statement.WellNamed) : (frame.add statement).WellNamed := by
  refine ⟨frameNamed.1, ?_⟩
  rw [add, List.reverse_cons, Block.wellNamed_append]
  exact ⟨frameNamed.2, named, trivial⟩

end Frame

/-- The words of open frames, the innermost given first. -/
def framesWords : List Frame → List String
  | [] => []
  | frame :: outer => framesWords outer ++ frame.words

/-- The words of the statement that has been started and has no frame, or no frame any more. -/
inductive Phase.Spoken : Phase → List String → Prop where
  | item : Spoken .item []
  | condition (form : Form) : Spoken (.condition form) [form.keyword.spelling]
  | opener (form : Form) (condition : Condition) :
      Spoken (.opener form condition) [form.keyword.spelling, condition.spelling]
  | closer {form : Form} {statement : Statement} {words : List String}
      (complete : words ++ [form.keyword.spelling] = statement.words)
      (named : statement.WellNamed) : Spoken (.closer form statement) words

namespace Nest

/-- The words bring the reader to the nest, and all calls in it are well named. -/
def Spoken (nest : Nest) (words : List String) : Prop :=
  (∀ frame ∈ nest.around, frame.WellNamed) ∧
    ∃ part, nest.phase.Spoken part ∧ words = framesWords nest.around ++ part

theorem spoken_start_iff (words : List String) : start.Spoken words ↔ words = [] := by
  constructor
  · rintro ⟨_, part, spoken, rfl⟩
    cases spoken
    rfl
  · rintro rfl
    exact ⟨by simp [start], [], .item, rfl⟩

/-! ## The account of a step -/

variable {around outer : List Frame} {frame : Frame} {token : Token}

theorem holds_finish {words : List String} (statement : Statement)
    (frames : ∀ frame ∈ around, frame.WellNamed) (named : statement.WellNamed)
    (texts : words = framesWords around ++ statement.words) :
    (finish statement around).Holds token (fun next => next.Spoken words)
      (fun value => value.words = words ∧ value.WellNamed) := by
  cases around with
  | nil => exact ⟨texts.symm, named⟩
  | cons frame outer =>
      obtain ⟨frameNamed, outerNamed⟩ := List.forall_mem_cons.mp frames
      refine ⟨List.forall_mem_cons.mpr ⟨Frame.add_wellNamed frameNamed named, outerNamed⟩,
        [], .item, ?_⟩
      change words = framesWords outer ++ (frame.add statement).words ++ []
      rw [texts, Frame.add_words, framesWords, List.append_nil, List.append_assoc]

theorem holds_enter (frames : ∀ frame ∈ around, frame.WellNamed) :
    (enter around token).Holds token
      (fun next => next.Spoken (framesWords around ++ [token.lexeme]))
      (fun value => value.words = framesWords around ++ [token.lexeme] ∧ value.WellNamed) := by
  unfold enter
  split
  next loop =>
    rw [(token.isKeyword_iff _).mp loop]
    exact ⟨frames, _, .condition .loop, rfl⟩
  next =>
    split
    next conditional =>
      rw [(token.isKeyword_iff _).mp conditional]
      exact ⟨frames, _, .condition .conditional, rfl⟩
    next =>
      split
      next identifier =>
        exact holds_finish (.call token.lexeme) frames identifier rfl
      next => exact ⟨rfl, rfl⟩

/-- At `END` the statement of the frame is complete but for its last keyword. -/
theorem close_of_end (text : token.lexeme = Keyword.END.spelling) :
    close frame outer token =
      .on ⟨outer, .closer frame.head.form (frame.head.completed frame.read.reverse)⟩ [] := by
  obtain ⟨head, read⟩ := frame
  cases head with
  | thenBranch condition =>
      have notElse : token.isKeyword .ELSE = false := Token.isKeyword_of_lexeme text .ELSE
      have isEnd : token.isKeyword .END = true := Token.isKeyword_of_lexeme text .END
      simp [close, notElse, isEnd, Head.form, Head.completed]
  | elseBranch condition body => exact Step.expect_of_lexeme text _
  | loop condition => exact Step.expect_of_lexeme text _

theorem spoken_closed (frames : ∀ other ∈ frame :: outer, other.WellNamed) :
    Spoken ⟨outer, .closer frame.head.form (frame.head.completed frame.read.reverse)⟩
      (framesWords (frame :: outer) ++ [Keyword.END.spelling]) := by
  obtain ⟨frameNamed, outerNamed⟩ := List.forall_mem_cons.mp frames
  refine ⟨outerNamed, frame.words ++ [Keyword.END.spelling], .closer ?_ ?_, ?_⟩
  · rw [Head.completed_words, Frame.words, List.append_assoc]
    rfl
  · exact (Head.completed_wellNamed _ _).mpr frameNamed
  · exact List.append_assoc _ _ _

theorem holds_close (frames : ∀ other ∈ frame :: outer, other.WellNamed) :
    (close frame outer token).Holds token
      (fun next => next.Spoken (framesWords (frame :: outer) ++ [token.lexeme]))
      (fun value => value.words = framesWords (frame :: outer) ++ [token.lexeme] ∧
        value.WellNamed) := by
  by_cases text : token.lexeme = Keyword.END.spelling
  · rw [close_of_end text, text]
    exact spoken_closed frames
  · obtain ⟨head, read⟩ := frame
    cases head with
    | thenBranch condition =>
        have notEnd : token.isKeyword .END = false := by
          rwa [← Bool.not_eq_true, Token.isKeyword_iff]
        simp only [close, notEnd, Bool.false_eq_true, if_false]
        split
        next other =>
          obtain ⟨frameNamed, outerNamed⟩ := List.forall_mem_cons.mp frames
          refine ⟨List.forall_mem_cons.mpr ⟨⟨frameNamed.2, trivial⟩, outerNamed⟩, [], .item, ?_⟩
          simp [framesWords, Frame.words, Head.words, Block.words,
            (token.isKeyword_iff _).mp other]
        next => exact ⟨rfl, rfl⟩
    | elseBranch condition body => exact Step.holds_expect fun same => absurd same text
    | loop condition => exact Step.holds_expect fun same => absurd same text

theorem step_item (opens : token.closesBlock = false) :
    step ⟨around, .item⟩ token = enter around token := by
  cases around with
  | nil => rfl
  | cons frame outer => simp [step, opens]

theorem head_words (form : Form) (condition : Condition) :
    (form.head condition).words =
      [form.keyword.spelling, condition.spelling, form.opener.spelling] := by
  cases form <;> rfl

theorem head_wellNamed (form : Form) (condition : Condition) :
    (form.head condition).WellNamed := by
  cases form <;> trivial

theorem spoken_opened (frames : ∀ frame ∈ around, frame.WellNamed) (form : Form)
    (condition : Condition) :
    Spoken ⟨⟨form.head condition, []⟩ :: around, .item⟩
      (framesWords around ++ [form.keyword.spelling, condition.spelling] ++
        [form.opener.spelling]) := by
  refine ⟨List.forall_mem_cons.mpr ⟨⟨head_wellNamed form condition, trivial⟩, frames⟩,
    [], .item, ?_⟩
  simp [framesWords, Frame.words, head_words, Block.words]

/-- A step adds its token to the words, and the last token of a statement completes them. -/
theorem holds_step {nest : Nest} {words : List String} (spoken : nest.Spoken words)
    (token : Token) :
    (nest.step token).Holds token (fun next => next.Spoken (words ++ [token.lexeme]))
      (fun value => value.words = words ++ [token.lexeme] ∧ value.WellNamed) := by
  obtain ⟨around, phase⟩ := nest
  obtain ⟨frames, part, spokenPart, rfl⟩ := spoken
  cases spokenPart with
  | item =>
      rw [List.append_nil]
      cases around with
      | nil => exact holds_enter frames
      | cons frame outer =>
          simp only [step]
          split
          · exact holds_close frames
          · exact holds_enter frames
  | condition form =>
      simp only [step]
      split
      next condition found =>
        rw [← Condition.spelling_of_ofSpelling? found, List.append_assoc]
        exact ⟨frames, _, .opener form condition, rfl⟩
      next => exact ⟨rfl, rfl⟩
  | opener form condition =>
      refine Step.holds_expect fun same => ?_
      rw [same]
      exact spoken_opened frames form condition
  | @closer form statement part complete named =>
      refine Step.holds_expect fun same => holds_finish statement frames named ?_
      rw [same, List.append_assoc, complete]

end Nest

/-- A statement is made up of the tokens with its words. -/
theorem Reader.statement_accounts :
    Reader.statement.Accounts (fun nest read => nest.Spoken (lexemes read))
      (fun statement read token =>
        statement.words = lexemes (read ++ [token]) ∧ statement.WellNamed) where
  start := (Nest.spoken_start_iff _).mpr rfl
  step token spoken := by
    simp only [lexemes_append, lexemes_cons, lexemes_nil]
    exact Nest.holds_step spoken token

/-! ## The words of a statement are taken -/

namespace Nest

variable {around outer : List Frame} {frame : Frame}

/-- The words of the statement lead from a place where one may start to the last of them, which
finishes the statement. -/
def Completes (around : List Frame) (statement : Statement) : Prop :=
  ∃ front last final, statement.words = front ++ [last] ∧
    Reader.statement.Takes ⟨around, .item⟩ front final ∧
    ∀ token : Token, token.lexeme = last → final.step token = finish statement around

/-- Inside a frame a complete statement joins the body. -/
theorem Completes.takes {statement : Statement} (completes : Completes (frame :: outer) statement) :
    Reader.statement.Takes ⟨frame :: outer, .item⟩ statement.words
      ⟨frame.add statement :: outer, .item⟩ := by
  obtain ⟨front, last, final, texts, takes, finishes⟩ := completes
  rw [texts]
  exact takes.append (.cons _ (fun token text => ⟨_, finishes token text⟩) (.nil _))

theorem enter_form {token : Token} {form : Form} (text : token.lexeme = form.keyword.spelling) :
    enter around token = .on ⟨around, .condition form⟩ [] := by
  have others := Token.isKeyword_of_lexeme text
  cases form <;> simp [enter, others, Form.keyword]

theorem closesBlock_of_form {token : Token} {form : Form}
    (text : token.lexeme = form.keyword.spelling) : token.closesBlock = false := by
  rw [Token.closesBlock_of_keyword text]
  cases form <;> rfl

theorem takes_opening (form : Form) (condition : Condition) :
    Reader.statement.Takes ⟨around, .item⟩
      [form.keyword.spelling, condition.spelling, form.opener.spelling]
      ⟨⟨form.head condition, []⟩ :: around, .item⟩ := by
  refine .cons ⟨around, .condition form⟩ ?_
    (.cons ⟨around, .opener form condition⟩ ?_ (.cons _ ?_ (.nil _)))
  · intro token text
    exact ⟨[], (step_item (closesBlock_of_form text)).trans (enter_form text)⟩
  · intro token text
    refine ⟨[], ?_⟩
    simp only [Reader.statement, step, text, condition.ofSpelling?_spelling]
  · intro token text
    exact ⟨[], Step.expect_of_lexeme text _⟩

/-- The words of a body, `END` and the keyword of the form complete an open statement. -/
theorem completes_of_body (head : Head) (body : Block)
    (opening : Reader.statement.Takes ⟨around, .item⟩ head.words ⟨⟨head, []⟩ :: around, .item⟩)
    (inside : Reader.statement.Takes ⟨⟨head, []⟩ :: around, .item⟩ (Block.words body)
      ⟨⟨head, body.reverse ++ []⟩ :: around, .item⟩) :
    Completes around (head.completed body) := by
  rw [List.append_nil] at inside
  refine ⟨head.words ++ Block.words body ++ [Keyword.END.spelling], head.form.keyword.spelling,
    ⟨around, .closer head.form (head.completed body)⟩, ?_, ?_, ?_⟩
  · rw [Head.completed_words, List.append_assoc, List.append_assoc, List.append_assoc]
    rfl
  · refine (opening.append inside).append (.cons _ (fun token text => ⟨[], ?_⟩) (.nil _))
    have closes : token.closesBlock = true := Token.closesBlock_of_keyword text
    simp [Reader.statement, step, closes, close_of_end text]
  · intro token text
    exact Step.expect_of_lexeme text _

end Nest

mutual

/-- The words of a well-named statement complete it wherever a statement may start. -/
theorem Statement.completes :
    (statement : Statement) → statement.WellNamed → (around : List Frame) →
      Nest.Completes around statement
  | .call name, named, around => by
      refine ⟨[], name, ⟨around, .item⟩, rfl, .nil _, fun token text => ?_⟩
      subst text
      rw [Nest.step_item (Token.closesBlock_of_isIdentifier named)]
      have keywords := Token.isKeyword_of_isIdentifier named
      have identifier : isIdentifier token.lexeme = true := named
      simp [Nest.enter, keywords, identifier]
  | .ifThen condition body, named, around =>
      Nest.completes_of_body (.thenBranch condition) body
        (Nest.takes_opening .conditional condition)
        (Block.takes_inside body named (.thenBranch condition) [] around)
  | .ifThenElse condition body other, named, around => by
      refine Nest.completes_of_body (.elseBranch condition body) other ?_
        (Block.takes_inside other named.2 (.elseBranch condition body) [] around)
      refine ((Nest.takes_opening .conditional condition).append
        (Block.takes_inside body named.1 (.thenBranch condition) [] around)).append
        (.cons _ (fun token text => ⟨[], ?_⟩) (.nil _))
      have closes : token.closesBlock = true := Token.closesBlock_of_keyword text
      have isElse : token.isKeyword .ELSE = true := Token.isKeyword_of_lexeme text .ELSE
      simp [Reader.statement, Nest.step, closes, Nest.close, isElse]
  | .whileDo condition body, named, around =>
      Nest.completes_of_body (.loop condition) body (Nest.takes_opening .loop condition)
        (Block.takes_inside body named (.loop condition) [] around)

/-- The words of a well-named block add its statements to the body of a frame. -/
theorem Block.takes_inside :
    (block : List Statement) → Block.WellNamed block → (head : Head) →
      (read : List Statement) → (outer : List Frame) →
      Reader.statement.Takes ⟨⟨head, read⟩ :: outer, .item⟩ (Block.words block)
        ⟨⟨head, block.reverse ++ read⟩ :: outer, .item⟩
  | [], _, head, read, outer => .nil _
  | statement :: rest, named, head, read, outer => by
      have first := (statement.completes named.1 (⟨head, read⟩ :: outer)).takes
      have later := Block.takes_inside rest named.2 head (statement :: read) outer
      rw [List.reverse_cons, List.append_assoc]
      exact first.append later

end

end BLang
