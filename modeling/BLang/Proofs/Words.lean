import BLang.Token
import Mathlib.Algebra.Order.BigOperators.Group.List
import Mathlib.Algebra.Order.Group.Nat

/-!
# The classes of words

Keywords, conditions, identifiers and the end marker never overlap.  A reader tells them apart by
one look at a token, so each fact about the tests of a token is stated for its text.  There is
always another identifier: a name can be chosen apart from any finite list of names.
-/

namespace BLang

theorem isWord_keyword (keyword : Keyword) : isWord keyword.spelling.toList = true := by
  cases keyword <;> decide

theorem isWord_condition (condition : Condition) : isWord condition.spelling.toList = true := by
  cases condition <;> decide

theorem isKeyword_spelling (keyword : Keyword) : isKeyword keyword.spelling = true :=
  List.any_eq_true.mpr ⟨keyword, keyword.mem_all, decide_eq_true rfl⟩

theorem isIdentifier_iff (text : String) :
    isIdentifier text = true ↔
      isWord text.toList = true ∧ isKeyword text = false ∧ isCondition text = false := by
  simp only [isIdentifier, Bool.and_eq_true, Bool.not_eq_true', and_assoc]

theorem isWord_of_isIdentifier {text : String} (identifier : isIdentifier text = true) :
    isWord text.toList = true :=
  ((isIdentifier_iff text).mp identifier).1

theorem ne_keyword_of_isIdentifier {text : String} (identifier : isIdentifier text = true)
    (keyword : Keyword) : text ≠ keyword.spelling := by
  intro same
  have none := ((isIdentifier_iff text).mp identifier).2.1
  rw [same, isKeyword_spelling] at none
  cases none

theorem ne_endMarker_of_isWord {text : String} (word : isWord text.toList = true) :
    text ≠ endMarker := by
  intro same
  rw [same, isWord_endMarker] at word
  cases word

theorem keyword_ne_endMarker (keyword : Keyword) : keyword.spelling ≠ endMarker :=
  ne_endMarker_of_isWord (isWord_keyword keyword)

/-! ## Tests of tokens -/

namespace Token

theorem is_iff (token : Token) (text : String) : token.is text = true ↔ token.lexeme = text :=
  decide_eq_true_iff

theorem isKeyword_iff (token : Token) (keyword : Keyword) :
    token.isKeyword keyword = true ↔ token.lexeme = keyword.spelling :=
  token.is_iff keyword.spelling

theorem isEnd_iff (token : Token) : token.isEnd = true ↔ token.lexeme = endMarker :=
  token.is_iff endMarker

theorem closesBlock_iff (token : Token) :
    token.closesBlock = true ↔
      token.lexeme = Keyword.END.spelling ∨ token.lexeme = Keyword.ELSE.spelling ∨
        token.lexeme = endMarker := by
  simp only [closesBlock, Bool.or_eq_true, isKeyword_iff, isEnd_iff, or_assoc]

theorem isKeyword_of_lexeme {token : Token} {keyword : Keyword}
    (text : token.lexeme = keyword.spelling) (other : Keyword) :
    token.isKeyword other = decide (keyword = other) := by
  rw [isKeyword, is, text, decide_eq_decide]
  exact ⟨Keyword.spelling_injective, congrArg Keyword.spelling⟩

theorem isEnd_of_isWord {token : Token} (word : isWord token.lexeme.toList = true) :
    token.isEnd = false := by
  rw [← Bool.not_eq_true, isEnd_iff]
  exact ne_endMarker_of_isWord word

theorem isEnd_of_keyword {token : Token} {keyword : Keyword}
    (text : token.lexeme = keyword.spelling) : token.isEnd = false :=
  isEnd_of_isWord (text ▸ isWord_keyword keyword)

/-- Of the keywords only `END` and `ELSE` close a block. -/
theorem closesBlock_of_keyword {token : Token} {keyword : Keyword}
    (text : token.lexeme = keyword.spelling) :
    token.closesBlock = (decide (keyword = .END) || decide (keyword = .ELSE)) := by
  rw [closesBlock, isKeyword_of_lexeme text, isKeyword_of_lexeme text, isEnd_of_keyword text,
    Bool.or_false]

theorem isKeyword_of_isIdentifier {token : Token} (identifier : isIdentifier token.lexeme = true)
    (keyword : Keyword) : token.isKeyword keyword = false := by
  rw [← Bool.not_eq_true, isKeyword_iff]
  exact ne_keyword_of_isIdentifier identifier keyword

theorem closesBlock_of_isIdentifier {token : Token}
    (identifier : isIdentifier token.lexeme = true) : token.closesBlock = false := by
  have notEnd := isEnd_of_isWord (isWord_of_isIdentifier identifier)
  rw [closesBlock, isKeyword_of_isIdentifier identifier, isKeyword_of_isIdentifier identifier,
    notEnd]
  rfl

/-- A token that closes a block starts no statement. -/
theorem closesBlock_starts_nothing {token : Token} (closes : token.closesBlock = true) :
    token.isKeyword .WHILE = false ∧ token.isKeyword .IF = false ∧
      isIdentifier token.lexeme = false := by
  have other {keyword : Keyword} (opens : (keyword = .END ∨ keyword = .ELSE) → False) :
      token.isKeyword keyword = false := by
    rw [← Bool.not_eq_true, isKeyword_iff]
    intro text
    rw [closesBlock_of_keyword text, Bool.or_eq_true, decide_eq_true_iff,
      decide_eq_true_iff] at closes
    exact opens closes
  refine ⟨other (by decide), other (by decide), ?_⟩
  rw [← Bool.not_eq_true]
  intro identifier
  rw [closesBlock_of_isIdentifier identifier] at closes
  cases closes

end Token

/-! ## The texts of a list of tokens -/

/-- The texts of tokens. -/
def lexemes (tokens : List Token) : List String :=
  tokens.map Token.lexeme

@[simp] theorem lexemes_nil : lexemes [] = [] :=
  rfl

@[simp] theorem lexemes_cons (token : Token) (tokens : List Token) :
    lexemes (token :: tokens) = token.lexeme :: lexemes tokens :=
  rfl

@[simp] theorem lexemes_append (left right : List Token) :
    lexemes (left ++ right) = lexemes left ++ lexemes right :=
  List.map_append

/-- Every list of words is that of some tokens. -/
theorem lexemes_unplaced (words : List String) : lexemes (words.map Token.unplaced) = words := by
  unfold lexemes
  rw [List.map_map]
  exact List.map_id' words

/-- Tokens whose texts are two lists in a row fall into two parts. -/
theorem lexemes_eq_append {tokens : List Token} {left right : List String}
    (texts : lexemes tokens = left ++ right) :
    ∃ front back, tokens = front ++ back ∧ lexemes front = left ∧ lexemes back = right :=
  List.map_eq_append_iff.mp texts

theorem lexemes_eq_cons {tokens : List Token} {word : String} {words : List String}
    (texts : lexemes tokens = word :: words) :
    ∃ token rest, tokens = token :: rest ∧ token.lexeme = word ∧ lexemes rest = words :=
  List.map_eq_cons_iff.mp texts

theorem lexemes_eq_nil {tokens : List Token} (texts : lexemes tokens = []) : tokens = [] :=
  List.map_eq_nil_iff.mp texts

/-- The token at another place. -/
def Token.relocated (move : Span → Span) (token : Token) : Token :=
  ⟨token.lexeme, move token.span⟩

@[simp] theorem lexemes_relocated (move : Span → Span) (tokens : List Token) :
    lexemes (tokens.map (Token.relocated move)) = lexemes tokens :=
  List.map_map

/-! ## Unused names -/

/-- The identifier of `count` letters beyond twenty, which no keyword, condition or primitive
reaches. -/
def longName (count : Nat) : String :=
  String.ofList (List.replicate (count + 20) 'a')

theorem longName_length (count : Nat) : (longName count).length = count + 20 := by
  simp [longName]

theorem keyword_length_lt (keyword : Keyword) : keyword.spelling.length < 20 := by
  cases keyword <;> decide

theorem condition_length_lt (condition : Condition) : condition.spelling.length < 20 := by
  cases condition <;> decide

theorem primitive_length_lt {name : String} (primitive : name ∈ primitives) :
    name.length < 20 := by
  revert name
  decide

theorem isWord_longName (count : Nat) : isWord (longName count).toList = true := by
  have letter : isWordPart 'a' = true := by decide
  have first : isLetter 'a' = true := by decide
  simp [longName, List.replicate_succ, isWord, first, letter]

theorem isIdentifier_longName (count : Nat) : isIdentifier (longName count) = true := by
  have long := longName_length count
  apply (isIdentifier_iff _).mpr
  refine ⟨isWord_longName count, ?_, ?_⟩
  · rw [← Bool.not_eq_true, isKeyword, List.any_eq_true]
    rintro ⟨keyword, _, same⟩
    have short := keyword_length_lt keyword
    rw [of_decide_eq_true same] at short
    omega
  · rw [← Bool.not_eq_true, isCondition, Option.isSome_iff_exists]
    rintro ⟨condition, found⟩
    have short := condition_length_lt condition
    rw [Condition.spelling_of_ofSpelling? found] at short
    omega

theorem isPrimitive_longName (count : Nat) : isPrimitive (longName count) = false := by
  have long := longName_length count
  rw [← Bool.not_eq_true, isPrimitive, List.any_eq_true]
  rintro ⟨name, primitive, same⟩
  have short := primitive_length_lt primitive
  rw [of_decide_eq_true same] at short
  omega

/-- A finite list of names leaves an identifier unused that is not primitive. -/
theorem exists_unused_name (names : List String) :
    ∃ name, isIdentifier name = true ∧ isPrimitive name = false ∧ name ∉ names := by
  refine ⟨longName (names.map String.length).sum, isIdentifier_longName _,
    isPrimitive_longName _, ?_⟩
  intro used
  have bound := List.le_sum_of_mem (List.mem_map_of_mem (f := String.length) used)
  rw [longName_length] at bound
  omega

end BLang
