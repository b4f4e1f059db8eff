import BLang.Log.Event
import BLang.ParseError

/-! # Readers

A reader takes the tokens of a stream one at a time. At each token it goes on to another state, is
done, or refuses. A token at which it goes on is consumed. When it is done, the reader itself says
whether it leaves the token that told it so; when it refuses, the refusal says whether the token was
consumed. If the stream runs out before, that is an error as well. A reader therefore never looks
beyond the token before it, and it stops on every stream. -/
namespace BLang

/-- What a reader does at a token, with the events that happen there. -/
inductive Step (σ α : Type) where
  | on (next : σ) (events : List Event)
  | done (value : α) (events : List Event)
  | refuse (error : ParseError) (consumed : Bool) (events : List Event)

/-- Goes on as given if the token has the text and refuses it otherwise. -/
def Step.expect {σ α : Type} (text : String) (token : Token) (step : Step σ α) : Step σ α :=
  if token.is text then step else .refuse (.unexpected (quoted text) token) true []

/-- The result of reading and the tokens that are left. -/
structure Outcome (α : Type) where
  result : Except ParseError α
  rest : List Token

structure Reader (σ α : Type) where
  start : σ
  step : σ → Token → Step σ α
  leavesLast : Bool

namespace Reader

variable {σ α : Type}

def runFrom (reader : Reader σ α) : σ → List Token → Outcome α
  | _, [] => ⟨.error .endOfStream, []⟩
  | state, token :: rest =>
      match reader.step state token with
      | .on next _ => runFrom reader next rest
      | .done value _ => ⟨.ok value, if reader.leavesLast then token :: rest else rest⟩
      | .refuse error consumed _ => ⟨.error error, if consumed then rest else token :: rest⟩

def run (reader : Reader σ α) (tokens : List Token) : Outcome α :=
  reader.runFrom reader.start tokens

/-- The events on the way of a reader from a state, in their order. -/
def eventsFrom (reader : Reader σ α) : σ → List Token → List Event
  | _, [] => []
  | state, token :: rest =>
      match reader.step state token with
      | .on next events => events ++ eventsFrom reader next rest
      | .done _ events => events
      | .refuse _ _ events => events

def events (reader : Reader σ α) (tokens : List Token) : List Event :=
  reader.eventsFrom reader.start tokens

theorem runFrom_rest_suffix (reader : Reader σ α) (state : σ) (tokens : List Token) :
    (reader.runFrom state tokens).rest <:+ tokens := by
  induction tokens generalizing state with
  | nil => exact List.suffix_refl []
  | cons token rest ih =>
      rw [runFrom]
      split
      · exact (ih _).trans (List.suffix_cons token rest)
      · dsimp only
        split
        · exact List.suffix_refl _
        · exact List.suffix_cons token rest
      · dsimp only
        split
        · exact List.suffix_cons token rest
        · exact List.suffix_refl _

theorem run_rest_suffix (reader : Reader σ α) (tokens : List Token) :
    (reader.run tokens).rest <:+ tokens :=
  reader.runFrom_rest_suffix reader.start tokens

end Reader

end BLang
