/-! # Spans

A stretch of a source, from the byte at `start` up to but not including the one at `stop`. Nothing
forces the ends into order: a span that was not read off a source may have them reversed. -/
namespace BLang

structure Span where
  start : Nat
  stop : Nat
  deriving DecidableEq

namespace Span

def zero : Span := ⟨0, 0⟩

/-- The empty span at a position. -/
def point (position : Nat) : Span := ⟨position, position⟩

def isEmpty (span : Span) : Bool :=
  decide (span.stop ≤ span.start)

theorem isEmpty_point (position : Nat) : (point position).isEmpty = true :=
  decide_eq_true (Nat.le_refl position)

end Span

end BLang
