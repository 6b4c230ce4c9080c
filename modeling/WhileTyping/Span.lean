/-!
# Spans

A half-open range of offsets in a source file. Nothing orders the two ends: a tree built by hand may
carry a span whose end lies before its start, and such a span counts as empty.
-/

namespace WhileTyping

structure Span where
  start : Nat
  stop : Nat
  deriving DecidableEq, Repr

namespace Span

/-- The empty span at one offset. -/
def point (offset : Nat) : Span := ⟨offset, offset⟩

/-- From the start of the first span to the end of the second. -/
def merge (first second : Span) : Span := ⟨first.start, second.stop⟩

def length (s : Span) : Nat := s.stop - s.start

def isEmpty (s : Span) : Bool := s.stop ≤ s.start

def render (s : Span) : String := toString s.start ++ ".." ++ toString s.stop

end Span

end WhileTyping
