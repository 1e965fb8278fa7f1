/-!
# Spans

A span is a range of bytes of a document, from its first byte up to the byte after its last.
-/

namespace Literate

/-- The bytes from `start` up to, and not including, `stop`. -/
structure Span where
  start : Nat
  stop : Nat
deriving DecidableEq, Repr, Inhabited

namespace Span

/-- The number of bytes; a span that stops before it starts has none. -/
def length (s : Span) : Nat :=
  s.stop - s.start

/-- Whether the span has no byte. -/
def isEmpty (s : Span) : Bool :=
  s.length == 0

/-- The smallest span with the bytes of both. -/
def cover (s t : Span) : Span :=
  ⟨min s.start t.start, max s.stop t.stop⟩

/-- Spans are ordered by their starts, and those that start together by their stops. -/
def compare (s t : Span) : Ordering :=
  (Ord.compare s.start t.start).then (Ord.compare s.stop t.stop)

theorem cover_comm (s t : Span) : s.cover t = t.cover s := by
  simp [cover, Nat.min_comm, Nat.max_comm]

@[simp] theorem cover_self (s : Span) : s.cover s = s := by
  simp [cover]

end Span

end Literate
