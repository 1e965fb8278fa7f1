import Literate.Source.Line

/-!
# Nodes of a document

A document is a sequence of nodes: single lines of prose, and blocks. A block has the words after
its marker, its options and its content; what they mean is not decided here.
-/

namespace Literate

/-- A block as it is written. The options stand in the order of their lines. -/
structure Block where
  arguments : List Text
  options : List (Text × Text)
  content : Text
deriving DecidableEq, Repr

/-- What stands at a place of a document. -/
inductive NodeKind where
  /-- One line, with its terminator. -/
  | prose (text : Text)
  | block (block : Block)
deriving DecidableEq, Repr

/-- A node with the number of its first line and the bytes it takes up. -/
structure Node where
  line : Nat
  span : Span
  kind : NodeKind
deriving DecidableEq, Repr

namespace Node

/-- A line as a node of prose. -/
def ofLine (line : SourceLine) : Node :=
  ⟨line.number, line.span, .prose line.text⟩

end Node

end Literate
