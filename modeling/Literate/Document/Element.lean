import Literate.Source.Span
import Literate.Text.Basic

/-!
# Elements of a document

An element is a node with its meaning: a line of prose, or a step in the life of a named snippet.
-/

namespace Literate

/-- What an element does. `render` says whether the reader gets to see it. -/
inductive ElementKind where
  /-- A line of prose. -/
  | prose (text : Text)
  /-- A new snippet. -/
  | start (name language : Text) (render : Bool) (content : Text)
  /-- New content for a snippet. -/
  | replace (name : Text) (render : Bool) (content : Text)
  /-- A change to a snippet, written as a unified diff. -/
  | diff (name : Text) (render : Bool) (content : Text)
  /-- Lines of a snippet, shown and not changed. -/
  | excerpt (name content : Text)
  /-- What running a snippet has to print. -/
  | output (name : Text) (render : Bool) (content : Text)
deriving DecidableEq, Repr

/-- An element with the number of its first line and the bytes it takes up. -/
structure Element where
  line : Nat
  span : Span
  kind : ElementKind
deriving DecidableEq, Repr

namespace ElementKind

/-- The word for the kind: the one after the marker of a block, and `text` for prose. -/
def keyword : ElementKind → Text
  | prose .. => Text.ofString "text"
  | start .. => Text.ofString "start"
  | replace .. => Text.ofString "replace"
  | diff .. => Text.ofString "diff"
  | excerpt .. => Text.ofString "render"
  | output .. => Text.ofString "output"

/-- The snippet that an element is about. -/
def name? : ElementKind → Option Text
  | prose _ => none
  | start name .. => some name
  | replace name .. => some name
  | diff name .. => some name
  | excerpt name _ => some name
  | output name .. => some name

end ElementKind

end Literate
