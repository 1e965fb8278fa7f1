import Literate.Source.Span
import Literate.Text.Lines

/-!
# Lines of a document

The lines of a document with their numbers, from one, and the bytes they take up. Put together the
lines are the document, and each span begins where the one before it ends.
-/

namespace Literate

/-- A line of a document; its text keeps the LF that ends it. -/
structure SourceLine where
  number : Nat
  span : Span
  text : Text
deriving DecidableEq, Repr

namespace SourceLine

/-- Consecutive lines from a given number and a given byte on. -/
def numbered (number offset : Nat) : List Text → List SourceLine
  | [] => []
  | text :: rest =>
    ⟨number, ⟨offset, offset + text.byteLength⟩, text⟩ ::
      numbered (number + 1) (offset + text.byteLength) rest

/-- The lines of a document. -/
def ofText (source : Text) : List SourceLine :=
  numbered 1 0 source.cutLines

/-- Numbering keeps every line. -/
theorem map_text_numbered (number offset : Nat) (texts : List Text) :
    (numbered number offset texts).map SourceLine.text = texts := by
  induction texts generalizing number offset with
  | nil => rfl
  | cons text rest ih => simp [numbered, ih]

theorem numbered_append (number offset : Nat) (as bs : List Text) :
    numbered number offset (as ++ bs) =
      numbered number offset as ++
        numbered (number + as.length) (offset + Text.byteLength as.flatten) bs := by
  induction as generalizing number offset with
  | nil => simp [numbered]
  | cons a as ih =>
    simp only [List.cons_append, numbered, ih, List.length_cons, List.flatten_cons,
      Text.byteLength_append, List.cons.injEq, true_and]
    congr 2 <;> omega

end SourceLine

end Literate
