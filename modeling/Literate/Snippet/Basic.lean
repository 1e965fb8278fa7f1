import Literate.Text.Lines

/-!
# Snippets

A snippet is a piece of code that a document builds up. Its pending lines are those that came into
it and that the reader has not been shown: a line becomes pending when the content comes to have it,
and stops being so when it is shown or leaves the content. Lines are compared by their contents, and
blank lines are never pending.
-/

namespace Literate

/-- A piece of code, with the lines of it that are still to be shown. -/
structure Snippet where
  language : Text
  content : Text
  pending : List Text
deriving DecidableEq, Repr

namespace Snippet

/-- The lines of `ls` without their repetitions: each where it comes first. -/
def distinct : List Text → List Text
  | [] => []
  | l :: ls => l :: (distinct ls).filter (· != l)

/-- The lines of the text `new`, blank ones apart, that are not lines of `old`: each where it comes
first. -/
def introduced (old new : Text) : List Text :=
  distinct ((Text.lines new).filter fun l => !Text.isBlank l && !(Text.lines old).contains l)

/-- The lines of `pending` that are not among `shown`. -/
def without (pending shown : List Text) : List Text :=
  pending.filter fun l => !shown.contains l

/-- The first line of the text `excerpt`, blank ones apart, that is not a line of `content`. -/
def firstUnknown? (excerpt content : Text) : Option Text :=
  (Text.lines excerpt).find? fun l => !Text.isBlank l && !(Text.lines content).contains l

/-- A snippet without content. -/
def empty (language : Text) : Snippet :=
  ⟨language, [], []⟩

/-- The snippet with new content. Lines that were pending and are still there come first, in their
order, and then the lines that the old content did not have. -/
def replaced (s : Snippet) (content : Text) : Snippet :=
  let new := introduced s.content content
  let kept := s.pending.filter fun l => (Text.lines content).contains l
  { s with
    content
    pending := kept.foldr (fun l lines => if lines.contains l then lines else l :: lines) new }

/-- The snippet after some lines have been shown. -/
def shown (s : Snippet) (lines : List Text) : Snippet :=
  { s with pending := without s.pending lines }

/-- Whether no line is pending. -/
def isFullyShown (s : Snippet) : Bool :=
  s.pending.isEmpty

theorem isFullyShown_iff {s : Snippet} : s.isFullyShown = true ↔ s.pending = [] := by
  simp [isFullyShown]

end Snippet

end Literate
