import Literate.Diff.Compaction
import Literate.Text.Lines
import Literate.Text.Quoted

/-!
# Unified diffs

A script is written as hunks. A hunk is a run of changes with up to three kept lines before and
after it; changes with at most six kept lines between them share a hunk. Its header gives the lines
it takes up in the old and in the new list, its body the lines with a character in front: a space, a
minus sign or a plus sign.
-/

namespace Literate.Diff

/-- The greatest number of kept lines before and after the changes of a hunk. -/
def contextLength : Nat := 3

/-- The lines every diff begins with. -/
def fileHeader : Text :=
  Text.ofString "---\n+++\n"

/-- A run of kept lines, or a run of deleted and inserted ones. An edit of a segment stands for all
of its kind there: it has the places of the first and the lengths of all. -/
inductive Segment where
  | same (kept : Edit)
  | changed (deleted inserted : Option Edit)
deriving Repr

namespace Segment

/-- An edit put in front of those of its kind in the same segment. -/
def join (e : Edit) (later : Option Edit) : Edit :=
  { e with length := e.length + (later.map Edit.length).getD 0 }

/-- An edit in front of segments. -/
def addFirst (e : Edit) (segments : List Segment) : List Segment :=
  match e.kind, segments with
  | .keep, same kept :: rest => same (join e (some kept)) :: rest
  | .keep, _ => same e :: segments
  | .delete, changed deleted inserted :: rest => changed (some (join e deleted)) inserted :: rest
  | .delete, _ => changed (some e) none :: segments
  | .insert, changed deleted inserted :: rest => changed deleted (some (join e inserted)) :: rest
  | .insert, _ => changed none (some e) :: segments

/-- The segments of a script. -/
def ofEdits (edits : List Edit) : List Segment :=
  edits.foldr addFirst []

/-- Where the segment starts in the old list; a change starts where its deletion does. -/
def oldStart : Segment → Nat
  | same kept => kept.oldStart
  | changed (some deleted) _ => deleted.oldStart
  | changed none (some inserted) => inserted.oldStart
  | changed none none => 0

/-- Where the segment starts in the new list; a change starts where its insertion does. -/
def newStart : Segment → Nat
  | same kept => kept.newStart
  | changed _ (some inserted) => inserted.newStart
  | changed (some deleted) none => deleted.newStart
  | changed none none => 0

/-- The number of lines of the old list. -/
def oldLength : Segment → Nat
  | same kept => kept.length
  | changed deleted _ => (deleted.map Edit.length).getD 0

/-- The number of lines of the new list. -/
def newLength : Segment → Nat
  | same kept => kept.length
  | changed _ inserted => (inserted.map Edit.length).getD 0

/-- The last kept lines of a segment, at most `count` of them. -/
def keepLast (count : Nat) : Segment → Segment
  | same kept =>
    let skipped := kept.length - count
    same ⟨kept.kind, kept.oldStart + skipped, kept.newStart + skipped, kept.length - skipped⟩
  | segment => segment

/-- The first kept lines of a segment, at most `count` of them. -/
def keepFirst (count : Nat) : Segment → Segment
  | same kept => same { kept with length := min kept.length count }
  | segment => segment

/-- Whether the segment is a run of kept lines longer than two contexts. -/
def isLong : Segment → Bool
  | same kept => decide (2 * contextLength < kept.length)
  | changed .. => false

/-- Whether the segment is a run of kept lines. -/
def isSame : Segment → Bool
  | same _ => true
  | changed .. => false

end Segment

/-- A function applied to the first member of a list. -/
def mapFirst {α : Type} (f : α → α) : List α → List α
  | [] => []
  | a :: as => f a :: as

/-- A function applied to the last member of a list. -/
def mapLast {α : Type} (f : α → α) : List α → List α
  | [] => []
  | [a] => [f a]
  | a :: as => a :: mapLast f as

/-- Segments cut into groups in the middle of long runs of kept lines; `current` is the group so
far. A group that is kept lines alone is left out at the end. -/
def groupsFrom (current : List Segment) : List Segment → List (List Segment)
  | [] => if current.all Segment.isSame then [] else [current]
  | segment :: rest =>
    if segment.isLong then
      (current ++ [segment.keepFirst contextLength]) ::
        groupsFrom [segment.keepLast contextLength] rest
    else
      groupsFrom (current ++ [segment]) rest

/-- The segments of a script as groups, each with its context. -/
def groups (segments : List Segment) : List (List Segment) :=
  groupsFrom [] (mapLast (Segment.keepFirst contextLength)
    (mapFirst (Segment.keepLast contextLength) segments))

/-- A range of a hunk header: its first line, counted from one, and its length unless that is one.
An empty range is given by the line before it. -/
def rangeText (start stop : Nat) : Text :=
  let length := stop - start
  if length = 1 then Text.decimal (start + 1)
  else if length = 0 then Text.decimal start ++ [','] ++ Text.decimal 0
  else Text.decimal (start + 1) ++ [','] ++ Text.decimal length

/-- A line after the character that says what it is. A line that nothing ends is ended by an LF. -/
def diffLine (sign : Char) (line : Text) : Text :=
  sign :: line ++ (if Text.isTerminated line then [] else ['\n'])

/-- The lines of a segment. -/
def Segment.body (old new : List Text) : Segment → Text
  | same kept => ((stretch old kept.oldStart kept.length).map (diffLine ' ')).flatten
  | changed deleted inserted =>
    ((deleted.toList.flatMap (Edit.oldLines old)).map (diffLine '-')).flatten ++
      ((inserted.toList.flatMap (Edit.newLines new)).map (diffLine '+')).flatten

/-- A group of segments as a hunk. The header reaches from the start of the first segment to the end
of the last. -/
def hunkText (old new : List Text) (group : List Segment) : Text :=
  match group.head?, group.getLast? with
  | some first, some last =>
    Text.ofString "@@ -" ++ rangeText first.oldStart (last.oldStart + last.oldLength) ++
      Text.ofString " +" ++ rangeText first.newStart (last.newStart + last.newLength) ++
      Text.ofString " @@\n" ++ (group.map (Segment.body old new)).flatten
  | _, _ => []

/-- The unified diff that turns one text into another. -/
def unified (old new : Text) : Text :=
  let oldLines := Text.cutTerminated old
  let newLines := Text.cutTerminated new
  let edits := compact oldLines newLines (script oldLines newLines)
  fileHeader ++ ((groups (Segment.ofEdits edits)).map (hunkText oldLines newLines)).flatten

end Literate.Diff
