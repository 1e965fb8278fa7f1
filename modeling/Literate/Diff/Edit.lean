import Literate.Text.Basic

/-!
# Edits

A script that turns one list of lines into another is a list of edits: stretches of lines that are
kept, deleted or inserted. An edit refers to its lines by their places in the two lists.
-/

namespace Literate

/-- What happens to a stretch of lines. -/
inductive EditKind where
  | keep
  | delete
  | insert
deriving DecidableEq, Repr

/-- A stretch of `length` lines. A kept one stands at `oldStart` in the old list and at `newStart`
in the new one; a deleted one at `oldStart` in the old list, an inserted one at `newStart` in the
new list, and the other number says where it stood when the script was found. -/
structure Edit where
  kind : EditKind
  oldStart : Nat
  newStart : Nat
  length : Nat
deriving DecidableEq, Repr

/-- The number of lines two lists have in common at their beginnings. -/
def commonStart : List Text → List Text → Nat
  | a :: as, b :: bs => if a = b then commonStart as bs + 1 else 0
  | _, _ => 0

/-- The number of lines two lists have in common at their ends. -/
def commonEnd (as bs : List Text) : Nat :=
  commonStart as.reverse bs.reverse

theorem commonStart_le_left (as bs : List Text) : commonStart as bs ≤ as.length := by
  induction as generalizing bs with
  | nil => simp [commonStart]
  | cons a as ih =>
    cases bs with
    | nil => simp [commonStart]
    | cons b bs =>
      by_cases h : a = b
      · simpa [commonStart, h] using ih bs
      · simp [commonStart, h]

theorem commonEnd_le_left (as bs : List Text) : commonEnd as bs ≤ as.length := by
  simpa [commonEnd] using commonStart_le_left as.reverse bs.reverse

/-- What two lists have in common at their beginnings is the same lines. -/
theorem take_commonStart (as bs : List Text) :
    as.take (commonStart as bs) = bs.take (commonStart as bs) := by
  induction as generalizing bs with
  | nil => simp [commonStart]
  | cons a as ih =>
    cases bs with
    | nil => simp [commonStart]
    | cons b bs =>
      by_cases h : a = b
      · simp [commonStart, h, ih bs]
      · simp [commonStart, h]

/-- The lines from `start` on, `length` of them. -/
def stretch (lines : List Text) (start length : Nat) : List Text :=
  (lines.drop start).take length

theorem length_stretch_le (lines : List Text) (start length : Nat) :
    (stretch lines start length).length ≤ length :=
  List.length_take_le length (lines.drop start)

namespace Edit

/-- The lines of the old list that the edit is about. -/
def oldLines (old : List Text) (e : Edit) : List Text :=
  match e.kind with
  | .insert => []
  | _ => stretch old e.oldStart e.length

/-- The lines of the new list that the edit is about. -/
def newLines (new : List Text) (e : Edit) : List Text :=
  match e.kind with
  | .delete => []
  | _ => stretch new e.newStart e.length

theorem length_oldLines_le (old : List Text) (e : Edit) : (e.oldLines old).length ≤ e.length := by
  unfold oldLines
  split
  · simp
  · exact length_stretch_le old e.oldStart e.length

end Edit

end Literate
