import Literate.Diff.Middle

/-!
# Scripts

A script between two lists keeps what they have in common at their beginnings and at their ends.
What is left between is deleted if nothing is left of the new list, inserted if nothing is left of
the old one, and else cut in two in the middle of a shortest script.
-/

namespace Literate.Diff

/-- A stretch of kept lines, unless it is empty. -/
def keepEdit (oldStart newStart length : Nat) : List Edit :=
  if length = 0 then [] else [⟨.keep, oldStart, newStart, length⟩]

/-- All of the old lines deleted and all of the new ones inserted. -/
def replaceEdits (oldStart newStart oldLength newLength : Nat) : List Edit :=
  [⟨.delete, oldStart, newStart, oldLength⟩, ⟨.insert, oldStart, newStart, newLength⟩]

/-- A script between two lists that stand at given places of longer ones. The first argument bounds
how often the lists are cut in two. -/
def scriptAt : (cuts oldStart newStart : Nat) → (old new : List Text) → List Edit
  | cuts, oldStart, newStart, old, new =>
    let start := commonStart old new
    let oldRest := old.drop start
    let newRest := new.drop start
    let stop := commonEnd oldRest newRest
    let oldMid := oldRest.take (oldRest.length - stop)
    let newMid := newRest.take (newRest.length - stop)
    let oldAt := oldStart + start
    let newAt := newStart + start
    let between :=
      match oldMid, newMid with
      | [], [] => []
      | _ :: _, [] => [⟨.delete, oldAt, newAt, oldMid.length⟩]
      | [], _ :: _ => [⟨.insert, oldAt, newAt, newMid.length⟩]
      | _ :: _, _ :: _ =>
        match cuts, middle oldMid newMid with
        | cuts + 1, some (x, y) =>
          scriptAt cuts oldAt newAt (oldMid.take x) (newMid.take y) ++
            scriptAt cuts (oldAt + x) (newAt + y) (oldMid.drop x) (newMid.drop y)
        | _, _ => replaceEdits oldAt newAt oldMid.length newMid.length
    keepEdit oldStart newStart start ++ between ++
      keepEdit (oldAt + oldMid.length) (newAt + newMid.length) stop

/-- A shortest script between two lists. -/
def script (old new : List Text) : List Edit :=
  scriptAt (old.length + new.length) 0 0 old new

end Literate.Diff
