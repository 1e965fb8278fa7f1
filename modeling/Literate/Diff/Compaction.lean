import Literate.Diff.Script

/-!
# Joining edits

A stretch of inserted lines can often stand at several places: it may slide over kept lines that are
equal to its own last or first ones. Each deletion and then each insertion is moved up as far as it
goes, and then down as far as it goes, and joins those of its kind that it runs into. A deletion and
an insertion that meet change places.

A place in a script is the list of the edits before it, the nearest first, the edit that stands
there, and the list of the edits after it.
-/

namespace Literate.Diff

/-- An edit of a script with those before it, the nearest first, and those after it. -/
structure Place where
  before : List Edit
  edit : Edit
  after : List Edit

/-- The length of a list of edits together with that of their stretches; what a slide uses up. -/
def extent : List Edit → Nat
  | [] => 0
  | e :: rest => e.length + 1 + extent rest

/-- Kept lines that slid to after an edit, in front of the edits that follow it. -/
def keepAfter (oldStart newStart length : Nat) (after : List Edit) : List Edit :=
  match after with
  | ⟨.keep, o, n, l⟩ :: rest => ⟨.keep, o - length, n - length, l + length⟩ :: rest
  | _ => ⟨.keep, oldStart, newStart, length⟩ :: after

/-- Kept lines that slid to before an edit, next to the edits that precede it. -/
def keepBefore (oldStart newStart length : Nat) (before : List Edit) : List Edit :=
  match before with
  | ⟨.keep, o, n, l⟩ :: rest => ⟨.keep, o, n, l + length⟩ :: rest
  | _ => ⟨.keep, oldStart, newStart, length⟩ :: before

/-- An edit moved up as far as it goes. -/
def slideUp (old new : List Text) (before : List Edit) (e : Edit) (after : List Edit) : Place :=
  match before with
  | [] => ⟨[], e, after⟩
  | prev :: rest =>
    if prev.kind = .keep then
      let shared := commonEnd (prev.oldLines old) (e.newLines new)
      if _h : shared = 0 then
        if prev.length = 0 then slideUp old new rest e after else ⟨before, e, after⟩
      else
        let moved := keepAfter (prev.oldStart + prev.length - shared)
          (e.newStart + e.length - shared) shared after
        let e' := { e with oldStart := e.oldStart - shared, newStart := e.newStart - shared }
        if prev.length = shared then
          slideUp old new rest e' moved
        else
          slideUp old new ({ prev with length := prev.length - shared } :: rest) e' moved
    else if prev.kind = e.kind then
      slideUp old new rest { prev with length := prev.length + e.length } after
    else
      slideUp old new rest e (prev :: after)
termination_by extent before
decreasing_by
  all_goals simp_all only [extent]
  · omega
  · omega
  · have h₁ : shared ≤ prev.length :=
      Nat.le_trans (commonEnd_le_left _ _) (prev.length_oldLines_le old)
    omega
  · omega
  · omega

/-- An edit moved down as far as it goes. -/
def slideDown (old new : List Text) (before : List Edit) (e : Edit) (after : List Edit) : Place :=
  match after with
  | [] => ⟨before, e, []⟩
  | next :: rest =>
    if next.kind = .keep then
      let shared := commonStart (next.oldLines old) (e.newLines new)
      if _h : shared = 0 then
        if next.length = 0 then slideDown old new before e rest else ⟨before, e, after⟩
      else
        let moved := keepBefore next.oldStart e.newStart shared before
        let e' := { e with oldStart := e.oldStart + shared, newStart := e.newStart + shared }
        if next.length = shared then
          slideDown old new moved e' rest
        else
          slideDown old new moved e'
            (⟨next.kind, next.oldStart + shared, next.newStart + shared, next.length - shared⟩ ::
              rest)
    else if next.kind = e.kind then
      slideDown old new before { e with length := e.length + next.length } rest
    else
      slideDown old new (next :: before) e rest
termination_by extent after
decreasing_by
  all_goals simp_all only [extent]
  · omega
  · omega
  · have h₁ : shared ≤ next.length :=
      Nat.le_trans (commonStart_le_left _ _) (next.length_oldLines_le old)
    omega
  · omega
  · omega

/-- The first `count` edits of a kind among `edits`, each moved up and then down; `before` are the
edits passed so far, the last one first. -/
def settle (old new : List Text) (kind : EditKind) :
    (count : Nat) → (before edits : List Edit) → List Edit
  | 0, before, edits => before.reverse ++ edits
  | count + 1, before, edits =>
    match edits.dropWhile fun e => e.kind != kind with
    | [] => before.reverse ++ edits
    | e :: after =>
      let passed := edits.takeWhile fun e => e.kind != kind
      let up := slideUp old new (passed.reverse ++ before) e after
      let down := slideDown old new up.before up.edit up.after
      settle old new kind count (down.edit :: down.before) down.after

/-- All edits of a kind moved up and then down. Moving one never adds another. -/
def settleAll (old new : List Text) (kind : EditKind) (edits : List Edit) : List Edit :=
  settle old new kind (edits.countP fun e => e.kind = kind) [] edits

/-- A script with its deletions and its insertions joined where they can be. -/
def compact (old new : List Text) (edits : List Edit) : List Edit :=
  settleAll old new .insert (settleAll old new .delete edits)

end Literate.Diff
