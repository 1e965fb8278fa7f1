import Literate.Proofs.Patch.Placement

/-!
# No slice out of range

Hunks are placed by comparing slices of a list of lines, and the lines between them are slices as
well.  Here the same work is done with slices that may be out of range (`slice?`), and then it has
no result at all.  It always has one, which is that of `Patch.apply` (`applied?_eq`).
-/

namespace Literate

namespace Hunk

/-- The lines of a list from place `start` up to place `stop`, unless that is out of range. -/
def slice? (ls : List Text) (start stop : Nat) : Option (List Text) :=
  if start ≤ stop ∧ stop ≤ ls.length then some ((ls.drop start).take (stop - start)) else none

/-- `matchesAt`, with a slice that may be out of range. -/
def matchesAt? (old expected : List Text) (cursor position : Nat) : Option Bool :=
  if cursor ≤ position ∧ position + expected.length ≤ old.length then
    (slice? old position (position + expected.length)).map fun slice => slice == expected
  else
    some false

/-- `search` for a place, where looking at one may fail. -/
def search? (fits : Nat → Option Bool) (stated : Nat) : Nat → Nat → Option (Option Nat)
  | _, 0 => some none
  | distance, count + 1 => do
    if ← fits (stated + distance) then
      return some (stated + distance)
    if distance ≤ stated then
      if ← fits (stated - distance) then
        return some (stated - distance)
    search? fits stated (distance + 1) count

/-- `locate`, with slices that may be out of range. -/
def locate? (hunk : Hunk) (old : List Text) (cursor : Nat) : Option (Option Nat) := do
  let fits := matchesAt? old hunk.oldLines cursor
  if ← fits hunk.position then
    return some hunk.position
  if hunk.oldLines = [] then
    return none
  search? fits hunk.position 1 old.length

/-- `applyFrom`, with slices that may be out of range. -/
def applyFrom? (old : List Text) :
    Nat → Nat → List Hunk → Option (Except PatchError (List Text))
  | _, cursor, [] => (slice? old cursor old.length).map .ok
  | number, cursor, hunk :: rest => do
    match ← hunk.locate? old cursor with
    | none => return .error (.mismatch number hunk.oldStart hunk.oldLines)
    | some position =>
      let gap ← slice? old cursor position
      match ← applyFrom? old (number + 1) (position + hunk.oldLines.length) rest with
      | .error e => return .error e
      | .ok later => return .ok (gap ++ hunk.newLines ++ later)

end Hunk

/-- `apply`, with slices that may be out of range. -/
def Patch.applied? (old patch : Text) : Option (Except PatchError Text) :=
  match Hunk.parse patch with
  | .error e => some (.error e)
  | .ok hunks => do
    match ← Hunk.applyFrom? (Text.lines old) 1 0 hunks with
    | .error e => return .error e
    | .ok lines => return .ok (assemble old lines)

namespace Hunk

variable {old expected : List Text} {cursor position start stop : Nat} {hunk : Hunk}

theorem slice?_eq {ls : List Text} (h : start ≤ stop) (hl : stop ≤ ls.length) :
    slice? ls start stop = some ((ls.drop start).take (stop - start)) :=
  if_pos ⟨h, hl⟩

theorem matchesAt?_eq : matchesAt? old expected cursor position =
    some (matchesAt old expected cursor position) := by
  unfold matchesAt? matchesAt
  by_cases h : cursor ≤ position ∧ position + expected.length ≤ old.length
  · rw [if_pos h, slice?_eq (Nat.le_add_right _ _) h.2, Nat.add_sub_cancel_left]
    simp [h]
  · rw [if_neg h, ← Bool.decide_and, decide_eq_false h]
    rfl

theorem search?_eq (fits : Nat → Bool) (stated distance count : Nat) :
    search? (fun p => some (fits p)) stated distance count =
      some (search fits stated distance count) := by
  induction count generalizing distance with
  | zero => rfl
  | succ count ih =>
    rw [search?, search]
    by_cases hlater : fits (stated + distance) = true
    · simp [hlater]
    · by_cases hle : distance ≤ stated <;> by_cases hearlier : fits (stated - distance) = true <;>
        simp [hlater, hle, hearlier, ih]

theorem locate?_eq : hunk.locate? old cursor = some (hunk.locate old cursor) := by
  have hfits : matchesAt? old hunk.oldLines cursor =
      fun p => some (matchesAt old hunk.oldLines cursor p) := funext fun _ => matchesAt?_eq
  rw [locate?, locate, hfits, search?_eq]
  generalize matchesAt old hunk.oldLines cursor = fits
  by_cases hstated : fits hunk.position = true
  · simp [hstated]
  · by_cases hne : hunk.oldLines = [] <;> simp [hstated, hne]

theorem applyFrom?_eq {hunks : List Hunk} (number : Nat) (hc : cursor ≤ old.length) :
    applyFrom? old number cursor hunks = some (applyFrom old number cursor hunks) := by
  induction hunks generalizing number cursor with
  | nil =>
    rw [applyFrom?, slice?_eq hc (Nat.le_refl _), applyFrom, ← List.length_drop, List.take_length]
    rfl
  | cons hunk rest ih =>
    rw [applyFrom?, applyFrom, locate?_eq]
    cases hl : hunk.locate old cursor with
    | none => rfl
    | some position =>
      obtain ⟨hcursor, hstop, -⟩ := (belongs_of_locate hl).stands
      simp only [Option.bind_eq_bind, Option.bind_some]
      rw [slice?_eq hcursor (by omega), Option.bind_some, ih (number + 1) hstop, Option.bind_some]
      cases applyFrom old (number + 1) (position + hunk.oldLines.length) rest <;> rfl

end Hunk

/-- **No slice is out of range**, whatever the texts are. -/
theorem Patch.applied?_eq (old patch : Text) : applied? old patch = some (apply old patch) := by
  unfold applied? apply
  cases Hunk.parse patch with
  | error e => rfl
  | ok hunks =>
    simp only [Option.bind_eq_bind]
    rw [Hunk.applyFrom?_eq 1 (Nat.zero_le _), Option.bind_some]
    cases Hunk.applyFrom (Text.lines old) 1 0 hunks <;> rfl

end Literate
