import Literate.Proofs.Patch.Added
import Mathlib.Data.Nat.Dist

/-!
# Where a hunk goes

`StandsAt` says that lines stand in a list at a place, and `Precedes` which of two places is nearer
to a third.  A hunk that is placed goes to the place it states, or else to the nearest one where its
old side stands (`belongs_of_locate`).  The search for that place goes as many lines away from the
stated one as the list has, in both directions.  So a hunk is refused exactly if every place where
its old side stands is farther from the stated one, which can be the case only if the stated place
lies behind the end of the list (`locate_eq_none_iff`).
-/

namespace Literate.Hunk

variable {old expected : List Text} {cursor position other stated : Nat} {hunk : Hunk}

/-! ### Places -/

/-- **The lines `expected` stand in `old`** from place `position` on, which is not before
`cursor`. -/
structure StandsAt (old expected : List Text) (cursor position : Nat) : Prop where
  cursor_le : cursor ≤ position
  stop_le : position + expected.length ≤ old.length
  lines_eq : (old.drop position).take expected.length = expected

/-- **`position` is the nearer one to `stated`**, or it is as near as `other` and not before it. -/
def Precedes (stated position other : Nat) : Prop :=
  Nat.dist position stated < Nat.dist other stated ∨
    Nat.dist position stated = Nat.dist other stated ∧ other ≤ position

/-- **The place of a hunk** in `old`, not before `cursor`.  Its old side stands there, and it is the
stated place; or the old side, which is not empty, does not stand at the stated place, and there is
no nearer place where it does. -/
structure Belongs (hunk : Hunk) (old : List Text) (cursor position : Nat) : Prop where
  stands : StandsAt old hunk.oldLines cursor position
  stated_or_nearest : position = hunk.position ∨
    ¬ StandsAt old hunk.oldLines cursor hunk.position ∧ hunk.oldLines ≠ [] ∧
      ∀ other, StandsAt old hunk.oldLines cursor other → Precedes hunk.position position other

theorem matchesAt_iff_standsAt :
    matchesAt old expected cursor position = true ↔ StandsAt old expected cursor position :=
  matchesAt_iff.trans ⟨fun ⟨hc, hs, hl⟩ => ⟨hc, hs, hl⟩, fun ⟨hc, hs, hl⟩ => ⟨hc, hs, hl⟩⟩

theorem dist_eq_iff {distance : Nat} : Nat.dist other stated = distance ↔
    other = stated + distance ∨ distance ≤ stated ∧ other = stated - distance := by
  unfold Nat.dist
  omega

/-! ### The search -/

section Search

variable {fits : Nat → Bool} {distance count : Nat}

/-- If the search does not end at a distance, nothing fits there. -/
theorem dist_ne_of_fits (hlater : ¬ fits (stated + distance) = true)
    (hearlier : ¬ (decide (distance ≤ stated) && fits (stated - distance)) = true)
    (hf : fits other = true) : Nat.dist other stated ≠ distance := by
  intro hd
  rcases dist_eq_iff.mp hd with rfl | ⟨hle, rfl⟩
  · exact hlater hf
  · exact hearlier (by rw [hf, Bool.and_true, decide_eq_true_iff]; exact hle)

/-- **The search finds the nearest place** that fits and is not nearer than where it begins. -/
theorem of_search (h : search fits stated distance count = some position) :
    Nat.dist position stated < distance + count ∧
      ∀ other, fits other = true → distance ≤ Nat.dist other stated →
        Precedes stated position other := by
  induction count generalizing distance with
  | zero => cases h
  | succ count ih =>
    rw [search] at h
    split at h
    · -- The later of the two places at this distance.
      obtain rfl := Option.some.inj h
      have hp : Nat.dist (stated + distance) stated = distance := dist_eq_iff.mpr (Or.inl rfl)
      refine ⟨by omega, fun other _ hd => ?_⟩
      rw [Precedes, hp]
      rcases Nat.lt_or_eq_of_le hd with hlt | heq
      · exact Or.inl hlt
      · refine Or.inr ⟨heq, ?_⟩
        have := dist_eq_iff.mp heq.symm
        omega
    · next hlater =>
      split at h
      · next hearlier =>
        -- The earlier one: the later one does not fit.
        obtain rfl := Option.some.inj h
        have hle : distance ≤ stated := of_decide_eq_true (Bool.and_eq_true_iff.mp hearlier).1
        have hp : Nat.dist (stated - distance) stated = distance :=
          dist_eq_iff.mpr (Or.inr ⟨hle, rfl⟩)
        refine ⟨by omega, fun other hf hd => ?_⟩
        rw [Precedes, hp]
        rcases Nat.lt_or_eq_of_le hd with hlt | heq
        · exact Or.inl hlt
        · rcases dist_eq_iff.mp heq.symm with rfl | ⟨-, rfl⟩
          · exact absurd hf hlater
          · exact Or.inr ⟨heq, Nat.le_refl _⟩
      · next hearlier =>
        obtain ⟨hlt, hnearest⟩ := ih h
        refine ⟨by omega, fun other hf hd => hnearest other hf ?_⟩
        have := dist_ne_of_fits hlater hearlier hf
        omega

/-- **The search leaves nothing out**: if it fails, what fits is nearer than where it begins or not
nearer than where it ends. -/
theorem le_dist_of_search_eq_none (h : search fits stated distance count = none)
    (hf : fits other = true) (hd : distance ≤ Nat.dist other stated) :
    distance + count ≤ Nat.dist other stated := by
  induction count generalizing distance with
  | zero => exact hd
  | succ count ih =>
    rw [search] at h
    split at h
    · cases h
    · next hlater =>
      split at h
      · cases h
      · next hearlier =>
        have hne := dist_ne_of_fits hlater hearlier hf
        have := ih h (by omega)
        omega

end Search

/-! ### Hunks -/

/-- **A hunk goes where it belongs.** -/
theorem belongs_of_locate (h : hunk.locate old cursor = some position) :
    hunk.Belongs old cursor position := by
  refine ⟨matchesAt_iff_standsAt.mp (matchesAt_of_locate h), ?_⟩
  rw [locate] at h
  split at h
  · exact Or.inl (Option.some.inj h).symm
  · next hstated =>
    split at h
    · cases h
    · next hne =>
      have hs : ¬ StandsAt old hunk.oldLines cursor hunk.position := fun hs =>
        hstated (matchesAt_iff_standsAt.mpr hs)
      refine Or.inr ⟨hs, hne, fun other ho => (of_search h).2 other
        (matchesAt_iff_standsAt.mpr ho) ?_⟩
      refine Nat.dist_pos_of_ne ?_
      rintro rfl
      exact hs ho

/-- **When a hunk is refused.**  Its old side, if it is not empty, stands only at places that are
more lines before the stated one than the list has. -/
theorem locate_eq_none_iff (hne : hunk.oldLines ≠ []) : hunk.locate old cursor = none ↔
    ∀ position, StandsAt old hunk.oldLines cursor position →
      position + old.length < hunk.position := by
  constructor
  · intro h position hp
    have hf := matchesAt_iff_standsAt.mpr hp
    rw [locate] at h
    split at h
    · cases h
    · next hstated =>
      have hpos : 1 ≤ Nat.dist position hunk.position := by
        refine Nat.dist_pos_of_ne ?_
        rintro rfl
        exact hstated hf
      have hfar := le_dist_of_search_eq_none h hf hpos
      -- Behind the stated place, no place of the list is so far away.
      have hstop := hp.stop_le
      unfold Nat.dist at hfar
      omega
  · intro h
    cases hl : hunk.locate old cursor with
    | none => rfl
    | some position =>
      have hfar := h position (belongs_of_locate hl).stands
      rw [locate] at hl
      split at hl
      · obtain rfl := Option.some.inj hl
        omega
      · have hlt := (of_search hl).1
        unfold Nat.dist at hlt
        omega

end Literate.Hunk
