import Literate.Patch.Apply
import Literate.Proofs.Patch.Reading

/-!
# The two sides of a hunk

The hunk of a group that leads from one pair of places to another has the lines between these places
as its sides: `route_sides`.  Groups that are laid out in two lists are laid out in what a function
makes of their lines (`Laid.map`), so that the hunks may be compared by the contents of lines.
-/

namespace Literate.Diff

variable {old new : List Text} {i j i' j' : Nat}

/-! ### Lines changed by a function -/

theorem leads_map (f : Text → Text) {e : Edit} (h : e.Leads old new i j i' j') :
    e.Leads (old.map f) (new.map f) i j i' j' := by
  obtain ⟨kind, o, n, l⟩ := e
  cases kind with
  | keep =>
    obtain ⟨hl, ho, hn, hi, hj, hi', hj', he⟩ := leads_keep_iff.mp h
    refine leads_keep_iff.mpr ⟨hl, ho, hn, hi, hj, ?_, ?_, ?_⟩
    · rwa [List.length_map]
    · rwa [List.length_map]
    · rw [← map_stretch, ← map_stretch, he]
  | delete =>
    obtain ⟨hl, ho, hi, hj, hi'⟩ := leads_delete_iff.mp h
    exact leads_delete_iff.mpr ⟨hl, ho, hi, hj, by rwa [List.length_map]⟩
  | insert =>
    obtain ⟨hl, hn, hi, hj, hj'⟩ := leads_insert_iff.mp h
    exact leads_insert_iff.mpr ⟨hl, hn, hi, hj, by rwa [List.length_map]⟩

theorem Segment.Leads.map (f : Text → Text) {segment : Segment}
    (h : segment.Leads old new i j i' j') :
    segment.Leads (old.map f) (new.map f) i j i' j' := by
  cases h with
  | same hk h => exact .same hk (leads_map f h)
  | deleted hk h => exact .deleted hk (leads_map f h)
  | inserted hk h => exact .inserted hk (leads_map f h)
  | both hd he h₁ h₂ => exact .both hd he (leads_map f h₁) (leads_map f h₂)

/-- **Groups stay laid out** when a function changes the lines of both lists. -/
theorem Laid.map (f : Text → Text) {groups : List (List Segment)} (h : Laid old new i j groups) :
    Laid (old.map f) (new.map f) i j groups := by
  induction h with
  | nil h =>
    refine .nil ?_
    rw [← List.map_drop, ← List.map_drop, h]
  | cons gap space route pos first last _ ih =>
    refine .cons ?_ space (route.mono fun _ _ _ _ _ hs => hs.map f) pos first last ih
    rw [← map_stretch, ← map_stretch, gap]

/-! ### Sides -/

theorem filterMap_old?_context (ls : List Text) :
    (ls.map HunkLine.context).filterMap HunkLine.old? = ls := by
  simp [List.filterMap_map, Function.comp_def, HunkLine.old?]

theorem filterMap_new?_context (ls : List Text) :
    (ls.map HunkLine.context).filterMap HunkLine.new? = ls := by
  simp [List.filterMap_map, Function.comp_def, HunkLine.new?]

theorem filterMap_old?_changed (deleted inserted : List Text) :
    (deleted.map HunkLine.removed ++ inserted.map HunkLine.added).filterMap HunkLine.old? =
      deleted := by
  simp [List.filterMap_map, Function.comp_def, HunkLine.old?]

theorem filterMap_new?_changed (deleted inserted : List Text) :
    (deleted.map HunkLine.removed ++ inserted.map HunkLine.added).filterMap HunkLine.new? =
      inserted := by
  simp [List.filterMap_map, Function.comp_def, HunkLine.new?]

theorem oldLines_of_delete {d : Edit} (hk : d.kind = .delete) (h : d.Leads old new i j i' j') :
    d.oldLines old = stretch old i d.length := by
  unfold Edit.oldLines
  rw [hk, (h.of_delete hk).2.1]

theorem newLines_of_insert {e : Edit} (hk : e.kind = .insert) (h : e.Leads old new i j i' j') :
    e.newLines new = stretch new j e.length := by
  rw [newLines_of_kind_eq_insert new hk, (h.of_insert hk).2.1]

/-- The lines of a segment on the two sides. -/
theorem Segment.Leads.sides {segment : Segment} (h : segment.Leads old new i j i' j') :
    (segment.hunkLines old new).filterMap HunkLine.old? = stretch old i segment.oldLength ∧
      (segment.hunkLines old new).filterMap HunkLine.new? = stretch new j segment.newLength := by
  cases h with
  | same hk h =>
    obtain ⟨-, ho, -, -, -, -, -, he⟩ := h.of_keep hk
    rw [Segment.hunkLines, filterMap_old?_context, filterMap_new?_context, ho]
    exact ⟨rfl, he⟩
  | deleted hk h =>
    rw [Segment.hunkLines, filterMap_old?_changed, filterMap_new?_changed]
    exact ⟨(List.append_nil _).trans (oldLines_of_delete hk h), rfl⟩
  | inserted hk h =>
    rw [Segment.hunkLines, filterMap_old?_changed, filterMap_new?_changed]
    exact ⟨rfl, (List.append_nil _).trans (newLines_of_insert hk h)⟩
  | both hd he h₁ h₂ =>
    rw [Segment.hunkLines, filterMap_old?_changed, filterMap_new?_changed]
    exact ⟨(List.append_nil _).trans (oldLines_of_delete hd h₁),
      (List.append_nil _).trans (newLines_of_insert he h₂)⟩

theorem Segment.Leads.le_length {segment : Segment} (h : segment.Leads old new i j i' j')
    (hi : i < i') : i' ≤ old.length := by
  cases h with
  | same hk h => exact (h.of_keep hk).2.2.2.2.2.1
  | deleted hk h => exact (h.of_delete hk).2.2.2.2
  | inserted hk h =>
    have := (h.of_insert hk).2.2.1
    omega
  | both hd _ h _ => exact (h.of_delete hd).2.2.2.2

/-- **The sides of a hunk** are the lines between the places that its group leads from and to. -/
theorem route_sides {group : List Segment} (h : Route (Segment.Leads old new) i j group i' j') :
    ∃ l m, i' = i + l ∧ j' = j + m ∧ (hunkOf old new group).oldLines = stretch old i l ∧
      (hunkOf old new group).newLines = stretch new j m ∧ (0 < l → i + l ≤ old.length) := by
  induction h with
  | nil => exact ⟨0, 0, rfl, rfl, rfl, rfl, fun h => absurd h (Nat.lt_irrefl 0)⟩
  | @cons i j i₁ j₁ i₂ j₂ segment group first rest ih =>
    obtain ⟨l, m, rfl, rfl, hold, hnew, hle⟩ := ih
    obtain ⟨hside, hside'⟩ := first.sides
    have hi := first.oldLength_eq
    have hj := first.newLength_eq
    refine ⟨segment.oldLength + l, segment.newLength + m, by omega, by omega, ?_, ?_,
      fun hpos => ?_⟩
    · rw [stretch_add, ← hi, ← hold, ← hside]
      exact List.filterMap_append
    · rw [stretch_add, ← hj, ← hnew, ← hside']
      exact List.filterMap_append
    · rcases Nat.eq_zero_or_pos l with rfl | hl
      · have := first.le_length (by omega)
        omega
      · have := hle hl
        omega

end Literate.Diff
