import Literate.Proofs.Patch.ApplyBack
import Mathlib.Data.List.DropRight

/-!
# The empty lines at the end of a diff

`Hunk.trimmed` is a hunk without the empty context lines at its end.  The last hunk of a generated
diff still goes where it went if it has more of the old list than these lines.  If it has not, its
old side is empty, and then its header means the place after the line, not before it.

`Sinks old new group`: the hunk goes one line too late, and that makes a difference.
`applyFrom_trimmed` says that the last hunk applies without the empty lines, and gives the new lines
if it does not sink, and only then.
-/

namespace Literate

/-- Whether the line is an empty context line. -/
def HunkLine.isEmptyContext (line : HunkLine) : Bool :=
  line = .context []

/-- The hunk without the empty context lines at its end. -/
def Hunk.trimmed (hunk : Hunk) : Hunk :=
  { hunk with lines := hunk.lines.rdropWhile HunkLine.isEmptyContext }

/-- The lines that are left out stand on both sides. -/
theorem Hunk.exists_of_trimmed (hunk : Hunk) :
    ∃ count, hunk.oldLines = hunk.trimmed.oldLines ++ List.replicate count [] ∧
      hunk.newLines = hunk.trimmed.newLines ++ List.replicate count [] := by
  obtain ⟨count, hlines⟩ :
      ∃ count, hunk.lines = hunk.trimmed.lines ++ List.replicate count (.context []) := by
    refine ⟨_, List.rdropWhile_append_rtakeWhile.symm.trans
      (congrArg _ (List.eq_replicate_of_mem fun line hline => ?_))⟩
    have hempty : HunkLine.isEmptyContext line = true := List.mem_rtakeWhile_imp hline
    exact of_decide_eq_true hempty
  refine ⟨count, ?_, ?_⟩
  · rw [oldLines, hlines, List.filterMap_append, List.filterMap_replicate]
    rfl
  · rw [newLines, hlines, List.filterMap_append, List.filterMap_replicate]
    rfl

namespace Diff

variable {old new : List Text} {i j i' j' : Nat} {group : List Segment}

/-- A hunk with an empty old side goes where it says. -/
theorem locate_of_oldLines_eq_nil {hunk : Hunk} {cursor : Nat} (h : hunk.oldLines = [])
    (hc : cursor ≤ hunk.oldStart) (hle : hunk.oldStart ≤ old.length) :
    hunk.locate old cursor = some hunk.oldStart := by
  have hpos : hunk.position = hunk.oldStart := by rw [Hunk.position, if_pos h]
  have hfits : Hunk.matchesAt old hunk.oldLines cursor hunk.oldStart = true := by
    rw [Hunk.matchesAt_iff, h]
    exact ⟨hc, hle, rfl⟩
  rw [Hunk.locate]
  simp only [hpos, hfits, if_true]

/-- **The hunk of the group sinks.**  Empty lines at its end are all that it has of the old list,
and it adds a line that is not empty. -/
def Sinks (old new : List Text) (group : List Segment) : Prop :=
  (hunkOf old new group).oldLines ≠ [] ∧ (hunkOf old new group).trimmed.oldLines = [] ∧
    ∃ a ∈ (hunkOf old new group).trimmed.newLines, a ≠ []

theorem trimmed_eq_self {hunk : Hunk} {t : Text} (h : hunk.lines.getLast? = some (.added t)) :
    hunk.trimmed = hunk := by
  have hself : hunk.lines.rdropWhile HunkLine.isEmptyContext = hunk.lines := by
    refine List.rdropWhile_eq_self_iff.mpr fun hne hempty => ?_
    rw [List.getLast_of_mem_getLast? h] at hempty
    cases hempty
  rw [Hunk.trimmed, hself]

/-- A hunk that ends with an insertion is carried as it is. -/
theorem trimmed_eq_self_of_isLoneInsertion {before : List Segment} {last : Segment}
    (h : Route (Segment.Leads old new) i j group i' j') (hlast : group = before ++ [last])
    (hlone : last.IsLoneInsertion) : (hunkOf old new group).trimmed = hunkOf old new group := by
  subst hlast
  obtain ⟨i₁, j₁, -, hleads⟩ := route_append_iff.mp h
  cases route_singleton_iff.mp hleads with
  | @inserted _ _ e hk he =>
    obtain ⟨hl, -, -, rfl, hj⟩ := he.of_insert hk
    have hne : stretch new j₁ e.length ≠ [] := ne_nil_of_stretch hl hj
    refine trimmed_eq_self (t := (stretch new j₁ e.length).getLast hne) ?_
    rw [hunkOf, List.flatMap_append, List.flatMap_singleton, Segment.hunkLines]
    simp only [Option.toList_none, Option.toList_some, List.flatMap_nil, List.flatMap_singleton,
      List.map_nil, List.nil_append, newLines_of_insert hk he]
    rw [List.getLast?_append, List.getLast?_map, List.getLast?_eq_some_getLast hne]
    rfl
  | _ => exact hlone.elim

/-- **What is left of the last hunk** without the empty lines at its end: it still states the line
where its old side begins, and in its place the new lines come out. -/
theorem exists_of_trimmed_ne (h : Laid old new i j [group])
    (ht : (hunkOf old new group).trimmed ≠ hunkOf old new group) :
    ¬ Slips old new group ∧ (hunkOf old new group).oldLines ≠ [] ∧
      ∃ k l count, (hunkOf old new group).trimmed.oldStart = i + k + 1 ∧
        (hunkOf old new group).trimmed.oldLines = stretch old (i + k) l ∧
        stretch old (i + k + l) count = List.replicate count [] ∧ 0 < l + count ∧
        i + k + l + count ≤ old.length ∧
        new.drop j = stretch old i k ++ (hunkOf old new group).trimmed.newLines ++
          old.drop (i + k + l) := by
  cases h with
  | @cons _ _ k i' j' _ _ gap space route pos first last later =>
    obtain ⟨segment, more, hfirst, hstart⟩ := first
    obtain ⟨others, final, hlast, hstop⟩ := last
    have hlone : ¬ final.IsLoneInsertion := fun hlone =>
      ht (trimmed_eq_self_of_isLoneInsertion route hlast hlone)
    obtain ⟨l, m, rfl, rfl, hside, hside', hle⟩ := route_sides route
    have hl : 0 < l := by omega
    have hle := hle hl
    obtain ⟨-, -, hnumber⟩ := groupStart_eq hfirst hlast
    rw [hstart, hstop.resolve_right fun hc => hlone hc.1, rangeNumber, if_neg (by omega)] at hnumber
    have hend : old.drop (i + k + l) = new.drop (j + k + m) := by
      cases later with
      | nil h => exact h
    obtain ⟨count, hold, hnew⟩ := (hunkOf old new group).exists_of_trimmed
    generalize hcut : (hunkOf old new group).trimmed = cut at hold hnew
    have hcount : l = cut.oldLines.length + count := by
      rw [← length_stretch hle, ← hside, hold, List.length_append, List.length_replicate]
    obtain ⟨hcutSide, hempty⟩ : stretch old (i + k) cut.oldLines.length = cut.oldLines ∧
        stretch old (i + k + cut.oldLines.length) count = List.replicate count [] := by
      rw [hside, hcount, stretch_add] at hold
      exact List.append_inj hold (length_stretch (by omega))
    refine ⟨?_, ?_, k, cut.oldLines.length, count, ?_, hcutSide.symm, hempty, by omega, by omega,
      ?_⟩
    · rintro ⟨-, last, x, -, hlast', hlone', -⟩
      obtain rfl := Option.some.inj ((hlast ▸ List.getLast?_concat).symm.trans hlast')
      exact hlone hlone'
    · rw [hside]
      exact ne_nil_of_stretch hl hle
    · rw [← hcut]
      exact hnumber
    · rw [← stretch_append_drop old (i + k + cut.oldLines.length) count, hempty, Nat.add_assoc,
        ← hcount, hend, List.append_assoc, ← List.append_assoc cut.newLines, ← hnew, hside', gap,
        stretch_append_drop, stretch_append_drop]

/-- **The last hunk without the empty lines at its end** applies, and gives the new lines if it does
not sink, and only then. -/
theorem applyFrom_trimmed (h : Laid old new i j [group])
    (ht : (hunkOf old new group).trimmed ≠ hunkOf old new group) (number : Nat) :
    ∃ result, Hunk.applyFrom old number i [(hunkOf old new group).trimmed] = .ok result ∧
      result.length = (new.drop j).length ∧ (∀ a ∈ result, a ∈ new) ∧
      (result = new.drop j ↔ ¬ Sinks old new group) := by
  obtain ⟨-, hne, k, l, count, hstart, hside, hempty, hpos, hle, hdrop⟩ := exists_of_trimmed_ne h ht
  have hnew : ∀ a ∈ new.drop j, a ∈ new := fun a ha => List.mem_of_mem_drop ha
  rcases Nat.eq_zero_or_pos l with rfl | hl
  · -- An empty old side stands after the line that the header states, not before it.
    rw [stretch_zero] at hside
    rw [Nat.add_zero] at hempty hdrop hle
    have hx : old[i + k]? = some [] := by
      have hfirst := congrArg List.head? hempty
      rw [stretch, List.head?_take, if_neg (by omega), List.head?_drop, List.head?_replicate,
        if_neg (by omega)] at hfirst
      exact hfirst
    have hcons : old.drop (i + k) = [] :: old.drop (i + k + 1) :=
      List.drop_eq_getElem?_toList_append.trans (by rw [hx]; rfl)
    have hfront : stretch old i (k + 1) = stretch old i k ++ [[]] := by
      rw [stretch_add, stretch_one hx]
    have hlocate : (hunkOf old new group).trimmed.locate old i = some _ :=
      locate_of_oldLines_eq_nil hside (by omega) (by omega)
    have happly := applyFrom_cons hlocate
      (show Hunk.applyFrom old (number + 1) _ [] = .ok _ from rfl)
    rw [hstart, hside, List.length_nil, Nat.add_zero, Nat.add_assoc i, Nat.add_sub_cancel_left,
      ← Nat.add_assoc i, hfront] at happly
    rw [hcons] at hdrop
    refine ⟨_, happly, ?_, fun a ha => hnew a ?_, ?_⟩
    · rw [hdrop]
      exact shifted_perm.symm.length_eq
    · rw [hdrop]
      exact shifted_perm.symm.mem_iff.mp ha
    · rw [hdrop, eq_comm, shifted_eq_iff, Sinks, hside]
      simp [hne]
  · have hlocate := locate_of_start_pred hside hl (show i + k + l ≤ old.length by omega)
      (Nat.le_add_right i k) (by omega)
    have hlen := length_stretch (show i + k + l ≤ old.length by omega)
    have happly := applyFrom_cons hlocate
      (show Hunk.applyFrom old (number + 1) _ [] = .ok _ from rfl)
    rw [hside, hlen, Nat.add_sub_cancel_left, ← hdrop] at happly
    refine ⟨_, happly, rfl, hnew, fun _ hs => ?_, fun _ => rfl⟩
    have hnil := hs.2.1
    rw [hside] at hnil
    exact ne_nil_of_stretch hl (by omega) hnil

end Diff

end Literate
