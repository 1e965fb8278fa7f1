import Literate.Proofs.Document.Carried
import Literate.Proofs.Patch.Generated
import Literate.Proofs.Patch.Trimmed

/-!
# A generated diff in a block

A block carries a diff without the blank lines at its end, and without the white space on its blank
lines.  If the new text is tidy, the blank lines are empty context lines, and those at the end
belong to the last hunk: `parse_carried_unified`.

`Survives old new`: no hunk slips, and the last one does not sink.  The diff that a block carries
always applies, and it gives the new text if it survives, and only then
(`apply_carried_unified_iff`).
-/

namespace Literate

namespace Diff

variable {old new : List Text} {i j : Nat} {group : List Segment}

/-! ### The lines of a carried diff -/

/-- **A line of a diff is read the same** if a block carries it, unless it is context of white
space. -/
theorem ofText?_carriedText {line : HunkLine}
    (h : ∀ t, line = .context t → Text.isBlank t = true → t = []) :
    DiffLine.ofText? (Text.carriedText line.text) = some (.body line) := by
  by_cases hblank : Text.isBlank line.text = true
  · rw [Text.carriedText, if_pos hblank]
    cases line with
    | context t =>
      obtain rfl := h t rfl hblank
      rfl
    | _ => cases hblank
  · rw [Text.carriedText, if_neg hblank, ofText?_text]

theorem rdropWhile_congr {α : Type} {p q : α → Bool} {as : List α} (h : ∀ a ∈ as, p a = q a) :
    as.rdropWhile p = as.rdropWhile q := by
  induction as using List.reverseRecOn with
  | nil => rfl
  | append_singleton as a ih =>
    rw [List.rdropWhile_concat, List.rdropWhile_concat, h a (by simp),
      ih fun b hb => h b (List.mem_append_left _ hb)]

/-- The blank lines at the end of a hunk are its empty context lines there. -/
theorem rdropWhile_texts {hunk : Hunk}
    (h : ∀ t, .context t ∈ hunk.lines → Text.isBlank t = true → t = []) :
    (hunk.lines.map HunkLine.text).rdropWhile Text.isBlank =
      hunk.trimmed.lines.map HunkLine.text := by
  rw [Grammar.rdropWhile_map, Hunk.trimmed, rdropWhile_congr]
  intro line hline
  cases line with
  | context t =>
    refine Bool.eq_iff_iff.mpr ⟨fun hb => ?_, fun he => ?_⟩
    · exact decide_eq_true (congrArg HunkLine.context (h t hline hb))
    · obtain rfl := HunkLine.context.inj (of_decide_eq_true he)
      rfl
  | _ => rfl

/-- A header is not blank. -/
theorem isBlank_of_beginsWith {header : Text}
    (h : Text.beginsWith (Text.ofString "@@") header = true) : Text.isBlank header = false := by
  obtain ⟨rest, hrest⟩ := Option.isSome_iff_exists.mp h
  rw [Text.after?_eq_some_iff.mp hrest]
  rfl

/-- **A hunk is read the same** if a block carries its lines. -/
theorem isRead_carried {header : Text} {hunk : Hunk}
    (hbegins : Text.beginsWith (Text.ofString "@@") header = true)
    (hstart : Hunk.headerStart? header = some hunk.oldStart)
    (h : ∀ t, .context t ∈ hunk.lines → Text.isBlank t = true → t = []) :
    IsRead ((header :: hunk.lines.map HunkLine.text).map Text.carriedText) hunk := by
  have hheader : Text.carriedText header = header := by
    rw [Text.carriedText, if_neg (by simp [isBlank_of_beginsWith hbegins])]
  refine ⟨header, (hunk.lines.map HunkLine.text).map Text.carriedText, ?_, hbegins, hstart, ?_⟩
  · rw [List.map_cons, hheader]
  · rw [List.map_map, List.map_map]
    refine List.map_congr_left fun line hline => ?_
    exact ofText?_carriedText fun t ht => h t (ht ▸ hline)

theorem return_not_mem_diffLines {sign : Char} {ls : List Text} (hs : sign ≠ '\r')
    (h : ∀ l ∈ ls, '\r' ∉ l) : '\r' ∉ (ls.map (diffLine sign)).flatten := by
  intro hm
  obtain ⟨line, hline, hm⟩ := List.mem_flatten.mp hm
  obtain ⟨l, hl, rfl⟩ := List.mem_map.mp hline
  rcases List.mem_append.mp hm with hm | hm
  · rcases List.mem_cons.mp hm with hc | hm
    · exact hs hc.symm
    · exact h l hl hm
  · split at hm
    · cases hm
    · exact absurd hm (by decide)

theorem return_not_mem_body (ho : ∀ l ∈ old, '\r' ∉ l) (hn : ∀ l ∈ new, '\r' ∉ l)
    (segment : Segment) : '\r' ∉ segment.body old new := by
  cases segment with
  | same kept =>
    exact return_not_mem_diffLines (by decide) fun l hl => ho l (mem_of_mem_stretch hl)
  | changed deleted inserted =>
    intro hm
    rcases List.mem_append.mp hm with hm | hm
    · refine return_not_mem_diffLines (by decide) (fun l hl => ?_) hm
      obtain ⟨e, -, he⟩ := List.mem_flatMap.mp hl
      exact ho l (mem_of_mem_oldLines he)
    · refine return_not_mem_diffLines (by decide) (fun l hl => ?_) hm
      obtain ⟨e, -, he⟩ := List.mem_flatMap.mp hl
      exact hn l (mem_of_mem_newLines he)

/-- The diff between texts without CR has none. -/
theorem return_not_mem_unified {old new : Text} (ho : '\r' ∉ old) (hn : '\r' ∉ new) :
    '\r' ∉ unified old new := by
  have hlines : ∀ t : Text, '\r' ∉ t → ∀ l ∈ Text.cutTerminated t, '\r' ∉ l := by
    intro t ht l hl hc
    rw [Text.cutTerminated_eq_cutLines (Text.returnsPaired_of_not_mem ht)] at hl
    exact ht (by rw [← Text.flatten_cutLines t]; exact List.mem_flatten.mpr ⟨l, hl, hc⟩)
  rw [unified_eq]
  intro hm
  rcases List.mem_append.mp hm with hm | hm
  · exact absurd hm (by decide)
  · obtain ⟨text, htext, hm⟩ := List.mem_flatten.mp hm
    obtain ⟨group, -, rfl⟩ := List.mem_map.mp htext
    by_cases hgroup : group = []
    · rw [hgroup] at hm
      cases hm
    rw [hunkText_eq hgroup] at hm
    rcases List.mem_append.mp hm with hm | hm
    · unfold groupHeader at hm
      split at hm
      · exact absurd (isLineEnd_of_mem_headerLine hm) (by decide)
      · cases hm
    · rcases List.mem_cons.mp hm with hc | hm
      · exact absurd hc (by decide)
      · obtain ⟨body, hbody, hm⟩ := List.mem_flatten.mp hm
        obtain ⟨segment, -, rfl⟩ := List.mem_map.mp hbody
        exact return_not_mem_body (hlines old ho) (hlines new hn) segment hm

/-! ### Reading a carried diff -/

/-- The lines that the hunks put in are lines of the new text. -/
theorem mem_of_mem_newLines_of_laid {groups : List (List Segment)} (h : Laid old new i j groups) :
    ∀ group ∈ groups, ∀ a ∈ (hunkOf old new group).newLines, a ∈ new := by
  induction h with
  | nil => exact fun group hg => absurd hg List.not_mem_nil
  | cons _ _ route _ _ _ _ ih =>
    refine List.forall_mem_cons.mpr ⟨fun a ha => ?_, ih⟩
    obtain ⟨l, m, -, -, -, hside', -⟩ := route_sides route
    rw [hside'] at ha
    exact mem_of_mem_stretch ha

/-- **Context is in the new text**, so that it is empty if it is blank and the new text is tidy. -/
theorem eq_nil_of_context_mem {old new : Text} (ho : Text.ReturnsPaired old)
    (hn : Text.ReturnsPaired new) (hne : old ≠ new) (htidy : new.IsTidy) {group : List Segment}
    (hg : group ∈ textGroups old new) {t : Text}
    (ht : .context t ∈ (hunkOf (Text.lines old) (Text.lines new) group).lines)
    (hblank : Text.isBlank t = true) : t = [] := by
  have hside : t ∈ (hunkOf (Text.lines old) (Text.lines new) group).newLines :=
    List.mem_filterMap.mpr ⟨.context t, ht, rfl⟩
  refine htidy.empty t ?_ hblank
  by_cases hold : Text.cutLines old = []
  · obtain ⟨e, hgroups, -, hleads⟩ := textGroups_of_nil ho hn hold hne
    have hlines : Text.lines old = [] := by rw [Text.lines, hold]; rfl
    rw [hgroups, List.mem_singleton] at hg
    subst hg
    rw [hlines] at hside
    obtain ⟨l, m, -, -, -, hside', -⟩ := route_sides (route_singleton_iff.mpr hleads)
    rw [hside'] at hside
    exact mem_of_mem_stretch hside
  · exact mem_of_mem_newLines_of_laid (laid_textGroups ho hn hold) group hg t hside

/-- **A generated diff in a block is read as the hunks of its groups**, the last one without the
empty context lines at its end. -/
theorem parse_carried_unified {old new : Text} (ho : '\r' ∉ old) (hn : '\r' ∉ new) (hne : old ≠ new)
    (htidy : new.IsTidy) (hsize : (Text.lines old).length < wordBound)
    {front : List (List Segment)} {last : List Segment}
    (hgroups : textGroups old new = front ++ [last]) :
    Hunk.parse (Text.carried (unified old new)) =
      .ok (front.map (hunkOf (Text.lines old) (Text.lines new)) ++
        [(hunkOf (Text.lines old) (Text.lines new) last).trimmed]) := by
  have ho' := Text.returnsPaired_of_not_mem ho
  have hn' := Text.returnsPaired_of_not_mem hn
  have hspec := (textGroups_spec ho' hn' hne).2.1
  have hclean : ∀ group ∈ front ++ [last], ∀ t,
      .context t ∈ (hunkOf (Text.lines old) (Text.lines new) group).lines →
        Text.isBlank t = true → t = [] :=
    fun group hg t => eq_nil_of_context_mem ho' hn' hne htidy (hgroups ▸ hg)
  have hheader : ∀ group ∈ front ++ [last],
      Text.beginsWith (Text.ofString "@@") (groupHeader group) = true ∧
        Hunk.headerStart? (groupHeader group) = some (groupStart group) := fun group hg =>
    let ⟨hgroup, hstart⟩ := hspec group (hgroups ▸ hg)
    headerStart?_groupHeader hgroup (Nat.lt_of_le_of_lt hstart hsize)
  have hmem : last ∈ front ++ [last] := by simp
  -- The first line of the diff is not blank, and neither is the header of the last hunk.
  have hlines : Text.lines (Text.carried (unified old new)) =
      Text.ofString "---" :: Text.ofString "+++" ::
        ((front.map (hunkTexts (Text.lines old) (Text.lines new)) ++
          [groupHeader last :: (hunkOf (Text.lines old) (Text.lines new) last).trimmed.lines.map
            HunkLine.text]).map (List.map Text.carriedText)).flatten := by
    have hsplit : Text.lines (unified old new) =
        (Text.ofString "---" :: Text.ofString "+++" ::
          (front.map (hunkTexts (Text.lines old) (Text.lines new))).flatten) ++
        groupHeader last ::
          (hunkOf (Text.lines old) (Text.lines new) last).lines.map HunkLine.text := by
      rw [lines_unified ho' hn' fun group hg => (hspec group hg).1, hgroups, List.flatMap_append,
        List.flatMap_singleton, List.flatMap_def]
      rfl
    rw [Text.lines_carried (return_not_mem_unified ho hn), hsplit,
      Grammar.rdropWhile_append_cons (isBlank_of_beginsWith (hheader last hmem).1),
      rdropWhile_texts (hclean last hmem), List.cons_append,
      List.dropWhile_cons_of_neg (by decide), ← List.map_flatten, List.flatten_append,
      List.flatten_singleton]
    rfl
  rw [parse_of_lines_eq hlines, List.map_append]
  refine ofLines_of_isRead (List.rel_append ?_ ?_) (by simp) 3
  · rw [List.map_map, List.forall₂_map_left_iff, List.forall₂_map_right_iff, List.forall₂_same]
    intro group hg
    obtain ⟨hbegins, hstart⟩ := hheader group (List.mem_append_left _ hg)
    exact isRead_carried hbegins hstart (hclean group (List.mem_append_left _ hg))
  · obtain ⟨hbegins, hstart⟩ := hheader last hmem
    refine .cons (isRead_carried hbegins hstart fun t ht => hclean last hmem t ?_) .nil
    exact (List.rdropWhile_prefix ..).subset ht

/-- **The diff survives a block**: no hunk slips, and the last one does not sink. -/
structure Survives (old new : Text) : Prop where
  not_slips : ∀ group ∈ textGroups old new, ¬ Slips (Text.lines old) (Text.lines new) group
  not_sinks : ∀ group ∈ (textGroups old new).getLast?,
    ¬ Sinks (Text.lines old) (Text.lines new) group

end Diff

namespace Patch

open Diff

/-- If the old text has no line, then the diff has one hunk, and it has no context. -/
theorem cutLines_ne_nil_of_trimmed_ne {old new : Text} (ho : Text.ReturnsPaired old)
    (hn : Text.ReturnsPaired new) (hne : old ≠ new) {last : List Segment}
    (hlast : (textGroups old new).getLast? = some last)
    (ht : (hunkOf (Text.lines old) (Text.lines new) last).trimmed ≠
      hunkOf (Text.lines old) (Text.lines new) last) : Text.cutLines old ≠ [] := by
  intro hold
  obtain ⟨e, hgroup, -, hleads⟩ := textGroups_of_nil ho hn hold hne
  have hlines : Text.lines old = [] := by rw [Text.lines, hold]; rfl
  obtain rfl : last = [.changed none (some e)] := by
    rw [hgroup] at hlast
    exact (Option.some.inj hlast).symm
  rw [hlines] at ht
  exact ht (trimmed_eq_self_of_isLoneInsertion (route_singleton_iff.mpr hleads)
    (List.nil_append _).symm trivial)

/-- **A generated diff whose last hunk loses lines in a block** applies.  It gives the new text if
that hunk does not sink, and only then.  No hunk slips in this case. -/
theorem apply_carried_of_trimmed_ne {old new : Text} (ho : old.IsPlain) (hn : new.IsPlain)
    (hne : old ≠ new) (htidy : new.IsTidy) (hsize : (Text.lines old).length < wordBound)
    {front : List (List Segment)} {last : List Segment}
    (hconcat : textGroups old new = front ++ [last])
    (ht : (hunkOf (Text.lines old) (Text.lines new) last).trimmed ≠
      hunkOf (Text.lines old) (Text.lines new) last) :
    (∀ group ∈ textGroups old new, ¬ Slips (Text.lines old) (Text.lines new) group) ∧
      ∃ result, apply old (Text.carried (unified old new)) = .ok result ∧
        (result = new ↔ ¬ Sinks (Text.lines old) (Text.lines new) last) := by
  have ho' := Text.returnsPaired_of_not_mem ho.noReturn
  have hn' := Text.returnsPaired_of_not_mem hn.noReturn
  have hlast : (textGroups old new).getLast? = some last := by
    rw [hconcat, List.getLast?_concat]
  have hold := cutLines_ne_nil_of_trimmed_ne ho' hn' hne hlast ht
  obtain ⟨i, j, before, hlaid, hdrop, hmem, hslips, happly⟩ :=
    exists_of_laid_concat (hconcat ▸ laid_textGroups ho' hn' hold)
  obtain ⟨hslip, -⟩ := exists_of_trimmed_ne hlaid ht
  obtain ⟨result, hresult, hlen, hmem', hiff⟩ := applyFrom_trimmed hlaid ht (1 + front.length)
  rw [List.drop_zero] at hdrop
  refine ⟨?_, assemble old (before ++ result), ?_, ?_⟩
  · rw [hconcat]
    exact List.forall_mem_append.mpr ⟨hslips, List.forall_mem_singleton.mpr hslip⟩
  · rw [apply, parse_carried_unified ho.noReturn hn.noReturn hne htidy hsize hconcat]
    simp only [happly 1 _ _ hresult]
  · have hlength : (before ++ result).length = (Text.lines new).length := by
      rw [hdrop, List.length_append, List.length_append, hlen]
    nth_rewrite 1 [← assemble_lines hn.noReturn hn.ne_newline hn.ended ho.ended]
    rw [assemble_eq_iff hlength (List.forall_mem_append.mpr ⟨hmem, hmem'⟩)]
    nth_rewrite 1 [hdrop]
    rw [List.append_cancel_left_eq, hiff]

/-- **A generated diff in a block applies back if it survives, and only then.**  The old text is
plain, the new one is plain and tidy, and they differ.  The diff between them applies to the old
text as the block carries it. -/
theorem apply_carried_unified_iff {old new : Text} (ho : old.IsPlain) (hn : new.IsPlain)
    (hne : old ≠ new) (htidy : new.IsTidy) (hsize : (Text.lines old).length < wordBound) :
    (∃ result, apply old (Text.carried (unified old new)) = .ok result) ∧
      (apply old (Text.carried (unified old new)) = .ok new ↔ Survives old new) := by
  have ho' := Text.returnsPaired_of_not_mem ho.noReturn
  have hn' := Text.returnsPaired_of_not_mem hn.noReturn
  obtain ⟨hgroups, hspec, -⟩ := textGroups_spec ho' hn' hne
  obtain ⟨front, last, hconcat⟩ : ∃ front last, textGroups old new = front ++ [last] :=
    ⟨_, _, (List.dropLast_append_getLast hgroups).symm⟩
  have hlast : (textGroups old new).getLast? = some last := by
    rw [hconcat, List.getLast?_concat]
  by_cases ht : (hunkOf (Text.lines old) (Text.lines new) last).trimmed =
      hunkOf (Text.lines old) (Text.lines new) last
  · -- The diff is read as it was before the block.
    have hsame : apply old (Text.carried (unified old new)) = apply old (unified old new) := by
      rw [apply, apply, parse_carried_unified ho.noReturn hn.noReturn hne htidy hsize hconcat,
        parse_unified ho' hn' hgroups (fun group hg => (hspec group hg).1)
        fun group hg => Nat.lt_of_le_of_lt (hspec group hg).2 hsize, hconcat, ht,
        List.map_append, List.map_singleton]
    obtain ⟨hok, hiff⟩ := apply_unified_of_plain ho hn hne hsize
    rw [hsame]
    refine ⟨hok, hiff.trans ⟨fun hslips => ⟨hslips, fun group hg hsinks => ?_⟩, Survives.not_slips⟩⟩
    obtain rfl := Option.some.inj (hlast.symm.trans hg)
    exact hsinks.1 (ht ▸ hsinks.2.1)
  · obtain ⟨hslips, result, hok, hiff⟩ :=
      apply_carried_of_trimmed_ne ho hn hne htidy hsize hconcat ht
    refine ⟨⟨result, hok⟩, ?_⟩
    rw [hok, Except.ok.injEq, hiff]
    refine ⟨fun hsinks => ⟨hslips, fun group hg => ?_⟩, fun h => h.not_sinks last hlast⟩
    obtain rfl := Option.some.inj (hlast.symm.trans hg)
    exact hsinks

end Patch

end Literate
