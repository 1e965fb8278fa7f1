import Literate.Patch.Apply
import Literate.Proofs.Patch.Grammar
import Literate.Proofs.Text.Returns

/-!
# What a diff brings in

The lines that a diff adds are read in two ways: its hunks have them, and `addedLines` finds them
by their plus signs alone.  Both readings give the same lines in the same order
(`addedLines_eq_flatMap_of_parse`), since from the header of the first hunk on a line with a plus
sign can be nothing but an added one (`exists_groups_of_parse`, `filterMap_flatten`).

Any diff that can be read and applied, generated or not, brings in no lines but those it adds:
every line of the patched text is a line of the old text or an added line (`exists_of_apply`).  A
context line of a hunk is no exception, since it has been found in the old text.  If both texts have
their CRs only before LFs, these are the lines of the patched text, and it has no CR at all
(`added_of_mem_lines_of_apply`, `return_not_mem_of_apply_of_returnsPaired`).

`Text.IsPlain`: a text without CR that is empty or ends with LF, and is not an LF alone.  A diff
that brings in no CR takes plain texts to plain texts (`isPlain_of_apply`).
-/

namespace Literate

/-- The text of the line, if it is an added one. -/
def HunkLine.added? : HunkLine → Option Text
  | context _ => none
  | removed _ => none
  | added text => some text

/-- The texts of the lines that the hunk adds, in order. -/
def Hunk.addedTexts (hunk : Hunk) : List Text :=
  hunk.lines.filterMap HunkLine.added?

/-- **A text as a snippet has it**: without CR, empty or ended by LF, and not an LF alone. -/
structure Text.IsPlain (t : Text) : Prop where
  noReturn : '\r' ∉ t
  ended : t = [] ∨ Text.endsWithNewline t = true
  ne_newline : t ≠ ['\n']

theorem Text.isPlain_nil : Text.IsPlain [] :=
  ⟨List.not_mem_nil, Or.inl rfl, fun h => nomatch h⟩

namespace Hunk

variable {old : List Text} {number start : Nat} {ls : List Text} {hunk : Hunk} {hunks : List Hunk}

/-! ### Reading -/

/-- What stands behind the plus sign of a line of a body is what the line adds. -/
theorem IsBodyLine.after?_plus {line : Text} {meaning : Option HunkLine}
    (h : IsBodyLine line meaning) :
    Text.after? ['+'] line = meaning.bind HunkLine.added? := by
  cases h <;> rfl

/-- A hunk header has no plus sign in front. -/
theorem IsHeader.after?_plus {line : Text} (h : IsHeader line start) :
    Text.after? ['+'] line = none := by
  obtain ⟨digits, ⟨oldLength, newStart, newLength, rest, -, -, -, -, rfl⟩, -⟩ := h
  rfl

/-- The lines of a body that have a plus sign are those that it adds. -/
theorem filterMap_body {body : List Text} {meanings : List (Option HunkLine)}
    (h : List.Forall₂ IsBodyLine body meanings) :
    body.filterMap (Text.after? ['+']) = meanings.reduceOption.filterMap HunkLine.added? := by
  induction h with
  | nil => rfl
  | @cons line meaning body meanings hline _ ih =>
    rw [List.filterMap_cons, hline.after?_plus, ih]
    cases meaning with
    | none => rw [List.reduceOption_cons_of_none, Option.bind_none]
    | some l => rw [List.reduceOption_cons_of_some, List.filterMap_cons, Option.bind_some]

theorem IsHunk.filterMap_eq (h : IsHunk ls hunk) :
    ls.filterMap (Text.after? ['+']) = hunk.addedTexts := by
  obtain ⟨header, body, meanings, rfl, hheader, hbody, hlines⟩ := h
  rw [List.filterMap_cons_none hheader.after?_plus, filterMap_body hbody, addedTexts, hlines]

/-- The new side of a hunk has no more lines than the hunk. -/
theorem IsHunk.length_newLines_le (h : IsHunk ls hunk) : hunk.newLines.length ≤ ls.length := by
  obtain ⟨header, body, meanings, rfl, -, hbody, hlines⟩ := h
  calc hunk.newLines.length
      ≤ hunk.lines.length := List.length_filterMap_le _ _
    _ ≤ meanings.length := hlines ▸ List.reduceOption_length_le meanings
    _ = body.length := hbody.length_eq.symm
    _ ≤ (header :: body).length := Nat.le_succ _

section Groups

variable {groups : List (List Text)} {patch : Text}

/-- The lines of hunks that have a plus sign are those that the hunks add. -/
theorem filterMap_flatten (hgroups : List.Forall₂ IsHunk groups hunks) :
    groups.flatten.filterMap (Text.after? ['+']) = hunks.flatMap addedTexts := by
  induction hgroups with
  | nil => rfl
  | cons hgroup _ ih =>
    rw [List.flatten_cons, List.filterMap_append, hgroup.filterMap_eq, ih, List.flatMap_cons]

theorem length_newLines_flatten_le (hgroups : List.Forall₂ IsHunk groups hunks) :
    (hunks.flatMap newLines).length ≤ groups.flatten.length := by
  induction hgroups with
  | nil => exact Nat.le_refl 0
  | cons hgroup _ ih =>
    rw [List.flatMap_cons, List.flatten_cons, List.length_append, List.length_append]
    exact Nat.add_le_add hgroup.length_newLines_le ih

/-- The lines of a diff from the first header on are those of its hunks. -/
theorem dropWhile_of_isFileLine {files : List Text}
    (hfiles : ∀ line ∈ files, IsFileLine line) (hgroups : List.Forall₂ IsHunk groups hunks) :
    ((files ++ groups.flatten).dropWhile fun line =>
      !Text.beginsWith (Text.ofString "@@") line) = groups.flatten := by
  rw [List.dropWhile_append_of_pos fun line hline => by rw [(hfiles line hline).beginsWith]; rfl]
  cases hgroups with
  | nil => rfl
  | cons hgroup _ =>
    obtain ⟨header, body, meanings, rfl, hheader, -, -⟩ := hgroup
    rw [List.flatten_cons, List.cons_append, List.dropWhile_cons_of_neg]
    simp [hheader.beginsWith]

/-- **Where the hunks of a diff begin**: the first line that begins with two at signs is the header
of the first hunk, and from there on the lines are those of the hunks. -/
theorem exists_groups_of_parse (h : parse patch = .ok hunks) :
    ∃ groups, ((Text.lines patch).dropWhile fun line =>
      !Text.beginsWith (Text.ofString "@@") line) = groups.flatten ∧
        List.Forall₂ IsHunk groups hunks := by
  obtain ⟨files, groups, hls, hfiles, -, hgroups⟩ := ofLines_eq_ok_iff.mp h
  rw [hls]
  exact ⟨groups, dropWhile_of_isFileLine hfiles hgroups, hgroups⟩

/-- The new sides of the hunks of a diff have at most as many lines as the diff. -/
theorem length_newLines_le_of_parse (h : parse patch = .ok hunks) :
    (hunks.flatMap newLines).length ≤ (Text.lines patch).length := by
  obtain ⟨groups, hdrop, hgroups⟩ := exists_groups_of_parse h
  calc (hunks.flatMap newLines).length
      ≤ groups.flatten.length := length_newLines_flatten_le hgroups
    _ ≤ (Text.lines patch).length := hdrop ▸ (List.dropWhile_suffix _).length_le

/-- **The hunks of a diff** add its added lines alone. -/
theorem mem_addedLines_of_parse (h : parse patch = .ok hunks) {g : Hunk} (hg : g ∈ hunks) {t : Text}
    (ht : HunkLine.added t ∈ g.lines) : t ∈ addedLines patch := by
  obtain ⟨groups, hdrop, hgroups⟩ := exists_groups_of_parse h
  rw [addedLines, hdrop, filterMap_flatten hgroups, List.mem_flatMap]
  exact ⟨g, hg, List.mem_filterMap.mpr ⟨_, ht, rfl⟩⟩

/-- **The two readings of a diff agree.**  The lines that are found by their plus signs, without
regard to the form of the diff, are those that its hunks add, in the same order and as often. -/
theorem addedLines_eq_flatMap_of_parse (h : parse patch = .ok hunks) :
    addedLines patch = hunks.flatMap addedTexts := by
  obtain ⟨groups, hdrop, hgroups⟩ := exists_groups_of_parse h
  calc addedLines patch
      = groups.flatten.filterMap (Text.after? ['+']) := congrArg (List.filterMap _) hdrop
    _ = hunks.flatMap addedTexts := filterMap_flatten hgroups

/-- Plus signs in a file header, in a removed line, in context and behind the one that counts, a
line added in both hunks, an empty line and a remark. -/
theorem addedLines_eq_flatMap_of_parse_signed :
    let patch := Text.ofString ("--- a\n+++ b\n@@ -1,3 +1,4 @@ +f\n-+x\n +y\n+z\n+++w\n" ++
      "\\ No newline at end of file\n@@ -9 +10,3 @@\n\n+@@ v\n+z\n")
    let hunks : List Hunk :=
      [⟨1, [.removed ['+', 'x'], .context ['+', 'y'], .added ['z'], .added ['+', '+', 'w']]⟩,
        ⟨9, [.context [], .added ['@', '@', ' ', 'v'], .added ['z']]⟩]
    parse patch = .ok hunks ∧ addedLines patch = hunks.flatMap addedTexts ∧
      hunks.flatMap addedTexts = [['z'], ['+', '+', 'w'], ['@', '@', ' ', 'v'], ['z']] := by
  intro patch hunks
  have hparse : parse patch = .ok hunks := by decide +kernel
  exact ⟨hparse, addedLines_eq_flatMap_of_parse hparse, rfl⟩

end Groups

/-! ### Applying -/

theorem fits_of_search {fits : Nat → Bool} {stated distance count position : Nat}
    (h : search fits stated distance count = some position) : fits position = true := by
  induction count generalizing distance with
  | zero => cases h
  | succ count ih =>
    rw [search] at h
    split at h
    · next hf =>
      obtain rfl := Option.some.inj h
      exact hf
    · split at h
      · next hf =>
        obtain rfl := Option.some.inj h
        exact (Bool.and_eq_true_iff.mp hf).2
      · exact ih h

theorem matchesAt_iff {expected : List Text} {cursor position : Nat} :
    matchesAt old expected cursor position = true ↔ cursor ≤ position ∧
      position + expected.length ≤ old.length ∧
        (old.drop position).take expected.length = expected := by
  unfold matchesAt
  rw [Bool.and_eq_true, Bool.and_eq_true, decide_eq_true_iff, decide_eq_true_iff, beq_iff_eq,
    and_assoc]

/-- A hunk goes only where its old side stands. -/
theorem matchesAt_of_locate {cursor position : Nat} (h : hunk.locate old cursor = some position) :
    matchesAt old hunk.oldLines cursor position = true := by
  rw [locate] at h
  split at h
  · next hf =>
    obtain rfl := Option.some.inj h
    exact hf
  · split at h
    · cases h
    · exact fits_of_search h

/-- A line of the new side of a hunk is one of its old side, or an added one. -/
theorem mem_oldLines_or_added {l : Text} (h : l ∈ hunk.newLines) :
    l ∈ hunk.oldLines ∨ HunkLine.added l ∈ hunk.lines := by
  obtain ⟨line, hline, hl⟩ := List.mem_filterMap.mp h
  cases line with
  | removed t => cases hl
  | context t =>
    obtain rfl := Option.some.inj hl
    exact Or.inl (List.mem_filterMap.mpr ⟨.context t, hline, rfl⟩)
  | added t =>
    obtain rfl := Option.some.inj hl
    exact Or.inr hline

/-- **Hunks bring in what they add**, and no more lines than their new sides have. -/
theorem of_applyFrom {cursor : Nat} {result : List Text}
    (h : applyFrom old number cursor hunks = .ok result) :
    (∀ l ∈ result, l ∈ old ∨ ∃ g ∈ hunks, HunkLine.added l ∈ g.lines) ∧
      result.length ≤ (old.length - cursor) + (hunks.flatMap newLines).length := by
  induction hunks generalizing number cursor result with
  | nil =>
    obtain rfl := Except.ok.inj h
    refine ⟨fun l hl => Or.inl (List.mem_of_mem_drop hl), ?_⟩
    rw [List.length_drop]
    exact Nat.le_add_right _ _
  | cons hunk rest ih =>
    rw [applyFrom] at h
    split at h
    · cases h
    · next position hlocate =>
      obtain ⟨hcursor, hstop, hside⟩ := matchesAt_iff.mp (matchesAt_of_locate hlocate)
      split at h
      · cases h
      · next later hlater =>
        obtain rfl := Except.ok.inj h
        obtain ⟨hmem, hlen⟩ := ih hlater
        refine ⟨fun l hl => ?_, ?_⟩
        · rcases List.mem_append.mp hl with hl | hl
          · rcases List.mem_append.mp hl with hl | hl
            · exact Or.inl (List.mem_of_mem_drop (List.mem_of_mem_take hl))
            · rcases mem_oldLines_or_added hl with hl | hl
              · rw [← hside] at hl
                exact Or.inl (List.mem_of_mem_drop (List.mem_of_mem_take hl))
              · exact Or.inr ⟨hunk, List.mem_cons_self, hl⟩
          · exact (hmem l hl).imp_right fun ⟨g, hg, ha⟩ => ⟨g, List.mem_cons_of_mem hunk hg, ha⟩
        · simp only [List.length_append, List.length_take, List.length_drop,
            List.flatMap_cons] at hlen ⊢
          omega

end Hunk

namespace Patch

variable {old patch patched : Text}

theorem apply_eq_ok_iff : apply old patch = .ok patched ↔ ∃ hunks ls,
    Hunk.parse patch = .ok hunks ∧ Hunk.applyFrom (Text.lines old) 1 0 hunks = .ok ls ∧
      patched = assemble old ls := by
  unfold apply
  constructor
  · intro h
    split at h
    · cases h
    · next hunks hparse =>
      split at h
      · cases h
      · next ls happly => exact ⟨hunks, ls, hparse, happly, (Except.ok.inj h).symm⟩
  · rintro ⟨hunks, ls, hparse, happly, rfl⟩
    rw [hparse]
    simp only [happly]

/-- The lines that a diff leaves are lines of the old text or added lines. -/
theorem mem_or_of_applyFrom {hunks : List Hunk} {ls : List Text}
    (hparse : Hunk.parse patch = .ok hunks)
    (happly : Hunk.applyFrom (Text.lines old) 1 0 hunks = .ok ls) {l : Text} (hl : l ∈ ls) :
    l ∈ Text.lines old ∨ l ∈ Hunk.addedLines patch :=
  ((Hunk.of_applyFrom happly).1 l hl).imp_right fun ⟨_, hg, ha⟩ =>
    Hunk.mem_addedLines_of_parse hparse hg ha

/-- **What a diff brings in**: the lines of the patched text are lines of the old text or added
lines, and not more than both texts have together. -/
theorem exists_of_apply (h : apply old patch = .ok patched) :
    ∃ ls, patched = assemble old ls ∧
      (∀ l ∈ ls, l ∈ Text.lines old ∨ l ∈ Hunk.addedLines patch) ∧
      ls.length ≤ (Text.lines old).length + (Text.lines patch).length := by
  obtain ⟨hunks, ls, hparse, happly, rfl⟩ := apply_eq_ok_iff.mp h
  have hlen := (Hunk.of_applyFrom happly).2
  have hle := Hunk.length_newLines_le_of_parse hparse
  exact ⟨ls, rfl, fun _ hl => mem_or_of_applyFrom hparse happly hl, by omega⟩

/-- An added line stands in the diff. -/
theorem mem_lines_of_mem_addedLines {l : Text} (h : l ∈ Hunk.addedLines patch) :
    '+' :: l ∈ Text.lines patch := by
  obtain ⟨line, hline, hl⟩ := List.mem_filterMap.mp h
  rw [Text.after?_eq_some_iff.mp hl] at hline
  exact (List.dropWhile_suffix _).subset hline

theorem newline_not_mem_of_mem_or {l : Text}
    (h : l ∈ Text.lines old ∨ l ∈ Hunk.addedLines patch) : '\n' ∉ l := by
  rcases h with h | h
  · exact Text.newline_not_mem_of_mem_lines h
  · exact fun hc => Text.newline_not_mem_of_mem_lines (mem_lines_of_mem_addedLines h)
      (List.mem_cons_of_mem '+' hc)

theorem return_not_mem_assemble {ls : List Text} (h : ∀ l ∈ ls, '\r' ∉ l) :
    '\r' ∉ assemble old ls := by
  have hj : '\r' ∉ Text.join ['\n'] ls := fun hm =>
    (Text.mem_of_mem_join hm).elim (fun hc => absurd hc (by decide)) fun ⟨l, hl, hc⟩ => h l hl hc
  unfold assemble
  simp only
  split
  · intro hm
    rcases List.mem_append.mp hm with hm | hm
    · exact hj hm
    · exact absurd hm (by decide)
  · exact hj

/-- **Lines put together** to a text that ends as a plain one does: it is plain if it has no CR, and
the lines come back unless it is empty. -/
theorem assemble_spec {ls : List Text} (ho : old = [] ∨ Text.endsWithNewline old = true)
    (hn : ∀ l ∈ ls, '\n' ∉ l) (hr : '\r' ∉ assemble old ls) :
    Text.IsPlain (assemble old ls) ∧
      (Text.lines (assemble old ls) = ls ∨ assemble old ls = []) := by
  by_cases hj : Text.join ['\n'] ls = []
  · have he : assemble old ls = [] := by
      rw [assemble]
      exact (if_neg fun hc => hc.1 hj).trans hj
    rw [he]
    exact ⟨Text.isPlain_nil, Or.inr rfl⟩
  · have he : assemble old ls = Text.join ['\n'] ls ++ ['\n'] := by
      rw [assemble]
      exact if_pos ⟨hj, ho⟩
    have hls : ls ≠ [] := by
      rintro rfl
      exact hj rfl
    rw [he] at hr ⊢
    refine ⟨⟨hr, Or.inr (Text.endsWithNewline_append (List.cons_ne_nil _ _) _), ?_⟩,
      Or.inl (Text.lines_join_append_newline hls hn fun l hl hc => ?_)⟩
    · intro hc
      have hc' : Text.join ['\n'] ls ++ ['\n'] = [] ++ ['\n'] := hc
      exact hj (List.append_cancel_right hc')
    · exact hr (List.mem_append_left _ (Text.mem_join_of_mem hl hc))

/-- Lines put together to a text are all that can be lines of it; an empty one may get lost. -/
theorem mem_of_mem_lines_assemble {ls : List Text} {l : Text} (hn : ∀ l ∈ ls, '\n' ∉ l)
    (hr : ∀ l ∈ ls, '\r' ∉ l) (h : l ∈ Text.lines (assemble old ls)) : l ∈ ls := by
  unfold assemble at h
  simp only at h
  split at h
  · next hj =>
    have hls : ls ≠ [] := by
      rintro rfl
      exact hj.1 rfl
    rwa [Text.lines_join_append_newline hls hn hr] at h
  · exact Text.mem_of_mem_lines_join hn hr h

/-- What hunks leave of a text has no line with a CR, if CRs stand only before LFs. -/
theorem return_not_mem_of_applyFrom {hunks : List Hunk} {ls : List Text}
    (ho : old.ReturnsPaired) (hp : patch.ReturnsPaired) (hparse : Hunk.parse patch = .ok hunks)
    (happly : Hunk.applyFrom (Text.lines old) 1 0 hunks = .ok ls) : ∀ l ∈ ls, '\r' ∉ l := by
  intro l hl
  rcases mem_or_of_applyFrom hparse happly hl with h | h
  · exact Text.return_not_mem_of_mem_lines ho h
  · exact fun hc => Text.return_not_mem_of_mem_lines hp (mem_lines_of_mem_addedLines h)
      (List.mem_cons_of_mem '+' hc)

/-- A diff brings in no CR, if all CRs stand before LFs. -/
theorem return_not_mem_of_apply_of_returnsPaired (ho : old.ReturnsPaired)
    (hp : patch.ReturnsPaired) (h : apply old patch = .ok patched) : '\r' ∉ patched := by
  obtain ⟨hunks, ls, hparse, happly, rfl⟩ := apply_eq_ok_iff.mp h
  exact return_not_mem_assemble (return_not_mem_of_applyFrom ho hp hparse happly)

/-- A diff without CR brings in none. -/
theorem return_not_mem_of_apply (ho : '\r' ∉ old) (hp : '\r' ∉ patch)
    (h : apply old patch = .ok patched) : '\r' ∉ patched :=
  return_not_mem_of_apply_of_returnsPaired (Text.returnsPaired_of_not_mem ho)
    (Text.returnsPaired_of_not_mem hp) h

/-- **A line of the patched text that the old one did not have** is added by a hunk, wherever the
hunks have been placed. -/
theorem added_of_mem_lines_of_apply (ho : old.ReturnsPaired) (hp : patch.ReturnsPaired)
    (h : apply old patch = .ok patched) : ∃ hunks, Hunk.parse patch = .ok hunks ∧
      ∀ l ∈ Text.lines patched, l ∉ Text.lines old →
        ∃ hunk ∈ hunks, HunkLine.added l ∈ hunk.lines := by
  obtain ⟨hunks, ls, hparse, happly, rfl⟩ := apply_eq_ok_iff.mp h
  refine ⟨hunks, hparse, fun l hl hold => ?_⟩
  have hn : ∀ l ∈ ls, '\n' ∉ l := fun l hl =>
    newline_not_mem_of_mem_or (mem_or_of_applyFrom hparse happly hl)
  have hr := return_not_mem_of_applyFrom ho hp hparse happly
  exact ((Hunk.of_applyFrom happly).1 l (mem_of_mem_lines_assemble hn hr hl)).resolve_left hold

/-- **A diff takes a plain text to a plain text**, if it brings in no CR.  The lines that the old
text did not have are added lines, and there are not more lines than the old text and the diff have
together. -/
theorem isPlain_of_apply (ho : old = [] ∨ Text.endsWithNewline old = true) (hr : '\r' ∉ patched)
    (h : apply old patch = .ok patched) :
    Text.IsPlain patched ∧
      (∀ l ∈ Text.lines patched, l ∈ Text.lines old ∨ l ∈ Hunk.addedLines patch) ∧
      (Text.lines patched).length ≤ (Text.lines old).length + (Text.lines patch).length := by
  obtain ⟨ls, rfl, hmem, hlen⟩ := exists_of_apply h
  have hn : ∀ l ∈ ls, '\n' ∉ l := fun l hl => newline_not_mem_of_mem_or (hmem l hl)
  obtain ⟨hplain, hlines | hlines⟩ := assemble_spec ho hn hr
  · rw [hlines]
    exact ⟨hplain, hmem, hlen⟩
  · refine ⟨hplain, fun l hl => ?_, ?_⟩
    · rw [hlines] at hl
      exact absurd hl List.not_mem_nil
    · rw [hlines]
      exact Nat.zero_le _

end Patch

end Literate
