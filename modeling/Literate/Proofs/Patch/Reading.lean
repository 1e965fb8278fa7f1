import Literate.Proofs.Diff.Groups
import Literate.Proofs.Patch.Grammar
import Literate.Proofs.Text.Returns
import Mathlib.Data.List.Forall2

/-!
# A generated diff is read back

`hunkOf` is the hunk that a group of segments stands for: the number that its header states and its
lines without their signs.  `parse_unified` says that a diff between two texts is read as the hunks
of its groups, if the texts have CRs only before LFs.  A line of a text may look like a header or a
remark; behind its sign it does not.
-/

namespace Literate

/-- The line of a diff: its sign and its text. -/
def HunkLine.text : HunkLine → Text
  | .context t => ' ' :: t
  | .removed t => '-' :: t
  | .added t => '+' :: t

namespace Diff

variable {old new : List Text}

/-! ### Hunks of groups -/

/-- The lines of a hunk for a segment. -/
def Segment.hunkLines (old new : List Text) : Segment → List HunkLine
  | .same kept => (stretch old kept.oldStart kept.length).map .context
  | .changed deleted inserted =>
    (deleted.toList.flatMap (Edit.oldLines old)).map .removed ++
      (inserted.toList.flatMap (Edit.newLines new)).map .added

/-- The number that the header of a group states for the old list. -/
def groupStart (group : List Segment) : Nat :=
  match group.head?, group.getLast? with
  | some first, some last => rangeNumber first.oldStart (last.oldStart + last.oldLength)
  | _, _ => 0

/-- The header of a group. -/
def groupHeader (group : List Segment) : Text :=
  match group.head?, group.getLast? with
  | some first, some last =>
    headerLine first.oldStart (last.oldStart + last.oldLength) first.newStart
      (last.newStart + last.newLength)
  | _, _ => []

/-- The hunk that a group of segments stands for. -/
def hunkOf (old new : List Text) (group : List Segment) : Hunk :=
  ⟨groupStart group, group.flatMap (Segment.hunkLines old new)⟩

/-- The groups that the diff between two texts is written from. -/
def textGroups (old new : Text) : List (List Segment) :=
  let oldLines := Text.cutTerminated old
  let newLines := Text.cutTerminated new
  groups (Segment.ofEdits (compact oldLines newLines (script oldLines newLines)))

theorem unified_eq (old new : Text) : unified old new = fileHeader ++
    ((textGroups old new).map
      (hunkText (Text.cutTerminated old) (Text.cutTerminated new))).flatten :=
  rfl

/-! ### The lines of a diff -/

theorem map_stretch (f : Text → Text) (lines : List Text) (i l : Nat) :
    (stretch lines i l).map f = stretch (lines.map f) i l := by
  rw [stretch, stretch, List.map_take, List.map_drop]

theorem map_oldLines (f : Text → Text) (e : Edit) :
    (e.oldLines old).map f = e.oldLines (old.map f) := by
  unfold Edit.oldLines
  split
  · rfl
  · exact map_stretch f old _ _

theorem map_newLines (f : Text → Text) (e : Edit) :
    (e.newLines new).map f = e.newLines (new.map f) := by
  unfold Edit.newLines
  split
  · rfl
  · exact map_stretch f new _ _

theorem mem_of_mem_oldLines {e : Edit} {line : Text} (h : line ∈ e.oldLines old) : line ∈ old := by
  unfold Edit.oldLines at h
  split at h
  · cases h
  · exact mem_of_mem_stretch h

theorem mem_of_mem_newLines {e : Edit} {line : Text} (h : line ∈ e.newLines new) : line ∈ new := by
  unfold Edit.newLines at h
  split at h
  · cases h
  · exact mem_of_mem_stretch h

/-- Lines behind a sign, in a text that goes on. -/
theorem lines_diffLines {ls : List Text} (h : ∀ l ∈ ls, Text.IsLine l) {sign : Char}
    (hn : sign ≠ '\n') (hr : sign ≠ '\r') (t : Text) :
    Text.lines ((ls.map (diffLine sign)).flatten ++ t) =
      (ls.map Text.chomp).map (sign :: ·) ++ Text.lines t := by
  induction ls with
  | nil => rfl
  | cons l ls ih =>
    rw [List.map_cons, List.flatten_cons, List.append_assoc, diffLine,
      Text.lines_sign_append (h l List.mem_cons_self) hn hr,
      ih fun m hm => h m (List.mem_cons_of_mem l hm)]
    rfl

/-- The lines of a segment in a text that goes on. -/
theorem lines_body (ho : ∀ l ∈ old, Text.IsLine l) (hn : ∀ l ∈ new, Text.IsLine l)
    (segment : Segment) (t : Text) :
    Text.lines (segment.body old new ++ t) =
      (segment.hunkLines (old.map Text.chomp) (new.map Text.chomp)).map HunkLine.text ++
        Text.lines t := by
  cases segment with
  | same kept =>
    rw [Segment.body, Segment.hunkLines, lines_diffLines
      (fun l hl => ho l (mem_of_mem_stretch hl)) (by decide) (by decide), map_stretch, List.map_map]
    rfl
  | changed deleted inserted =>
    have hd : ∀ l ∈ deleted.toList.flatMap (Edit.oldLines old), Text.IsLine l := by
      intro l hl
      obtain ⟨e, -, he⟩ := List.mem_flatMap.mp hl
      exact ho l (mem_of_mem_oldLines he)
    have hi : ∀ l ∈ inserted.toList.flatMap (Edit.newLines new), Text.IsLine l := by
      intro l hl
      obtain ⟨e, -, he⟩ := List.mem_flatMap.mp hl
      exact hn l (mem_of_mem_newLines he)
    have ho' : (deleted.toList.flatMap (Edit.oldLines old)).map Text.chomp =
        deleted.toList.flatMap (Edit.oldLines (old.map Text.chomp)) := by
      simp only [List.map_flatMap, map_oldLines]
    have hn' : (inserted.toList.flatMap (Edit.newLines new)).map Text.chomp =
        inserted.toList.flatMap (Edit.newLines (new.map Text.chomp)) := by
      simp only [List.map_flatMap, map_newLines]
    rw [Segment.body, Segment.hunkLines, List.append_assoc,
      lines_diffLines hd (by decide) (by decide), lines_diffLines hi (by decide) (by decide),
      ho', hn', List.map_append, List.append_assoc, List.map_map, List.map_map]
    rfl

theorem isLineEnd_of_mem_rangeText {start stop : Nat} {c : Char} (h : c ∈ rangeText start stop) :
    Text.isLineEnd c = false := by
  have hdecimal : ∀ n, c ∈ Text.decimal n → Text.isLineEnd c = false := by
    intro n hm
    have hdigit := Text.isDigit_of_mem_decimal hm
    refine Bool.eq_false_iff.mpr fun hc => ?_
    rw [Text.isLineEnd, Bool.or_eq_true, decide_eq_true_iff, decide_eq_true_iff] at hc
    rcases hc with rfl | rfl
    · exact absurd hdigit (by decide)
    · exact absurd hdigit (by decide)
  rw [rangeText_eq, rangeLength] at h
  split at h
  · rw [List.append_nil] at h
    exact hdecimal _ h
  · rcases List.mem_append.mp h with h | h
    · exact hdecimal _ h
    · rcases List.mem_cons.mp h with rfl | h
      · decide
      · exact hdecimal _ h

/-- A header is on one line. -/
theorem isLineEnd_of_mem_headerLine {a b d e : Nat} {c : Char} (h : c ∈ headerLine a b d e) :
    Text.isLineEnd c = false := by
  have hsign : ∀ t : Text, (t.all fun c => !Text.isLineEnd c) = true → c ∈ t →
      Text.isLineEnd c = false := fun t ht hm => by simpa using List.all_eq_true.mp ht c hm
  simp only [headerLine, List.mem_append] at h
  rcases h with (((h | h) | h) | h) | h
  · exact hsign _ (by decide) h
  · exact isLineEnd_of_mem_rangeText h
  · exact hsign _ (by decide) h
  · exact isLineEnd_of_mem_rangeText h
  · exact hsign _ (by decide) h

theorem lines_headerLine (a b c d : Nat) (t : Text) :
    Text.lines (headerLine a b c d ++ '\n' :: t) = headerLine a b c d :: Text.lines t := by
  have hn : '\n' ∉ headerLine a b c d := fun hm =>
    absurd (isLineEnd_of_mem_headerLine hm) (by decide)
  have hr : (headerLine a b c d).getLast? ≠ some '\r' := fun hc =>
    absurd (isLineEnd_of_mem_headerLine (List.mem_of_getLast? hc)) (by decide)
  rw [Text.lines_append_newline hn, Text.chomp_append_newline hr]

/-- The text of a hunk is its header and the texts of its segments. -/
theorem hunkText_eq {group : List Segment} (hg : group ≠ []) :
    hunkText old new group =
      groupHeader group ++ '\n' :: (group.map (Segment.body old new)).flatten := by
  obtain ⟨first, hfirst⟩ : ∃ s, group.head? = some s :=
    ⟨_, List.head?_eq_some_head hg⟩
  obtain ⟨last, hlast⟩ : ∃ s, group.getLast? = some s :=
    ⟨_, List.getLast?_eq_some_getLast hg⟩
  rw [hunkText, groupHeader, hfirst, hlast]
  simp [headerLine, Text.ofString]

/-- **The lines of a hunk** in a text that goes on. -/
theorem lines_hunkText (ho : ∀ l ∈ old, Text.IsLine l) (hn : ∀ l ∈ new, Text.IsLine l)
    {group : List Segment} (hg : group ≠ []) (t : Text) :
    Text.lines (hunkText old new group ++ t) =
      groupHeader group :: (hunkOf (old.map Text.chomp) (new.map Text.chomp) group).lines.map
        HunkLine.text ++ Text.lines t := by
  have hbody : ∀ segments : List Segment,
      Text.lines ((segments.map (Segment.body old new)).flatten ++ t) =
        (segments.flatMap (Segment.hunkLines (old.map Text.chomp) (new.map Text.chomp))).map
          HunkLine.text ++ Text.lines t := by
    intro segments
    induction segments with
    | nil => rfl
    | cons segment segments ih =>
      rw [List.map_cons, List.flatten_cons, List.append_assoc, lines_body ho hn, ih,
        List.flatMap_cons, List.map_append, List.append_assoc]
  obtain ⟨first, hfirst⟩ : ∃ s, group.head? = some s :=
    ⟨_, List.head?_eq_some_head hg⟩
  obtain ⟨last, hlast⟩ : ∃ s, group.getLast? = some s :=
    ⟨_, List.getLast?_eq_some_getLast hg⟩
  rw [hunkText_eq hg, List.append_assoc, List.cons_append, groupHeader, hfirst, hlast]
  simp only
  rw [lines_headerLine, hbody group]
  rfl

/-! ### Reading -/

open Hunk

theorem ofText?_text (line : HunkLine) : DiffLine.ofText? line.text = some (.body line) := by
  cases line <;> rfl

theorem beginsWith_headerLine (a b c d : Nat) :
    Text.beginsWith (Text.ofString "@@") (headerLine a b c d) = true :=
  rfl

theorem headerStart?_groupHeader {group : List Segment} (hg : group ≠ [])
    (hb : groupStart group < wordBound) :
    Text.beginsWith (Text.ofString "@@") (groupHeader group) = true ∧
      headerStart? (groupHeader group) = some (groupStart group) := by
  obtain ⟨first, hfirst⟩ : ∃ s, group.head? = some s :=
    ⟨_, List.head?_eq_some_head hg⟩
  obtain ⟨last, hlast⟩ : ∃ s, group.getLast? = some s :=
    ⟨_, List.getLast?_eq_some_getLast hg⟩
  rw [groupStart, hfirst, hlast] at hb ⊢
  rw [groupHeader, hfirst, hlast]
  refine ⟨beginsWith_headerLine _ _ _ _, ?_⟩
  simp only at hb ⊢
  rw [headerStart?_headerLine, start?_decimal hb]

/-- **The lines say what the hunk is**: a header that states its number, and lines that stand for
its lines. -/
def IsRead (ls : List Text) (hunk : Hunk) : Prop :=
  ∃ header body, ls = header :: body ∧ Text.beginsWith (Text.ofString "@@") header = true ∧
    headerStart? header = some hunk.oldStart ∧
    body.map DiffLine.ofText? = hunk.lines.map fun line => some (.body line)

/-- Such lines are a hunk, none of whose lines is passed over. -/
theorem IsRead.isHunk {ls : List Text} {hunk : Hunk} (h : IsRead ls hunk) : IsHunk ls hunk := by
  obtain ⟨header, body, rfl, -, hstart, hbody⟩ := h
  have hlines : List.Forall₂ IsBodyLine body (hunk.lines.map some) := by
    rw [← List.forall₂_eq_eq_eq, List.forall₂_map_left_iff, List.forall₂_map_right_iff] at hbody
    rw [List.forall₂_map_right_iff]
    exact hbody.imp fun line l hline => ofText?_eq_body_iff.mp hline
  refine ⟨header, body, _, rfl, headerStart?_eq_some_iff.mp hstart, hlines, ?_⟩
  simp [List.reduceOption]

/-- **Hunks are read from the lines that say what they are.** -/
theorem ofLines_of_isRead {texts : List (List Text)} {hunks : List Hunk}
    (h : List.Forall₂ IsRead texts hunks) (hne : hunks ≠ []) (number : Nat) :
    ofLines number texts.flatten = .ok hunks :=
  ofLines_eq_ok_iff.mpr ⟨[], texts, rfl, List.forall_mem_nil _, hne, h.imp fun _ _ => IsRead.isHunk⟩

/-- The lines of a diff without its file header. -/
def hunkTexts (old new : List Text) (group : List Segment) : List Text :=
  groupHeader group :: (hunkOf old new group).lines.map HunkLine.text

theorem isRead_hunkTexts (old new : List Text) {group : List Segment} (hg : group ≠ [])
    (hb : groupStart group < wordBound) :
    IsRead (hunkTexts old new group) (hunkOf old new group) := by
  obtain ⟨hbegins, hstart⟩ := headerStart?_groupHeader hg hb
  refine ⟨_, _, rfl, hbegins, hstart, ?_⟩
  rw [List.map_map]
  exact List.map_congr_left fun line _ => ofText?_text line

/-- **The lines of a generated diff.** -/
theorem lines_unified {old new : Text} (ho : Text.ReturnsPaired old) (hn : Text.ReturnsPaired new)
    (hne : ∀ group ∈ textGroups old new, group ≠ []) :
    Text.lines (unified old new) = Text.ofString "---" :: Text.ofString "+++" ::
      (textGroups old new).flatMap (hunkTexts (Text.lines old) (Text.lines new)) := by
  have holines : ∀ l ∈ Text.cutTerminated old, Text.IsLine l := by
    rw [Text.cutTerminated_eq_cutLines ho]
    exact fun l hl => Text.isLine_of_mem_cutLines ho hl
  have hnlines : ∀ l ∈ Text.cutTerminated new, Text.IsLine l := by
    rw [Text.cutTerminated_eq_cutLines hn]
    exact fun l hl => Text.isLine_of_mem_cutLines hn hl
  have htexts : ∀ gs : List (List Segment), (∀ group ∈ gs, group ≠ []) →
      Text.lines ((gs.map (hunkText (Text.cutTerminated old) (Text.cutTerminated new))).flatten) =
        gs.flatMap (hunkTexts (Text.lines old) (Text.lines new)) := by
    intro gs hgs
    induction gs with
    | nil => rfl
    | cons group gs ih =>
      rw [List.map_cons, List.flatten_cons,
        lines_hunkText holines hnlines (hgs group List.mem_cons_self),
        ih fun g hg => hgs g (List.mem_cons_of_mem group hg), List.flatMap_cons,
        Text.cutTerminated_eq_cutLines ho, Text.cutTerminated_eq_cutLines hn]
      rfl
  rw [← htexts _ hne, unified_eq]
  rfl

/-- Lines after a file header are read without it. -/
theorem parse_of_lines_eq {patch : Text} {ls : List Text}
    (h : Text.lines patch = Text.ofString "---" :: Text.ofString "+++" :: ls) :
    parse patch = ofLines 3 ls := by
  rw [parse, h]
  rfl

/-- **A generated diff is read as the hunks of its groups.** -/
theorem parse_unified {old new : Text} (ho : Text.ReturnsPaired old) (hn : Text.ReturnsPaired new)
    (hgroups : textGroups old new ≠ []) (hne : ∀ group ∈ textGroups old new, group ≠ [])
    (hb : ∀ group ∈ textGroups old new, groupStart group < wordBound) :
    parse (unified old new) =
      .ok ((textGroups old new).map (hunkOf (Text.lines old) (Text.lines new))) := by
  rw [parse_of_lines_eq (lines_unified ho hn hne), List.flatMap_def]
  refine ofLines_of_isRead ?_ (by simpa using hgroups) 3
  rw [List.forall₂_map_left_iff, List.forall₂_map_right_iff, List.forall₂_same]
  exact fun group hg => isRead_hunkTexts _ _ (hne group hg) (hb group hg)

end Diff

end Literate
