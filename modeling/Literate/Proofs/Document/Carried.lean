import Literate.Proofs.Document.Written
import Literate.Proofs.Patch.Added

/-!
# What a block carries

A content without CR that is written as a block and read back has the lines that
`lines_carried` says.  It comes back as it was if it is tidy, and only then
(`carried_eq_self_iff`): its first line and its last are not blank, and its blank lines are empty.

A content with CRs loses no line if its first line and its last are not blank
(`IsBounded.carried_eq`).  Then it comes back as it was if its blank lines are LFs alone, and only
then (`relined_eq_self_iff`).
-/

namespace Literate.Text

variable {t u : Text} {ls : List Text}

/-- The text of a line as a block carries it. -/
def carriedText (line : Text) : Text :=
  if isBlank line then [] else line

/-- **A tidy text**: its first line and its last are not blank, and its blank lines are empty. -/
structure IsTidy (t : Text) : Prop where
  head : ∀ l ∈ (lines t).head?, isBlank l = false
  last : ∀ l ∈ (lines t).getLast?, isBlank l = false
  empty : ∀ l ∈ lines t, isBlank l = true → l = []

theorem map_eq_self_iff {α : Type} {f : α → α} {as : List α} :
    as.map f = as ↔ ∀ a ∈ as, f a = a := by
  nth_rewrite 2 [← List.map_id as]
  exact List.map_inj_left

theorem carriedText_eq_self_iff {line : Text} :
    carriedText line = line ↔ (isBlank line = true → line = []) := by
  by_cases h : isBlank line = true
  · rw [carriedText, if_pos h]
    exact ⟨fun he _ => he.symm, fun he => (he h).symm⟩
  · rw [carriedText, if_neg h]
    exact ⟨fun _ hb => absurd hb h, fun _ => rfl⟩

/-- **A block carries all lines** of a list if the first and the last are not blank, and blank lines
are empty, and only then. -/
theorem map_carriedText_eq_iff :
    ((ls.rdropWhile isBlank).dropWhile isBlank).map carriedText = ls ↔
      (∀ l ∈ ls.head?, isBlank l = false) ∧ (∀ l ∈ ls.getLast?, isBlank l = false) ∧
        ∀ l ∈ ls, isBlank l = true → l = [] := by
  constructor
  · intro h
    -- No line is left out, since there are as many as before.
    have hlen := congrArg List.length h
    rw [List.length_map] at hlen
    have hle := (List.dropWhile_sublist isBlank (l := ls.rdropWhile isBlank)).length_le
    have hle' := (List.rdropWhile_prefix isBlank ls).sublist.length_le
    have hend := (List.rdropWhile_prefix isBlank ls).sublist.eq_of_length (by omega)
    rw [hend] at h hlen
    have hbegin := (List.dropWhile_sublist isBlank (l := ls)).eq_of_length hlen
    rw [hbegin, map_eq_self_iff] at h
    refine ⟨fun l hl => ?_, fun l hl => ?_, fun l hl => carriedText_eq_self_iff.mp (h l hl)⟩
    · have hnot := List.head?_dropWhile_not isBlank ls
      rw [hbegin, hl] at hnot
      exact hnot
    · have hne : ls ≠ [] := by
        rintro rfl
        cases hl
      rw [← List.getLast_of_mem_getLast? hl]
      simpa using List.rdropWhile_eq_self_iff.mp hend hne
  · rintro ⟨hhead, hlast, hempty⟩
    have hend := (Grammar.rdropWhile_rtakeWhile_of_getLast? hlast).1
    have hbegin := (Grammar.takeWhile_dropWhile_of_head hhead).2
    rw [hend, hbegin, map_eq_self_iff]
    exact fun l hl => carriedText_eq_self_iff.mpr (hempty l hl)

theorem isBlank_chomp (line : Text) : isBlank (chomp line) = isBlank line := by
  have hend : ∃ s, line = chomp line ++ s ∧ isBlank s = true := by
    unfold chomp
    split
    · next rest h =>
      exact ⟨['\r', '\n'], by rw [← List.reverse_reverse line, h]; simp, by decide⟩
    · next rest _ h =>
      exact ⟨['\n'], by rw [← List.reverse_reverse line, h]; simp, by decide⟩
    · exact ⟨[], (List.append_nil line).symm, rfl⟩
  obtain ⟨s, hs, hblank⟩ := hend
  nth_rewrite 2 [hs]
  rw [isBlank_append, hblank, Bool.and_true]

/-- A line of a text without CR, carried. -/
theorem chomp_carriedLine (hr : '\r' ∉ t) {line : Text} (h : line ∈ cutLines t) :
    chomp (carriedLine line) = carriedText (chomp line) := by
  obtain ⟨s, hs, hline⟩ := exists_of_mem_cutLines h
  have hreturn : '\r' ∉ line := fun hc =>
    hr (by rw [← flatten_cutLines t]; exact List.mem_flatten.mpr ⟨line, h, hc⟩)
  have hlast : s.getLast? ≠ some '\r' := by
    intro hc
    rcases hline with rfl | rfl
    · exact hreturn (List.mem_of_getLast? hc)
    · exact hreturn (List.mem_append_left _ (List.mem_of_getLast? hc))
  have hchomp : chomp line = s := by
    rcases hline with rfl | rfl
    · exact chomp_of_not_mem hs
    · exact chomp_append_newline hlast
  rw [carriedLine_eq hs hline, hchomp, carriedText]
  split
  · rfl
  · exact chomp_append_newline hlast

/-- A carried line is ended, and made of what is in the text. -/
theorem exists_carriedLine {line : Text} (h : line ∈ cutLines t) :
    ∃ s, '\n' ∉ s ∧ (∀ c ∈ s, c ∈ t) ∧ carriedLine line = s ++ ['\n'] := by
  obtain ⟨s, hs, hs'⟩ := exists_of_mem_cutLines h
  rw [carriedLine_eq hs hs']
  split
  · exact ⟨[], List.not_mem_nil, fun c hc => absurd hc List.not_mem_nil, rfl⟩
  · refine ⟨s, hs, fun c hc => ?_, rfl⟩
    rw [← flatten_cutLines t]
    refine List.mem_flatten.mpr ⟨line, h, ?_⟩
    rcases hs' with rfl | rfl
    · exact hc
    · exact List.mem_append_left _ hc

/-- Lines of a text are carried as lines. -/
theorem cutLines_map_carriedLine (h : ∀ l ∈ ls, l ∈ cutLines t) :
    cutLines (ls.map carriedLine).flatten = ls.map carriedLine := by
  refine cutLines_flatten fun l hl => ?_
  obtain ⟨line, hline, rfl⟩ := List.mem_map.mp hl
  obtain ⟨s, hs, -, hcarried⟩ := exists_carriedLine (h line hline)
  exact ⟨s, hs, hcarried⟩

/-- The lines that are carried are lines of the text. -/
theorem mem_cutLines_of_kept {line : Text}
    (h : line ∈ ((cutLines t).rdropWhile isBlank).dropWhile isBlank) : line ∈ cutLines t :=
  (List.rdropWhile_prefix _ _).subset ((List.dropWhile_sublist _).subset h)

theorem cutLines_carried (t : Text) :
    cutLines (carried t) =
      (((cutLines t).rdropWhile isBlank).dropWhile isBlank).map carriedLine :=
  cutLines_map_carriedLine fun _ => mem_cutLines_of_kept

/-- **The lines that a block carries** of a text without CR. -/
theorem lines_carried (hr : '\r' ∉ t) :
    lines (carried t) =
      (((lines t).rdropWhile isBlank).dropWhile isBlank).map carriedText := by
  have hblank : isBlank ∘ chomp = isBlank := funext isBlank_chomp
  rw [lines, cutLines_carried, lines, Grammar.rdropWhile_map, List.dropWhile_map, List.map_map,
    List.map_map, hblank]
  refine List.map_congr_left fun line hline => ?_
  exact chomp_carriedLine hr (mem_cutLines_of_kept hline)

/-- What a block carries of a text without CR is plain. -/
theorem isPlain_carried (hr : '\r' ∉ t) : IsPlain (carried t) := by
  have hcarried : ∀ l ∈ (((cutLines t).rdropWhile isBlank).dropWhile isBlank).map carriedLine,
      ∃ s, '\n' ∉ s ∧ (∀ c ∈ s, c ∈ t) ∧ l = s ++ ['\n'] := by
    intro l hl
    obtain ⟨line, hline, rfl⟩ := List.mem_map.mp hl
    exact exists_carriedLine (mem_cutLines_of_kept hline)
  refine ⟨fun hm => ?_, ended_flatten fun l hl => ?_, fun he => ?_⟩
  · obtain ⟨l, hl, hc⟩ := List.mem_flatten.mp hm
    obtain ⟨s, -, hs, rfl⟩ := hcarried l hl
    rcases List.mem_append.mp hc with hc | hc
    · exact hr (hs _ hc)
    · exact absurd hc (by decide)
  · obtain ⟨s, hs, -, rfl⟩ := hcarried l hl
    exact ⟨s, hs, rfl⟩
  · -- The first line that is carried is not blank.
    have hlines := lines_carried hr
    have hnot := List.head?_dropWhile_not isBlank ((lines t).rdropWhile isBlank)
    rw [he] at hlines
    cases hkept : ((lines t).rdropWhile isBlank).dropWhile isBlank with
    | nil =>
      rw [hkept] at hlines
      cases hlines
    | cons l ls =>
      rw [hkept] at hlines hnot
      have hblank : carriedText l = [] := (List.cons.inj hlines).1.symm
      rw [carriedText, if_neg (by simpa using hnot)] at hblank
      rw [hblank] at hnot
      cases hnot

/-- Texts without CR that are empty or end with LF are told apart by their lines. -/
theorem eq_of_lines_eq (ht : '\r' ∉ t) (hu : '\r' ∉ u) (ht' : t = [] ∨ endsWithNewline t = true)
    (hu' : u = [] ∨ endsWithNewline u = true) (h : lines t = lines u) : t = u := by
  rcases ht' with rfl | ht' <;> rcases hu' with rfl | hu'
  · rfl
  · exact Classical.byContradiction fun hne => lines_ne_nil (Ne.symm hne) h.symm
  · exact Classical.byContradiction fun hne => lines_ne_nil hne h
  · rw [← join_lines_append_newline ht ht', h, join_lines_append_newline hu hu']

/-- **A tidy content is carried as it is**, and no other. -/
theorem carried_eq_self_iff (hr : '\r' ∉ t) (ht : t = [] ∨ endsWithNewline t = true) :
    carried t = t ↔ IsTidy t := by
  have hplain := isPlain_carried hr
  have hlines : carried t = t ↔ lines (carried t) = lines t :=
    ⟨fun h => by rw [h], eq_of_lines_eq hplain.noReturn hr hplain.ended ht⟩
  rw [hlines, lines_carried hr, map_carriedText_eq_iff]
  exact ⟨fun ⟨hhead, hlast, hempty⟩ => ⟨hhead, hlast, hempty⟩,
    fun h => ⟨h.head, h.last, h.empty⟩⟩

/-! ### Bounded texts -/

/-- A text whose first line and whose last line are not blank. -/
structure IsBounded (t : Text) : Prop where
  head : ∀ l ∈ (cutLines t).head?, isBlank l = false
  last : ∀ l ∈ (cutLines t).getLast?, isBlank l = false

instance (t : Text) : Decidable t.IsBounded :=
  decidable_of_iff ((∀ l ∈ (cutLines t).head?, isBlank l = false) ∧
    ∀ l ∈ (cutLines t).getLast?, isBlank l = false) ⟨fun h => ⟨h.1, h.2⟩, fun h => ⟨h.head, h.last⟩⟩

theorem isBounded_nil : IsBounded [] := by
  constructor <;> rintro l ⟨⟩

/-- The text with an LF alone for each blank line, and an LF after its last line. -/
def relined (t : Text) : Text :=
  ((cutLines t).map carriedLine).flatten

/-- **A bounded content is carried line by line.** -/
theorem IsBounded.carried_eq (h : IsBounded t) : carried t = relined t := by
  rw [carried, (Grammar.rdropWhile_rtakeWhile_of_getLast? h.last).1,
    (Grammar.takeWhile_dropWhile_of_head h.head).2, relined]

/-- No blank line ends a bounded content as it is written. -/
theorem IsBounded.rtakeWhile_writtenLines (h : IsBounded t) :
    (Convention.writtenLines t).rtakeWhile isBlank = [] := by
  refine (Grammar.rdropWhile_rtakeWhile_of_getLast? fun l hl => ?_).2
  by_cases ht : t = []
  · rw [Convention.writtenLines, if_pos ht] at hl
    cases hl
  · have hne : cutLines t ≠ [] := fun hc => ht (by rw [← flatten_cutLines t, hc]; rfl)
    rw [Convention.writtenLines, if_neg ht,
      List.getLast?_cons_of_ne_nil (by simpa using hne), List.getLast?_map] at hl
    obtain ⟨line, hline, rfl⟩ := Option.map_eq_some_iff.mp hl
    rw [Convention.isBlank_writtenLine]
    exact h.last line hline

/-- A bounded text is tidy if its blank lines are empty. -/
theorem IsBounded.isTidy (h : IsBounded t)
    (hempty : ∀ l ∈ cutLines t, isBlank l = true → chomp l = []) : IsTidy t := by
  constructor
  · intro l hl
    rw [lines, List.head?_map] at hl
    obtain ⟨line, hline, rfl⟩ := Option.map_eq_some_iff.mp hl
    rw [isBlank_chomp]
    exact h.head line hline
  · intro l hl
    rw [lines, List.getLast?_map] at hl
    obtain ⟨line, hline, rfl⟩ := Option.map_eq_some_iff.mp hl
    rw [isBlank_chomp]
    exact h.last line hline
  · intro l hl hb
    obtain ⟨line, hline, rfl⟩ := List.mem_map.mp hl
    rw [isBlank_chomp] at hb
    exact hempty line hline hb

/-- **A text is relined as it is** if its blank lines are LFs alone, and only then. -/
theorem relined_eq_self_iff (ht : t = [] ∨ endsWithNewline t = true) :
    relined t = t ↔ ∀ l ∈ cutLines t, isBlank l = true → l = ['\n'] := by
  have hlines : relined t = t ↔ (cutLines t).map carriedLine = cutLines t := by
    constructor
    · intro h
      rw [← cutLines_map_carriedLine (t := t) fun _ hl => hl, ← relined, h]
    · intro h
      rw [relined, h, flatten_cutLines]
  rw [hlines, map_eq_self_iff]
  refine forall₂_congr fun l hl => ?_
  rw [carriedLine]
  by_cases hb : isBlank l = true
  · rw [if_pos hb]
    exact ⟨fun h _ => h.symm, fun h => (h hb).symm⟩
  · rw [if_neg hb, if_pos (endsWithNewline_of_mem_cutLines ht hl)]
    exact ⟨fun _ hc => absurd hc hb, fun _ => rfl⟩

end Literate.Text
