import Literate.Patch.Hunk
import Literate.Proofs.Text.Cutting
import Literate.Rendered

/-!
# What a rendered block shows

The content of a block is written piece by piece (`indented_eq`): an LF, and then every piece of
the content one step further in and without the white space at its end.  So a line of the content
that is not blank stands in the written block as a line of its own (`shows_code`), and a line that a
rendered diff adds stands there behind its plus sign (`shows_literal_added`).

Nothing else is written.  `text_keepsLines` says what a block is line by line, so that no line of
the content is lost, merged with another one or made up, whatever line ends and white space it has.
-/

namespace Literate

open Text Convention

namespace Rendered

/-- **The reader is shown the line `l`**: the written element has a line that is `l` one step
further in, with or without a plus sign in front; white space at the end of `l` is of no account. -/
def Shows (d : Rendered) (l : Text) : Prop :=
  indent ++ trimEnd l ∈ pieces d.text ∨ indent ++ '+' :: trimEnd l ∈ pieces d.text

/-! ### Moving a text in -/

theorem replaceAll_newline (new t : Text) :
    replaceAll ['\n'] new t = t.flatMap fun c => if c = '\n' then new else [c] := by
  induction t with
  | nil => rfl
  | cons c t ih =>
    rw [replaceAll] at ih ⊢
    by_cases h : c = '\n'
    · subst h
      simpa [replaceFrom, beginsWith, after?] using ih
    · simpa [replaceFrom, beginsWith, after?, h, Ne.symm h] using ih

/-- A text with a step of indentation after every LF. -/
def moved (t : Text) : Text :=
  replaceAll ['\n'] ('\n' :: indent) t

theorem moved_of_not_mem {s : Text} (h : '\n' ∉ s) : moved s = s := by
  rw [moved, replaceAll_newline]
  induction s with
  | nil => rfl
  | cons c s ih =>
    have hc : c ≠ '\n' := fun e => h (e ▸ List.mem_cons_self)
    rw [List.flatMap_cons, if_neg hc, ih fun hm => h (List.mem_cons_of_mem c hm)]
    rfl

theorem moved_append_newline {s : Text} (h : '\n' ∉ s) (t : Text) :
    moved (s ++ '\n' :: t) = s ++ '\n' :: (indent ++ moved t) := by
  have hs := moved_of_not_mem h
  rw [moved, replaceAll_newline] at hs ⊢
  rw [List.flatMap_append, hs, List.flatMap_cons, if_pos rfl, moved, replaceAll_newline]
  rfl

theorem newline_not_mem_indent : '\n' ∉ indent := by decide

/-- The lines of a text moved in, its first one too, are its pieces moved in. -/
theorem map_trimEnd_lines_moved (t : Text) :
    (lines (indent ++ moved t)).map trimEnd = (pieces t).map fun p => trimEnd (indent ++ p) := by
  induction t using induction_on_lines with
  | last s hs =>
    have hn : '\n' ∉ indent ++ s := by
      simpa only [List.mem_append, not_or] using ⟨newline_not_mem_indent, hs⟩
    rw [moved_of_not_mem hs, pieces_of_not_mem hs,
      lines_of_not_mem hn (List.append_ne_nil_of_left_ne_nil (by decide) s)]
    rfl
  | line s t hs ih =>
    have hn : '\n' ∉ indent ++ s := by
      simpa only [List.mem_append, not_or] using ⟨newline_not_mem_indent, hs⟩
    rw [moved_append_newline hs, ← List.append_assoc, lines_append_newline hn, List.map_cons, ih,
      trimEnd_chomp_append_newline, pieces_append_newline, pieces_of_not_mem hs]
    rfl

/-- **The content of a block, written**: an LF, and the pieces of the content moved in. -/
theorem indented_eq (content : Text) :
    indented content = join ['\n'] ([] :: (pieces content).map fun p => trimEnd (indent ++ p)) := by
  have hm : replaceAll ['\n'] ('\n' :: indent) ('\n' :: content) =
      '\n' :: (indent ++ moved content) :=
    moved_append_newline (s := []) (by simp) content
  have hl : lines ('\n' :: (indent ++ moved content)) = [] :: lines (indent ++ moved content) :=
    lines_append_newline (s := []) (by simp) _
  rw [indented, hm, hl, List.map_cons, map_trimEnd_lines_moved]
  rfl

theorem newline_not_mem_trimEnd {t : Text} (h : '\n' ∉ t) : '\n' ∉ trimEnd t := by
  intro hm
  rw [trimEnd, List.mem_reverse] at hm
  exact h (List.mem_reverse.mp ((List.dropWhile_suffix _).subset hm))

theorem pieces_indented (content : Text) :
    pieces (indented content) = [] :: (pieces content).map fun p => trimEnd (indent ++ p) := by
  rw [indented_eq, pieces_join (List.cons_ne_nil _ _)]
  intro l hl
  rcases List.mem_cons.mp hl with rfl | hl
  · simp
  · obtain ⟨p, hp, rfl⟩ := List.mem_map.mp hl
    refine newline_not_mem_trimEnd ?_
    simpa only [List.mem_append, not_or] using
      ⟨newline_not_mem_indent, newline_not_mem_of_mem_pieces hp⟩

/-! ### Lines of a content in the written block -/

theorem mem_pieces_indented {content l : Text} (h : l ∈ lines content) (hb : isBlank l = false) :
    indent ++ trimEnd l ∈ pieces (indented content) := by
  obtain ⟨p, hp, hl⟩ := exists_piece_of_mem_lines h
  rw [pieces_indented]
  refine List.mem_cons_of_mem _ (List.mem_map.mpr ⟨p, hp, ?_⟩)
  have hpb : ¬ isBlank p = true := by
    rw [← trimEnd_eq_nil_iff, hl, trimEnd_eq_nil_iff, hb]
    exact Bool.false_ne_true
  rw [trimEnd_append, if_neg hpb, hl]

theorem pieces_text_code (language content : Text) :
    pieces (code language content).text =
      pieces (ofString ".. code-block:: " ++ language) ++ pieces (indented content) := by
  rw [text, List.append_assoc, List.singleton_append, pieces_append_newline]

theorem pieces_text_literal (content : Text) :
    pieces (literal content).text = pieces (ofString "::") ++ pieces (indented content) :=
  pieces_append_newline (ofString "::") (indented content)

/-- A rendered code block shows the lines of its content. -/
theorem shows_code {content l : Text} (language : Text) (h : l ∈ lines content)
    (hb : isBlank l = false) : (code language content).Shows l := by
  refine Or.inl ?_
  rw [pieces_text_code]
  exact List.mem_append_right _ (mem_pieces_indented h hb)

/-- A rendered diff shows the lines that it adds. -/
theorem shows_literal_added {content l : Text} (h : l ∈ Hunk.addedLines content)
    (hb : isBlank l = false) : (literal content).Shows l := by
  rw [Hunk.addedLines, List.mem_filterMap] at h
  obtain ⟨line, hline, hl⟩ := h
  obtain rfl : line = '+' :: l := after?_eq_some_iff.mp hl
  have hmem : '+' :: l ∈ lines content := (List.dropWhile_suffix _).subset hline
  have htrim : trimEnd ('+' :: l) = '+' :: trimEnd l := by
    rw [← List.singleton_append, trimEnd_append, if_neg (by simp [hb])]
    rfl
  refine Or.inr ?_
  rw [pieces_text_literal, ← htrim]
  refine List.mem_append_right _ (mem_pieces_indented hmem ?_)
  rw [← List.singleton_append, isBlank_append, hb, Bool.and_false]

/-! ### A block line by line -/

/-- A line of a content as it is written: nothing of a blank one, any other one step further in and
without the white space at its end. -/
def movedLine (line : Text) : Text :=
  if isBlank line then [] else indent ++ trimEnd line

/-- **The lines of a content are kept** in the text of a block with the given first line. -/
structure KeepsLines (text header content : Text) : Prop where
  text_eq : text = header ++ ['\n', '\n'] ++ join ['\n'] ((pieces content).map movedLine)
  newlineCount_eq : newlineCount text = newlineCount content + 2
  /-- The text ends with LF exactly if the last line of the content is blank. -/
  ended_iff : endsWithNewline text = true ↔
    isBlank ((pieces content).getLast (pieces_ne_nil content)) = true
  /-- A line of the text after the first two is empty, or moved back it is that of the content. -/
  movedBack : ((pieces text).drop 2).map
      (fun line => if line = [] then some [] else after? indent line) =
    (pieces content).map fun line => some (trimEnd line)

theorem trimEnd_indent_append (line : Text) : trimEnd (indent ++ line) = movedLine line := by
  rw [trimEnd_append, movedLine, show trimEnd indent = [] by decide]

theorem movedLine_eq_nil_iff {line : Text} : movedLine line = [] ↔ isBlank line = true := by
  rw [← trimEnd_indent_append, trimEnd_eq_nil_iff, isBlank_append,
    show isBlank indent = true by decide, Bool.true_and]

/-- **A moved line is moved back.** -/
theorem movedBack_movedLine (line : Text) :
    (if movedLine line = [] then some [] else after? indent (movedLine line)) =
      some (trimEnd line) := by
  by_cases h : isBlank line = true
  · rw [if_pos (movedLine_eq_nil_iff.mpr h), trimEnd_of_isBlank h]
  · rw [if_neg (mt movedLine_eq_nil_iff.mp h), movedLine, if_neg h]
    exact after?_eq_some_iff.mpr rfl

/-- A content below a line is written line by line. -/
theorem keepsLines_indented {header : Text} (h : '\n' ∉ header) (content : Text) :
    KeepsLines (header ++ '\n' :: indented content) header content := by
  have hmoved : (pieces content).map (fun p => trimEnd (indent ++ p)) =
      (pieces content).map movedLine :=
    List.map_congr_left fun line _ => trimEnd_indent_append line
  have hpieces : pieces (header ++ '\n' :: indented content) =
      header :: [] :: (pieces content).map movedLine := by
    rw [pieces_append_newline, pieces_of_not_mem h, pieces_indented, hmoved]
    rfl
  have hne : (pieces content).map movedLine ≠ [] := by
    simpa using pieces_ne_nil content
  refine ⟨?_, ?_, ?_, ?_⟩
  · rw [indented_eq, hmoved, join_cons hne]
    simp
  · have hlength := congrArg List.length hpieces
    simp only [length_pieces, List.length_cons, List.length_map] at hlength
    omega
  · have hnil : header ++ '\n' :: indented content ≠ [] := by simp
    have hended := getLast?_pieces_eq_nil_iff (t := header ++ '\n' :: indented content)
    rw [or_iff_right hnil] at hended
    rw [← hended, hpieces, List.getLast?_cons_cons, List.getLast?_cons_of_ne_nil hne,
      List.getLast?_map, List.getLast?_eq_some_getLast (pieces_ne_nil content), Option.map_some,
      Option.some_inj, movedLine_eq_nil_iff]
  · rw [hpieces, List.drop_succ_cons, List.drop_succ_cons, List.drop_zero, List.map_map]
    exact List.map_congr_left fun line _ => movedBack_movedLine line

/-- **A written block keeps every line** of its content, be it code or not. -/
theorem text_keepsLines {language : Text} (h : '\n' ∉ language) (content : Text) :
    KeepsLines (code language content).text (ofString ".. code-block:: " ++ language) content ∧
      KeepsLines (literal content).text (ofString "::") content := by
  have hheader : '\n' ∉ ofString ".. code-block:: " ++ language := by
    rw [List.mem_append, not_or]
    exact ⟨by decide, h⟩
  have hcode := keepsLines_indented hheader content
  have hliteral : KeepsLines (ofString "::" ++ '\n' :: indented content) (ofString "::") content :=
    keepsLines_indented (by decide) content
  refine ⟨?_, hliteral⟩
  rwa [text, List.append_assoc, List.singleton_append]

/-- Blank lines at both ends, CR LF, a CR inside a line, and white space at the ends of lines. -/
theorem text_keepsLines_blank :
    let content := ofString "\r\n  a \u3000\r\n\t\nb\rc\n \n"
    '\n' ∉ ofString "sh" ∧
      (code (ofString "sh") content).text =
        ofString ".. code-block:: sh\n\n\n      a\n\n    b\rc\n\n" ∧
      KeepsLines (code (ofString "sh") content).text (ofString ".. code-block:: sh") content ∧
      KeepsLines (literal content).text (ofString "::") content := by
  intro content
  have h : '\n' ∉ ofString "sh" := by decide
  obtain ⟨hcode, hliteral⟩ := text_keepsLines h content
  exact ⟨h, by decide +kernel, hcode, hliteral⟩

end Rendered

end Literate
