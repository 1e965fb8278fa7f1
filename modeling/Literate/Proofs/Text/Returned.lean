import Literate.Proofs.Rendered
import Literate.Proofs.Text.Cutting
import Mathlib.Data.List.Induction

/-!
# Texts with CR LF in place of LF

`returned t`: the text `t` with a CR before every LF.  It has the lines of `t`, each with its CR
(`cutLines_returned`), and if there is no CR in `t` their contents are the same (`lines_returned`).
What a line says on its own does not change: CR is white space, so no word and no option has it, and
of a blank line only the line end is read.  In a rendered block the CRs are cut off with the white
space at the end of the lines (`indented_returned`).
-/

namespace Literate

namespace Text

/-- The text with CR LF in place of every LF. -/
def returned (t : Text) : Text :=
  t.flatMap fun c => if c = '\n' then ['\r', '\n'] else [c]

theorem returned_append (s t : Text) : returned (s ++ t) = returned s ++ returned t :=
  List.flatMap_append

theorem returned_newline_cons (t : Text) : returned ('\n' :: t) = '\r' :: '\n' :: returned t :=
  rfl

theorem returned_cons {c : Char} (h : c ≠ '\n') (t : Text) :
    returned (c :: t) = c :: returned t := by
  rw [returned, List.flatMap_cons, if_neg h]
  rfl

theorem returned_of_not_mem {t : Text} (h : '\n' ∉ t) : returned t = t := by
  induction t with
  | nil => rfl
  | cons c t ih =>
    rw [List.mem_cons, not_or] at h
    rw [returned_cons (Ne.symm h.1), ih h.2]

theorem mem_returned {t : Text} {c : Char} (h : c ∈ t) : c ∈ returned t := by
  refine List.mem_flatMap.mpr ⟨c, h, ?_⟩
  split
  · next hc => simp [hc]
  · simp

theorem returned_eq_nil_iff {t : Text} : returned t = [] ↔ t = [] := by
  constructor
  · intro h
    exact List.eq_nil_iff_forall_not_mem.mpr fun c hc => by
      have hm := mem_returned hc
      rw [h] at hm
      cases hm
  · rintro rfl
    rfl

/-! ### Lines -/

theorem returned_append_newline {s : Text} (h : '\n' ∉ s) (t : Text) :
    returned (s ++ '\n' :: t) = (s ++ ['\r']) ++ '\n' :: returned t := by
  rw [returned_append, returned_of_not_mem h, returned_newline_cons]
  simp

/-- **The lines of a text with CRs** are its lines with CRs. -/
theorem cutLines_returned (t : Text) : cutLines (returned t) = (cutLines t).map returned := by
  induction t using induction_on_lines with
  | last s hs =>
    rw [returned_of_not_mem hs]
    by_cases he : s = []
    · rw [he]
      rfl
    · rw [cutLines_of_not_mem hs he, List.map_singleton, returned_of_not_mem hs]
  | line s t hs ih =>
    have hs' : '\n' ∉ s ++ ['\r'] := by
      rw [List.mem_append, not_or]
      exact ⟨hs, by decide⟩
    have hline := returned_append_newline hs []
    rw [returned_append_newline hs, cutLines_append_newline hs', cutLines_append_newline hs, ih,
      List.map_cons, hline]
    rfl

/-- **The contents of the lines** are the same, in a text without CR. -/
theorem lines_returned {t : Text} (h : '\r' ∉ t) : lines (returned t) = lines t := by
  rw [lines, lines, cutLines_returned, List.map_map]
  refine List.map_congr_left fun line hline => ?_
  obtain ⟨s, hs, hline' | rfl⟩ := exists_of_mem_cutLines hline
  · rw [Function.comp_apply, hline', returned_of_not_mem hs]
  · have hlast : s.getLast? ≠ some '\r' := fun hc => h (by
      rw [← flatten_cutLines t]
      exact List.mem_flatten.mpr ⟨_, hline, List.mem_append_left _ (List.mem_of_getLast? hc)⟩)
    rw [Function.comp_apply, returned_append_newline hs, List.append_assoc, chomp_append_newline
      hlast]
    exact chomp_append_return_newline s

theorem endsWithNewline_returned (t : Text) :
    endsWithNewline (returned t) = endsWithNewline t := by
  rcases List.eq_nil_or_concat t with rfl | ⟨s, c, rfl⟩
  · rfl
  · rw [List.concat_eq_append, returned_append]
    have hne : returned [c] ≠ [] := mt returned_eq_nil_iff.mp (List.cons_ne_nil _ _)
    rw [endsWithNewline_append hne, endsWithNewline_append (List.cons_ne_nil _ _)]
    by_cases hc : c = '\n'
    · rw [hc]
      decide
    · rw [returned_cons hc]
      rfl

/-- A text with CRs is empty or ends with LF exactly if the text is or does. -/
theorem ended_returned_iff {t : Text} :
    returned t = [] ∨ endsWithNewline (returned t) = true ↔ t = [] ∨ endsWithNewline t = true := by
  rw [returned_eq_nil_iff, endsWithNewline_returned]

/-! ### White space and words -/

theorem isBlank_returned (t : Text) : isBlank (returned t) = isBlank t := by
  rw [isBlank, isBlank, returned, List.all_flatMap]
  refine congrArg t.all (funext fun c => ?_)
  by_cases hc : c = '\n'
  · rw [hc]
    decide
  · simp [hc]

theorem head?_returned (t : Text) :
    (returned t).head?.all Unicode.isWhiteSpace = t.head?.all Unicode.isWhiteSpace := by
  cases t with
  | nil => rfl
  | cons c t =>
    by_cases hc : c = '\n'
    · rw [hc]
      rfl
    · rw [returned_cons hc]
      rfl

/-- CRs stand in no word. -/
theorem words_returned (t : Text) : words (returned t) = words t := by
  induction t with
  | nil => rfl
  | cons c t ih =>
    by_cases hc : c = '\n'
    · rw [hc, returned_newline_cons, words, if_pos (by decide), words, if_pos (by decide), ih,
        words, if_pos (by decide)]
    · rw [returned_cons hc, words, words, ih, head?_returned]

theorem after?_returned {start : Text} (hn : '\n' ∉ start) (hr : '\r' ∉ start) (t : Text) :
    after? start (returned t) = (after? start t).map returned := by
  induction start generalizing t with
  | nil => rfl
  | cons a start ih =>
    rw [List.mem_cons, not_or] at hn hr
    cases t with
    | nil => rfl
    | cons c t =>
      by_cases hc : c = '\n'
      · rw [hc, returned_newline_cons, after?, if_neg (Ne.symm hr.1), after?,
          if_neg (Ne.symm hn.1)]
        rfl
      · rw [returned_cons hc, after?, after?, ih hn.2 hr.2]
        split <;> rfl

theorem beginsWith_returned {start : Text} (hn : '\n' ∉ start) (hr : '\r' ∉ start) (t : Text) :
    beginsWith start (returned t) = beginsWith start t := by
  rw [beginsWith, beginsWith, after?_returned hn hr, Option.isSome_map]

/-- White space at the end is of no account. -/
theorem trim_append_of_isBlank {s t : Text} (h : isBlank t = true) : trim (s ++ t) = trim s := by
  rw [trim, trim, trimStart, trimStart, List.dropWhile_append]
  split
  · next hs =>
    rw [List.isEmpty_iff.mp hs, List.dropWhile_eq_nil_iff.mpr (List.all_eq_true.mp h)]
  · rw [trimEnd_append, if_pos h]

theorem trim_returned_of_mem_cutLines {t line : Text} (h : line ∈ cutLines t) :
    trim (returned line) = trim line := by
  obtain ⟨s, hs, rfl | rfl⟩ := exists_of_mem_cutLines h
  · rw [returned_of_not_mem hs]
  · rw [returned_append_newline hs, List.append_assoc, trim_append_of_isBlank (by decide),
      trim_append_of_isBlank (by decide)]

/-! ### Line ends -/

/-- The line end of a text with CRs is that of the text, with CRs. -/
theorem lineEnd_returned (t : Text) : lineEnd (returned t) = returned (lineEnd t) := by
  induction t using List.reverseRecOn with
  | nil => rfl
  | append_singleton s c ih =>
    rw [returned_append, lineEnd_concat]
    by_cases hc : c = '\n'
    · rw [hc, if_pos (by decide), returned_append, ← ih,
        show returned ['\n'] = ['\r'] ++ ['\n'] from rfl, ← List.append_assoc, lineEnd_concat,
        if_pos (by decide), lineEnd_concat, if_pos (by decide), List.append_assoc]
    · rw [returned_cons hc, show returned [] = [] from rfl, lineEnd_concat]
      split
      · rw [returned_append, ih, returned_cons hc]
        rfl
      · rfl

theorem dropLineEnd_returned (t : Text) : dropLineEnd (returned t) = returned (dropLineEnd t) := by
  have hsplit := congrArg returned (dropLineEnd_append_lineEnd t)
  have hsplit' := dropLineEnd_append_lineEnd (returned t)
  rw [returned_append] at hsplit
  rw [lineEnd_returned] at hsplit'
  exact List.append_cancel_right (hsplit'.trans hsplit.symm)

end Text

/-! ### What a line says -/

namespace Convention

open Text

theorem arguments?_returned (t : Text) : arguments? (returned t) = arguments? t := by
  rw [arguments?, arguments?, after?_returned (by decide) (by decide), Option.map_map,
    show words ∘ returned = words from funext words_returned]

theorem isIndented_returned (t : Text) : isIndented (returned t) = isIndented t :=
  beginsWith_returned (by decide) (by decide) t

theorem unindent_returned (t : Text) : unindent (returned t) = returned (unindent t) := by
  rw [unindent, unindent, isBlank_returned]
  split
  · exact lineEnd_returned t
  · rw [after?_returned (by decide) (by decide)]
    cases after? indent t <;> rfl

/-- An option stands on one line. -/
theorem option?_eq_none_of_mem {t : Text} (h : '\n' ∈ dropLineEnd t) : option? t = none := by
  unfold option?
  split
  · next rest hline =>
    split
    · next c cs gap value hkey hafter =>
      split_ifs with hvalue
      · rw [Bool.and_eq_true, Bool.not_eq_true', List.contains_eq_mem, decide_eq_false_iff_not]
          at hvalue
        have hkeys : ∀ d ∈ c :: cs, d ≠ '\n' := by
          intro d hd he
          rw [← hkey] at hd
          have hchar := List.mem_takeWhile_imp hd
          rw [he] at hchar
          exact absurd hchar (by decide)
        have hgap : gap ≠ '\n' := by
          intro he
          rw [he] at hvalue
          exact absurd hvalue.1 (by decide)
        rw [hline, ← List.takeWhile_append_dropWhile (p := isKeyChar) (l := rest), hkey, hafter,
          List.mem_cons, List.mem_append] at h
        rcases h with h | h | h
        · exact absurd h (by decide)
        · exact absurd rfl (hkeys _ h)
        · rw [List.mem_cons, List.mem_cons] at h
          rcases h with h | h | h
          · exact absurd h (by decide)
          · exact absurd h.symm hgap
          · exact absurd h hvalue.2
      · rfl
    · rfl
  · rfl

theorem option?_returned (t : Text) : option? (returned t) = option? t := by
  by_cases h : '\n' ∈ dropLineEnd t
  · have h' : '\n' ∈ dropLineEnd (returned t) := by
      rw [dropLineEnd_returned]
      exact mem_returned h
    rw [option?_eq_none_of_mem h, option?_eq_none_of_mem h']
  · rw [option?, option?, dropLineEnd_returned, returned_of_not_mem h]

end Convention

/-! ### Rendered blocks -/

open Text in
/-- **CRs are not rendered.** -/
theorem Rendered.indented_returned (t : Text) : indented (returned t) = indented t := by
  have hpieces : (pieces (returned t)).map (fun p => trimEnd (Convention.indent ++ p)) =
      (pieces t).map fun p => trimEnd (Convention.indent ++ p) := by
    induction t using induction_on_lines with
    | last s hs => rw [returned_of_not_mem hs]
    | line s t hs ih =>
      have hs' : '\n' ∉ s ++ ['\r'] := by
        rw [List.mem_append, not_or]
        exact ⟨hs, by decide⟩
      rw [returned_append_newline hs, pieces_append_newline, pieces_append_newline,
        pieces_of_not_mem hs, pieces_of_not_mem hs', List.map_append, List.map_append, ih,
        List.map_singleton, List.map_singleton, ← List.append_assoc, trimEnd_append _ ['\r'],
        if_pos (by decide)]
  rw [indented_eq, indented_eq, hpieces]

end Literate
