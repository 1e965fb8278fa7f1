import Literate.Proofs.Text.Lines

/-!
# Texts with CRs only before LFs

`ReturnsPaired t`: every CR of the text `t` stands right before an LF.  Then all rules cut the text
into the same lines (`cutTerminated_eq_cutLines`), and a line is a content without line ends
followed by LF or CR LF or, at the end of the text, by nothing (`IsLine`), so that what is read of
it has no CR (`return_not_mem_of_mem_lines`).
-/

namespace Literate.Text

/-- Every CR stands right before an LF. -/
def ReturnsPaired (t : Text) : Prop :=
  ∀ before after, t = before ++ '\r' :: after → ∃ rest, after = '\n' :: rest

/-- The line has a content without CR or LF, and ends with LF, with CR LF or with its content. -/
def IsLine (line : Text) : Prop :=
  ∃ content, '\n' ∉ content ∧ '\r' ∉ content ∧
    (line = content ++ ['\n'] ∨ line = content ++ ['\r', '\n'] ∨ line = content ∧ content ≠ [])

theorem ReturnsPaired.of_append {s t : Text} (h : ReturnsPaired (s ++ t)) : ReturnsPaired t := by
  rintro before after rfl
  exact h (s ++ before) after (by rw [List.append_assoc])

theorem returnsPaired_of_not_mem {t : Text} (h : '\r' ∉ t) : ReturnsPaired t := by
  rintro before after rfl
  exact absurd (List.mem_append_right _ List.mem_cons_self) h

theorem returnsPaired_cons_iff {c : Char} {t : Text} :
    ReturnsPaired (c :: t) ↔ (c = '\r' → t.head? = some '\n') ∧ ReturnsPaired t := by
  constructor
  · refine fun h => ⟨?_, h.of_append (s := [c])⟩
    rintro rfl
    obtain ⟨rest, rfl⟩ := h [] t rfl
    rfl
  · rintro ⟨hc, ht⟩ before after he
    rcases List.cons_eq_append_iff.mp he with ⟨rfl, hafter⟩ | ⟨before', rfl, rfl⟩
    · obtain ⟨rfl, rfl⟩ := List.cons.inj hafter
      exact List.head?_eq_some_iff.mp (hc rfl)
    · exact ht before' after rfl

instance decidableReturnsPaired : (t : Text) → Decidable (ReturnsPaired t)
  | [] => isTrue (returnsPaired_of_not_mem List.not_mem_nil)
  | _ :: t =>
    have := decidableReturnsPaired t
    decidable_of_iff _ returnsPaired_cons_iff.symm

/-- **All rules cut the text into the same lines.** -/
theorem cutTerminated_eq_cutLines {t : Text} (h : ReturnsPaired t) :
    cutTerminated t = cutLines t := by
  fun_induction cutTerminated t with
  | case1 => rfl
  | case2 t ih =>
    rw [ih (h.of_append (s := ['\r', '\n']))]
    rfl
  | case3 c t hcrlf hc ih =>
    rw [ih (h.of_append (s := [c]))]
    have hlf : c = '\n' := by
      rw [isLineEnd, Bool.or_eq_true, decide_eq_true_iff, decide_eq_true_iff] at hc
      refine hc.resolve_left ?_
      rintro rfl
      obtain ⟨rest, rfl⟩ := h [] t rfl
      exact hcrlf rest rfl rfl
    rw [cutLines, if_pos hlf, hlf]
  | case4 c t hcrlf hc hnil ih =>
    have hlf : c ≠ '\n' := by
      rintro rfl
      exact hc rfl
    rw [cutLines, if_neg hlf, ← ih (h.of_append (s := [c])), hnil]
  | case5 c t hcrlf hc line rest hcons ih =>
    have hlf : c ≠ '\n' := by
      rintro rfl
      exact hc rfl
    rw [cutLines, if_neg hlf, ← ih (h.of_append (s := [c])), hcons]

/-- A line that an LF ends has at most one CR, right before the LF. -/
theorem isLine_append_newline {s t : Text} (hs : '\n' ∉ s) (h : ReturnsPaired (s ++ '\n' :: t)) :
    IsLine (s ++ ['\n']) := by
  by_cases hr : '\r' ∈ s
  · obtain ⟨before, after, rfl, hbefore⟩ := List.eq_append_cons_of_mem hr
    obtain ⟨rest, hrest⟩ := h before (after ++ '\n' :: t) (by simp)
    cases after with
    | nil =>
      refine ⟨before, fun hm => hs (List.mem_append_left _ hm), hbefore, Or.inr (Or.inl ?_)⟩
      simp
    | cons c after =>
      obtain ⟨rfl, -⟩ := List.cons.inj hrest
      exact absurd (by simp) hs
  · exact ⟨s, hs, hr, Or.inl rfl⟩

theorem isLine_of_mem_cutLines {t line : Text} (h : ReturnsPaired t) (hl : line ∈ cutLines t) :
    IsLine line := by
  induction t using induction_on_lines with
  | last s hs =>
    by_cases he : s = []
    · rw [he] at hl
      cases hl
    · rw [cutLines_of_not_mem hs he, List.mem_singleton] at hl
      subst hl
      refine ⟨line, hs, fun hr => ?_, Or.inr (Or.inr ⟨rfl, he⟩)⟩
      obtain ⟨before, after, rfl⟩ := List.append_of_mem hr
      obtain ⟨rest, rfl⟩ := h before after rfl
      exact hs (by simp)
  | line s t hs ih =>
    rw [cutLines_append_newline hs] at hl
    rcases List.mem_cons.mp hl with rfl | hl
    · exact isLine_append_newline hs h
    · refine ih (ReturnsPaired.of_append (s := s ++ ['\n']) ?_) hl
      rwa [List.append_assoc]

theorem return_not_mem_of_mem_lines {t l : Text} (h : ReturnsPaired t) (hl : l ∈ lines t) :
    '\r' ∉ l := by
  obtain ⟨line, hline, rfl⟩ := List.mem_map.mp hl
  obtain ⟨content, hn, hr, hcontent⟩ := isLine_of_mem_cutLines h hline
  rcases hcontent with rfl | rfl | ⟨rfl, -⟩
  · rwa [chomp_append_newline fun he => hr (List.mem_of_getLast? he)]
  · rwa [chomp_append_return_newline]
  · rwa [chomp_of_not_mem hn]

/-- **A line behind a sign**, in a text that goes on: it is read as the sign and the content. -/
theorem lines_sign_append {line : Text} (h : IsLine line) {sign : Char} (hn : sign ≠ '\n')
    (hr : sign ≠ '\r') (t : Text) :
    lines (sign :: line ++ (if isTerminated line then [] else ['\n']) ++ t) =
      (sign :: chomp line) :: lines t := by
  obtain ⟨content, hcn, hcr, hline⟩ := h
  have hn' : '\n' ∉ sign :: content := fun hm =>
    (List.mem_cons.mp hm).elim (fun he => hn he.symm) hcn
  have hr' : '\r' ∉ sign :: content := fun hm =>
    (List.mem_cons.mp hm).elim (fun he => hr he.symm) hcr
  have hlast : ∀ s : Text, '\r' ∉ s → s.getLast? ≠ some '\r' := fun s hs he =>
    hs (List.mem_of_getLast? he)
  rcases hline with rfl | rfl | ⟨rfl, hne⟩
  · have ht : isTerminated (content ++ ['\n']) = true := by simp [isTerminated, isLineEnd]
    rw [if_pos ht, chomp_append_newline (hlast content hcr)]
    have := lines_append_newline hn' t
    rw [chomp_append_newline (hlast _ hr')] at this
    simpa using this
  · have ht : isTerminated (content ++ ['\r', '\n']) = true := by simp [isTerminated, isLineEnd]
    rw [if_pos ht, chomp_append_return_newline]
    have hn'' : '\n' ∉ sign :: content ++ ['\r'] := by
      rw [List.mem_append]
      rintro (hm | hm)
      · exact hn' hm
      · exact absurd hm (by decide)
    have := lines_append_newline hn'' t
    rw [List.append_assoc, List.append_assoc] at this
    rw [show ['\r'] ++ ['\n'] = ['\r', '\n'] from rfl, chomp_append_return_newline] at this
    simpa using this
  · have ht : isTerminated line = false := by
      cases hl : line.getLast? with
      | none => rw [isTerminated, hl]
      | some c =>
        have hmem := List.mem_of_getLast? hl
        have h₁ : c ≠ '\r' := fun he => hcr (he ▸ hmem)
        have h₂ : c ≠ '\n' := fun he => hcn (he ▸ hmem)
        simp [isTerminated, hl, isLineEnd, h₁, h₂]
    rw [ht, if_neg Bool.false_ne_true, chomp_of_not_mem hcn]
    have := lines_append_newline hn' t
    rw [chomp_append_newline (hlast _ hr')] at this
    simpa using this

end Literate.Text
