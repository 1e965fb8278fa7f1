import Literate.Proofs.Text.Lines

/-!
# Cutting texts at lines and bytes

A text in front of another one is cut as it is alone if every line of it is ended by an LF
(`cutLines_flatten_append`), and so are the lines of a text before and after some place
(`cutLines_flatten_of_append_left`, `cutLines_flatten_of_append`).  A text has the same lines as
pieces, and an empty one at the end if it ends with LF (`getLast?_pieces_eq_nil_iff`).  Bytes are
cut off where a text ends that stands in front (`takeBytes_byteLength_append`,
`dropBytes_byteLength_append`).
-/

namespace Literate.Text

/-! ### Lines -/

/-- A line with the LF that ends it. -/
def IsEnded (line : Text) : Prop :=
  ∃ s, '\n' ∉ s ∧ line = s ++ ['\n']

/-- **Ended lines are cut** from what follows them. -/
theorem cutLines_flatten_append {ls : List Text} (h : ∀ l ∈ ls, IsEnded l) (t : Text) :
    cutLines (ls.flatten ++ t) = ls ++ cutLines t := by
  induction ls with
  | nil => rfl
  | cons l ls ih =>
    obtain ⟨⟨s, hs, rfl⟩, hls⟩ := List.forall_mem_cons.mp h
    have htext : ((s ++ ['\n']) :: ls).flatten ++ t = s ++ '\n' :: (ls.flatten ++ t) := by simp
    rw [htext, cutLines_append_newline hs, ih hls, List.cons_append]

theorem cutLines_flatten {ls : List Text} (h : ∀ l ∈ ls, IsEnded l) : cutLines ls.flatten = ls := by
  have hcut := cutLines_flatten_append h []
  rwa [List.append_nil, show cutLines [] = [] from rfl, List.append_nil] at hcut

/-- A line has no LF but the one that ends it. -/
theorem exists_of_mem_cutLines {t line : Text} (h : line ∈ cutLines t) :
    ∃ s, '\n' ∉ s ∧ (line = s ∨ line = s ++ ['\n']) := by
  induction t using induction_on_lines with
  | last s hs =>
    by_cases he : s = []
    · rw [he] at h
      cases h
    · rw [cutLines_of_not_mem hs he, List.mem_singleton] at h
      exact ⟨s, hs, Or.inl h⟩
  | line s t hs ih =>
    rw [cutLines_append_newline hs] at h
    rcases List.mem_cons.mp h with h | h
    · exact ⟨s, hs, Or.inr h⟩
    · exact ih h

/-- Every line is ended if the text is empty or ends with LF. -/
theorem isEnded_of_mem_cutLines {t line : Text} (ht : t = [] ∨ endsWithNewline t = true)
    (h : line ∈ cutLines t) : IsEnded line := by
  obtain ⟨s, hs, hline⟩ := exists_of_mem_cutLines h
  refine ⟨s, hs, hline.resolve_left fun hc => not_endsWithNewline_of_not_mem hs ?_⟩
  rw [← hc]
  exact endsWithNewline_of_mem_cutLines ht h

/-- Every line with a line after it is ended. -/
theorem isEnded_of_cutLines {t line : Text} {before after : List Text}
    (h : cutLines t = before ++ line :: after) : ∀ l ∈ before, IsEnded l := by
  induction t using induction_on_lines generalizing before with
  | last s hs =>
    by_cases he : s = []
    · rw [he] at h
      exact absurd h (by simp [cutLines])
    · rw [cutLines_of_not_mem hs he, List.singleton_eq_append_iff] at h
      obtain rfl : before = [] := by
        rcases h with ⟨hb, -⟩ | ⟨-, hc⟩
        · exact hb
        · cases hc
      exact List.forall_mem_nil _
  | line s t hs ih =>
    rw [cutLines_append_newline hs] at h
    cases before with
    | nil => exact List.forall_mem_nil _
    | cons b before =>
      obtain ⟨rfl, hrest⟩ := List.cons.inj h
      exact List.forall_mem_cons.mpr ⟨⟨s, hs, rfl⟩, ih hrest⟩

/-- **The lines of the rest** of a text are the rest of its lines. -/
theorem cutLines_flatten_of_append {t : Text} {before after : List Text}
    (h : cutLines t = before ++ after) : cutLines after.flatten = after := by
  cases after with
  | nil => rfl
  | cons line after =>
    have hcut := cutLines_flatten_append (isEnded_of_cutLines h) (line :: after).flatten
    rw [← List.flatten_append, ← h, flatten_cutLines, h] at hcut
    exact (List.append_cancel_left hcut).symm

/-- **The lines of the beginning** of a text are the first of its lines. -/
theorem cutLines_flatten_of_append_left {t : Text} {before after : List Text}
    (h : cutLines t = before ++ after) : cutLines before.flatten = before := by
  cases after with
  | nil =>
    rw [List.append_nil] at h
    rw [← h, flatten_cutLines]
  | cons line after => exact cutLines_flatten (isEnded_of_cutLines h)

/-- Ended lines are a text that is empty or ends with LF. -/
theorem ended_flatten {ls : List Text} (h : ∀ l ∈ ls, IsEnded l) :
    ls.flatten = [] ∨ endsWithNewline ls.flatten = true := by
  induction ls with
  | nil => exact Or.inl rfl
  | cons l ls ih =>
    obtain ⟨⟨s, -, rfl⟩, hls⟩ := List.forall_mem_cons.mp h
    refine Or.inr ?_
    rw [List.flatten_cons]
    rcases ih hls with hnil | hended
    · rw [hnil, List.append_nil]
      exact endsWithNewline_append (List.cons_ne_nil _ _) s
    · have hne : ls.flatten ≠ [] := by
        intro hnil
        rw [hnil] at hended
        cases hended
      rw [endsWithNewline_append hne, hended]

/-- **A text that is empty or ends with LF** is cut from what follows it. -/
theorem cutLines_append_of_ended {s : Text} (hs : s = [] ∨ endsWithNewline s = true) (t : Text) :
    cutLines (s ++ t) = cutLines s ++ cutLines t := by
  have hcut := cutLines_flatten_append (fun l hl => isEnded_of_mem_cutLines hs hl) t
  rwa [flatten_cutLines] at hcut

/-! ### Pieces -/

/-- A line is a piece, with the LF after it if there is one. -/
theorem exists_piece_of_mem_cutLines {t line : Text} (h : line ∈ cutLines t) :
    ∃ p ∈ pieces t, line = p ∨ line = p ++ ['\n'] := by
  induction t using induction_on_lines with
  | last s hs =>
    by_cases he : s = []
    · rw [he] at h
      cases h
    · rw [cutLines_of_not_mem hs he, List.mem_singleton] at h
      rw [pieces_of_not_mem hs]
      exact ⟨s, List.mem_singleton_self s, Or.inl h⟩
  | line s t hs ih =>
    rw [cutLines_append_newline hs] at h
    rw [pieces_append_newline, pieces_of_not_mem hs]
    rcases List.mem_cons.mp h with h | h
    · exact ⟨s, List.mem_cons_self, Or.inr h⟩
    · obtain ⟨p, hp, hline⟩ := ih h
      exact ⟨p, List.mem_cons_of_mem s hp, hline⟩

/-- A text is empty or ends with LF exactly if its last piece is empty. -/
theorem getLast?_pieces_eq_nil_iff {t : Text} :
    (pieces t).getLast? = some [] ↔ t = [] ∨ endsWithNewline t = true := by
  induction t using induction_on_lines with
  | last s hs =>
    have hn := not_endsWithNewline_of_not_mem hs
    rw [pieces_of_not_mem hs]
    simp [hn]
  | line s t hs ih =>
    rw [pieces_append_newline, pieces_of_not_mem hs, List.singleton_append,
      List.getLast?_cons_of_ne_nil (pieces_ne_nil t), ih]
    constructor
    · rintro (rfl | ht)
      · exact Or.inr (endsWithNewline_append (List.cons_ne_nil _ _) s)
      · have hne : t ≠ [] := by
          rintro rfl
          cases ht
        have hlast := endsWithNewline_append hne (s ++ ['\n'])
        rw [List.append_assoc] at hlast
        exact Or.inr (hlast.trans ht)
    · rintro (h | h)
      · exact absurd h (by simp)
      · exact ended_of_append h

/-! ### Bytes -/

theorem exists_byteLength_cons (c : Char) (t : Text) : ∃ n, byteLength (c :: t) = n + 1 ∧
    n + 1 - c.utf8Size = byteLength t := by
  have hpos := c.utf8Size_pos
  have hcons := byteLength_cons c t
  exact ⟨c.utf8Size + byteLength t - 1, by omega, by omega⟩

theorem takeBytes_byteLength_append (s t : Text) : takeBytes (byteLength s) (s ++ t) = s := by
  induction s with
  | nil => rw [byteLength_nil, takeBytes]
  | cons c s ih =>
    obtain ⟨n, hn, hrest⟩ := exists_byteLength_cons c s
    rw [hn, List.cons_append, takeBytes, hrest, ih]

theorem dropBytes_byteLength_append (s t : Text) : dropBytes (byteLength s) (s ++ t) = t := by
  induction s with
  | nil => rw [byteLength_nil, List.nil_append, dropBytes]
  | cons c s ih =>
    obtain ⟨n, hn, hrest⟩ := exists_byteLength_cons c s
    rw [hn, List.cons_append, dropBytes, hrest, ih]

end Literate.Text
