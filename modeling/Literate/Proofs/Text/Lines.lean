import Literate.Text.Lines
import Mathlib.Data.List.TakeWhile

/-!
# Lines, joined and cut

What the rules that cut a text say about a text put together from lines: `cutLines`, `lines` and
`pieces` of a line followed by an LF and the rest.  A text is a last line without LF, or a line and
an LF before another text; `induction_on_lines` is the induction that goes with it.

`pieces_join` is the way back from a join, and `join_lines_append_newline` the way back from the
lines.  Every line of a text is one of its pieces up to the white space at its end
(`exists_piece_of_mem_lines`).
-/

namespace Literate.Text

/-- **Induction on lines.** -/
@[elab_as_elim]
theorem induction_on_lines {motive : Text → Prop} (last : ∀ s, '\n' ∉ s → motive s)
    (line : ∀ s t, '\n' ∉ s → motive t → motive (s ++ '\n' :: t)) : ∀ t, motive t := by
  intro t
  induction hn : t.length using Nat.strongRecOn generalizing t with
  | ind n ih =>
    by_cases h : '\n' ∈ t
    · obtain ⟨s, r, rfl, hs⟩ := List.eq_append_cons_of_mem h
      exact line s r hs (ih r.length (by subst hn; simp; omega) r rfl)
    · exact last t h

/-- The text with the given lines, each ended by LF. -/
def ofLines (ls : List String) : Text :=
  (ls.map fun l => ofString l ++ ['\n']).flatten

/-! ### White space and line ends -/

theorem isBlank_append (s t : Text) : isBlank (s ++ t) = (isBlank s && isBlank t) :=
  List.all_append

theorem trimEnd_of_isBlank {t : Text} (h : isBlank t = true) : trimEnd t = [] := by
  rw [trimEnd, List.dropWhile_eq_nil_iff.mpr, List.reverse_nil]
  intro c hc
  exact List.all_eq_true.mp h c (List.mem_reverse.mp hc)

theorem trimEnd_append (s t : Text) :
    trimEnd (s ++ t) = if isBlank t = true then trimEnd s else s ++ trimEnd t := by
  rw [trimEnd, List.reverse_append, List.dropWhile_append]
  by_cases h : isBlank t = true
  · have hd : t.reverse.dropWhile Unicode.isWhiteSpace = [] := by
      have := trimEnd_of_isBlank h
      rwa [trimEnd, List.reverse_eq_nil_iff] at this
    rw [hd, if_pos h]
    rfl
  · have hd : t.reverse.dropWhile Unicode.isWhiteSpace ≠ [] := by
      intro he
      rw [List.dropWhile_eq_nil_iff] at he
      exact h (List.all_eq_true.mpr fun c hc => he c (List.mem_reverse.mpr hc))
    rw [if_neg (by simpa using hd), if_neg h, List.reverse_append, List.reverse_reverse]
    rfl

theorem isBlank_of_trimEnd_eq_nil {t : Text} (h : trimEnd t = []) : isBlank t = true := by
  rw [trimEnd, List.reverse_eq_nil_iff, List.dropWhile_eq_nil_iff] at h
  exact List.all_eq_true.mpr fun c hc => h c (List.mem_reverse.mpr hc)

theorem trimEnd_eq_nil_iff {t : Text} : trimEnd t = [] ↔ isBlank t = true :=
  ⟨isBlank_of_trimEnd_eq_nil, trimEnd_of_isBlank⟩

/-- The line end of a text with one more character. -/
theorem lineEnd_concat (s : Text) (c : Char) :
    lineEnd (s ++ [c]) = if isLineEnd c then lineEnd s ++ [c] else [] := by
  rw [lineEnd, List.reverse_append, List.reverse_singleton, List.singleton_append]
  split
  · next hc =>
    rw [List.takeWhile_cons_of_pos hc, List.reverse_cons]
    rfl
  · next hc => rw [List.takeWhile_cons_of_neg hc, List.reverse_nil]

/-! ### A line and what follows it -/

theorem cutLines_append_newline {s : Text} (h : '\n' ∉ s) (t : Text) :
    cutLines (s ++ '\n' :: t) = (s ++ ['\n']) :: cutLines t := by
  induction s with
  | nil => simp [cutLines]
  | cons c s ih =>
    have hc : c ≠ '\n' := fun e => h (e ▸ List.mem_cons_self)
    rw [List.cons_append, cutLines, if_neg hc, ih fun hm => h (List.mem_cons_of_mem c hm)]
    rfl

theorem cutLines_of_not_mem {s : Text} (h : '\n' ∉ s) (hs : s ≠ []) : cutLines s = [s] := by
  induction s with
  | nil => exact absurd rfl hs
  | cons c s ih =>
    have hc : c ≠ '\n' := fun e => h (e ▸ List.mem_cons_self)
    rw [cutLines, if_neg hc]
    by_cases he : s = []
    · rw [he]
      rfl
    · rw [ih (fun hm => h (List.mem_cons_of_mem c hm)) he]

theorem pieces_of_not_mem {s : Text} (h : '\n' ∉ s) : pieces s = [s] := by
  induction s with
  | nil => rfl
  | cons c s ih =>
    have hc : c ≠ '\n' := fun e => h (e ▸ List.mem_cons_self)
    rw [pieces, if_neg hc, ih fun hm => h (List.mem_cons_of_mem c hm)]

theorem pieces_append_newline (s t : Text) : pieces (s ++ '\n' :: t) = pieces s ++ pieces t := by
  induction s with
  | nil => simp [pieces]
  | cons c s ih =>
    rw [List.cons_append]
    by_cases hc : c = '\n'
    · rw [pieces, if_pos hc, ih, pieces, if_pos hc]
      rfl
    · rw [pieces, if_neg hc, ih, pieces, if_neg hc]
      cases hp : pieces s with
      | nil => exact absurd hp (pieces_ne_nil s)
      | cons piece rest => rfl

theorem newline_not_mem_of_mem_pieces {t p : Text} (h : p ∈ pieces t) : '\n' ∉ p := by
  induction t using induction_on_lines with
  | last s hs =>
    rw [pieces_of_not_mem hs, List.mem_singleton] at h
    exact h ▸ hs
  | line s t hs ih =>
    rw [pieces_append_newline, pieces_of_not_mem hs] at h
    rcases List.mem_cons.mp h with rfl | h
    · exact hs
    · exact ih h

/-- There is one piece more than there are LFs. -/
theorem length_pieces (t : Text) : (pieces t).length = newlineCount t + 1 := by
  induction t using induction_on_lines with
  | last s hs => rw [pieces_of_not_mem hs, newlineCount, List.count_eq_zero_of_not_mem hs]; rfl
  | line s t hs ih =>
    rw [pieces_append_newline, pieces_of_not_mem hs, List.length_append, ih, newlineCount,
      newlineCount, List.count_append, List.count_cons_self, List.count_eq_zero_of_not_mem hs,
      List.length_singleton]
    omega

/-! ### The content of a line -/

theorem chomp_of_not_mem {s : Text} (h : '\n' ∉ s) : chomp s = s := by
  unfold chomp
  split
  · next heq => exact absurd (List.mem_reverse.mp (heq ▸ List.mem_cons_self)) h
  · next heq => exact absurd (List.mem_reverse.mp (heq ▸ List.mem_cons_self)) h
  · rfl

theorem chomp_append_newline {s : Text} (h : s.getLast? ≠ some '\r') : chomp (s ++ ['\n']) = s := by
  unfold chomp
  split
  · next heq =>
    simp only [List.reverse_append, List.reverse_cons, List.reverse_nil, List.nil_append,
      List.singleton_append, List.cons.injEq, true_and] at heq
    exact absurd (by rw [← List.head?_reverse, heq]; rfl) h
  · next heq =>
    simp only [List.reverse_append, List.reverse_cons, List.reverse_nil, List.nil_append,
      List.singleton_append, List.cons.injEq, true_and] at heq
    rw [← heq, List.reverse_reverse]
  · next h1 h2 => exact absurd (by simp) (h2 s.reverse)

theorem chomp_append_return_newline (s : Text) : chomp (s ++ ['\r', '\n']) = s := by
  simp [chomp]

theorem chomp_append_newline_eq_or (s : Text) :
    chomp (s ++ ['\n']) = s ∨ s = chomp (s ++ ['\n']) ++ ['\r'] := by
  by_cases h : s.getLast? = some '\r'
  · obtain ⟨r, rfl⟩ := List.getLast?_eq_some_iff.mp h
    rw [List.append_assoc]
    exact Or.inr (by rw [show ['\r'] ++ ['\n'] = ['\r', '\n'] from rfl,
      chomp_append_return_newline])
  · exact Or.inl (chomp_append_newline h)

theorem trimEnd_chomp_append_newline (s : Text) : trimEnd (chomp (s ++ ['\n'])) = trimEnd s := by
  rcases chomp_append_newline_eq_or s with h | h
  · rw [h]
  · conv => rhs; rw [h, trimEnd_append, if_pos (by decide)]

theorem lines_append_newline {s : Text} (h : '\n' ∉ s) (t : Text) :
    lines (s ++ '\n' :: t) = chomp (s ++ ['\n']) :: lines t := by
  rw [lines, cutLines_append_newline h, List.map_cons]
  rfl

theorem lines_of_not_mem {s : Text} (h : '\n' ∉ s) (hs : s ≠ []) : lines s = [s] := by
  rw [lines, cutLines_of_not_mem h hs, List.map_singleton, chomp_of_not_mem h]

theorem newline_not_mem_of_mem_lines {t l : Text} (h : l ∈ lines t) : '\n' ∉ l := by
  induction t using induction_on_lines with
  | last s hs =>
    by_cases he : s = []
    · rw [he] at h
      exact absurd h (by simp)
    · rw [lines_of_not_mem hs he, List.mem_singleton] at h
      exact h ▸ hs
  | line s t hs ih =>
    rw [lines_append_newline hs] at h
    rcases List.mem_cons.mp h with rfl | h
    · rcases chomp_append_newline_eq_or s with he | he
      · rwa [he]
      · intro hm
        exact hs (by rw [he]; exact List.mem_append_left _ hm)
    · exact ih h

/-- **A line is a piece**, up to the white space at its end. -/
theorem exists_piece_of_mem_lines {t l : Text} (h : l ∈ lines t) :
    ∃ p ∈ pieces t, trimEnd p = trimEnd l := by
  induction t using induction_on_lines with
  | last s hs =>
    by_cases he : s = []
    · rw [he] at h
      exact absurd h (by simp)
    · rw [lines_of_not_mem hs he, List.mem_singleton] at h
      exact ⟨s, by rw [pieces_of_not_mem hs]; exact List.mem_singleton_self s, by rw [h]⟩
  | line s t hs ih =>
    rw [lines_append_newline hs] at h
    rw [pieces_append_newline, pieces_of_not_mem hs]
    rcases List.mem_cons.mp h with rfl | h
    · exact ⟨s, List.mem_cons_self, (trimEnd_chomp_append_newline s).symm⟩
    · obtain ⟨p, hp, hl⟩ := ih h
      exact ⟨p, List.mem_cons_of_mem s hp, hl⟩

/-! ### Joins -/

theorem join_cons {l : Text} {ls : List Text} (h : ls ≠ []) (separator : Text) :
    join separator (l :: ls) = l ++ separator ++ join separator ls := by
  cases ls with
  | nil => exact absurd rfl h
  | cons m ls => rfl

/-- Lines without LF, joined by LFs, are the pieces of the join. -/
theorem pieces_join {ls : List Text} (hls : ls ≠ []) (h : ∀ l ∈ ls, '\n' ∉ l) :
    pieces (join ['\n'] ls) = ls := by
  induction ls with
  | nil => exact absurd rfl hls
  | cons l ls ih =>
    by_cases he : ls = []
    · rw [he, join_singleton, pieces_of_not_mem (h l List.mem_cons_self)]
    · rw [join_cons he, List.append_assoc, List.singleton_append, pieces_append_newline,
        pieces_of_not_mem (h l List.mem_cons_self),
        ih he fun m hm => h m (List.mem_cons_of_mem l hm)]
      rfl

/-- **A join is cut back** into the lines that it was put together from, if as many are expected. -/
theorem join_inj {ls ms : List Text} (hlen : ls.length = ms.length) (hls : ∀ l ∈ ls, '\n' ∉ l)
    (hms : ∀ m ∈ ms, '\n' ∉ m) (h : join ['\n'] ls = join ['\n'] ms) : ls = ms := by
  by_cases hl : ls = []
  · subst hl
    exact (List.length_eq_zero_iff.mp hlen.symm).symm
  · have hm : ms ≠ [] := by
      rintro rfl
      exact hl (List.length_eq_zero_iff.mp hlen)
    rw [← pieces_join hl hls, h, pieces_join hm hms]

/-- Whether a text ends with LF is up to its last part. -/
theorem endsWithNewline_append {t : Text} (h : t ≠ []) (s : Text) :
    endsWithNewline (s ++ t) = endsWithNewline t := by
  rw [endsWithNewline, endsWithNewline, List.getLast?_append, List.getLast?_eq_some_getLast h]
  rfl

theorem lines_ne_nil {t : Text} (h : t ≠ []) : lines t ≠ [] := by
  induction t using induction_on_lines with
  | last s hs =>
    rw [lines_of_not_mem hs h]
    exact List.cons_ne_nil _ _
  | line s t hs =>
    rw [lines_append_newline hs]
    exact List.cons_ne_nil _ _

/-- The lines of a join that an LF ends are those it was put together from. -/
theorem lines_join_append_newline {ls : List Text} (hls : ls ≠ []) (hn : ∀ l ∈ ls, '\n' ∉ l)
    (hr : ∀ l ∈ ls, '\r' ∉ l) : lines (join ['\n'] ls ++ ['\n']) = ls := by
  induction ls with
  | nil => exact absurd rfl hls
  | cons l ls ih =>
    have hl : l.getLast? ≠ some '\r' := fun he =>
      hr l List.mem_cons_self (List.mem_of_getLast? he)
    by_cases he : ls = []
    · rw [he, join_singleton, lines_append_newline (hn l List.mem_cons_self),
        chomp_append_newline hl, lines_nil]
    · rw [join_cons he, List.append_assoc, List.append_assoc, List.singleton_append,
        lines_append_newline (hn l List.mem_cons_self), chomp_append_newline hl,
        ih he (fun m hm => hn m (List.mem_cons_of_mem l hm))
          fun m hm => hr m (List.mem_cons_of_mem l hm)]

/-- A join has no lines but those it was put together from. -/
theorem mem_of_mem_lines_join {ls : List Text} {l : Text} (hn : ∀ l ∈ ls, '\n' ∉ l)
    (hr : ∀ l ∈ ls, '\r' ∉ l) (h : l ∈ lines (join ['\n'] ls)) : l ∈ ls := by
  induction ls with
  | nil => cases h
  | cons m ls ih =>
    obtain ⟨hm, hn⟩ := List.forall_mem_cons.mp hn
    obtain ⟨hm', hr⟩ := List.forall_mem_cons.mp hr
    by_cases he : ls = []
    · rw [he, join_singleton] at h
      by_cases hmnil : m = []
      · rw [hmnil] at h
        cases h
      · rw [lines_of_not_mem hm hmnil, List.mem_singleton] at h
        exact h ▸ List.mem_cons_self
    · rw [join_cons he, List.append_assoc, List.singleton_append, lines_append_newline hm,
        chomp_append_newline fun hc => hm' (List.mem_of_getLast? hc)] at h
      rcases List.mem_cons.mp h with rfl | h
      · exact List.mem_cons_self
      · exact List.mem_cons_of_mem m (ih hn hr h)

theorem mem_of_mem_join {ls : List Text} {c : Char} (h : c ∈ join ['\n'] ls) :
    c = '\n' ∨ ∃ l ∈ ls, c ∈ l := by
  induction ls with
  | nil => cases h
  | cons l ls ih =>
    by_cases he : ls = []
    · rw [he, join_singleton] at h
      exact Or.inr ⟨l, List.mem_cons_self, h⟩
    · rw [join_cons he, List.mem_append, List.mem_append, List.mem_singleton] at h
      rcases h with (h | h) | h
      · exact Or.inr ⟨l, List.mem_cons_self, h⟩
      · exact Or.inl h
      · exact (ih h).imp_right fun ⟨m, hm, hc⟩ => ⟨m, List.mem_cons_of_mem l hm, hc⟩

theorem mem_join_of_mem {ls : List Text} {l : Text} {c : Char} (hl : l ∈ ls) (hc : c ∈ l) :
    c ∈ join ['\n'] ls := by
  induction ls with
  | nil => cases hl
  | cons m ls ih =>
    by_cases he : ls = []
    · subst he
      rw [List.mem_singleton] at hl
      rwa [join_singleton, ← hl]
    · rw [join_cons he]
      rcases List.mem_cons.mp hl with rfl | hl
      · exact List.mem_append_left _ (List.mem_append_left _ hc)
      · exact List.mem_append_right _ (ih hl)

/-! ### Texts that end with LF -/

/-- What follows a line of a text that ends with LF is empty or ends with LF. -/
theorem ended_of_append {s t : Text} (h : endsWithNewline (s ++ '\n' :: t) = true) :
    t = [] ∨ endsWithNewline t = true := by
  by_cases ht : t = []
  · exact Or.inl ht
  · refine Or.inr ?_
    rw [← h, ← endsWithNewline_append ht (s ++ ['\n']), List.append_assoc]
    rfl

theorem not_endsWithNewline_of_not_mem {s : Text} (h : '\n' ∉ s) : ¬ endsWithNewline s = true := by
  rw [endsWithNewline, decide_eq_true_iff]
  exact fun he => h (List.mem_of_getLast? he)

theorem endsWithNewline_of_mem_cutLines {t line : Text} (ht : t = [] ∨ endsWithNewline t = true)
    (h : line ∈ cutLines t) : endsWithNewline line = true := by
  induction t using induction_on_lines with
  | last s hs =>
    rcases ht with rfl | ht
    · cases h
    · exact absurd ht (not_endsWithNewline_of_not_mem hs)
  | line s t hs ih =>
    rw [cutLines_append_newline hs] at h
    rcases List.mem_cons.mp h with rfl | h
    · exact endsWithNewline_append (List.cons_ne_nil _ _) s
    · exact ih (ended_of_append (ht.resolve_left (by simp))) h

/-- A text that ends with LF has as many lines as LFs. -/
theorem length_lines {t : Text} (ht : t = [] ∨ endsWithNewline t = true) :
    (lines t).length = newlineCount t := by
  induction t using induction_on_lines with
  | last s hs =>
    rcases ht with rfl | ht
    · rfl
    · exact absurd ht (not_endsWithNewline_of_not_mem hs)
  | line s t hs ih =>
    rw [lines_append_newline hs, List.length_cons, newlineCount, List.count_append,
      List.count_cons_self, List.count_eq_zero_of_not_mem hs,
      ih (ended_of_append (ht.resolve_left (by simp))), newlineCount, Nat.zero_add]

/-- **A text that ends with LF is its lines**, joined and ended by LFs, if it has no CR. -/
theorem join_lines_append_newline {t : Text} (hr : '\r' ∉ t) (h : endsWithNewline t = true) :
    join ['\n'] (lines t) ++ ['\n'] = t := by
  induction t using induction_on_lines with
  | last s hs => exact absurd h (not_endsWithNewline_of_not_mem hs)
  | line s t hs ih =>
    have hs' : s.getLast? ≠ some '\r' := fun he =>
      hr (List.mem_append_left _ (List.mem_of_getLast? he))
    rw [lines_append_newline hs, chomp_append_newline hs']
    rcases ended_of_append h with rfl | ht
    · rfl
    · have hne : t ≠ [] := by
        rintro rfl
        cases ht
      rw [join_cons (lines_ne_nil hne), List.append_assoc,
        ih (fun hm => hr (List.mem_append_right _ (List.mem_cons_of_mem _ hm))) ht]
      simp

end Literate.Text
