import Literate.Snippet.Basic

/-!
# Lines that can be pending

`candidates t` are the lines of the text `t` that can be pending at all: those that are not blank,
each where it comes first.  What a new content introduces is the candidates of the new text that are
not lines of the old one (`introduced_eq`), and showing lines leaves the others (`pending_shown`).

Snippets change only when no line is pending, so what is pending after a change is what the change
introduces (`pending_replaced_of_nil`).
-/

namespace Literate.Snippet

/-! ### Lists without their repetitions -/

@[simp] theorem mem_distinct {ls : List Text} {l : Text} : l ∈ distinct ls ↔ l ∈ ls := by
  induction ls with
  | nil => simp [distinct]
  | cons m ls ih =>
    by_cases h : l = m
    · simp [distinct, h]
    · simp [distinct, ih, h]

/-- No line is listed twice. -/
theorem nodup_distinct (ls : List Text) : (distinct ls).Nodup := by
  induction ls with
  | nil => exact List.nodup_nil
  | cons m ls ih =>
    refine List.nodup_cons.mpr ⟨?_, ih.filter _⟩
    simp

theorem distinct_filter (p : Text → Bool) (ls : List Text) :
    distinct (ls.filter p) = (distinct ls).filter p := by
  induction ls with
  | nil => rfl
  | cons m ls ih =>
    rw [List.filter_cons, distinct, List.filter_cons]
    by_cases h : p m = true
    · rw [if_pos h, if_pos h, distinct, ih, List.filter_filter, List.filter_filter]
      simp only [Bool.and_comm]
    · rw [if_neg h, if_neg h, ih, List.filter_filter]
      refine List.filter_congr fun l _ => ?_
      by_cases hl : l = m
      · simp [hl, h]
      · simp [hl]

/-! ### Candidates -/

/-- The lines of a text, blank ones apart: each where it comes first. -/
def candidates (t : Text) : List Text :=
  distinct ((Text.lines t).filter fun l => !Text.isBlank l)

theorem mem_candidates {t l : Text} :
    l ∈ candidates t ↔ l ∈ Text.lines t ∧ Text.isBlank l = false := by
  simp [candidates]

theorem introduced_eq (old new : Text) :
    introduced old new = (candidates new).filter fun l => !(Text.lines old).contains l := by
  rw [introduced, candidates, ← distinct_filter, List.filter_filter]
  simp only [Bool.and_comm]

theorem mem_introduced {old new l : Text} :
    l ∈ introduced old new ↔
      l ∈ Text.lines new ∧ Text.isBlank l = false ∧ l ∉ Text.lines old := by
  rw [introduced_eq, List.mem_filter, mem_candidates]
  simp [and_assoc]

/-! ### Changes -/

@[simp] theorem content_replaced (s : Snippet) (content : Text) :
    (s.replaced content).content = content := rfl

@[simp] theorem language_replaced (s : Snippet) (content : Text) :
    (s.replaced content).language = s.language := rfl

@[simp] theorem content_shown (s : Snippet) (lines : List Text) :
    (s.shown lines).content = s.content := rfl

@[simp] theorem language_shown (s : Snippet) (lines : List Text) :
    (s.shown lines).language = s.language := rfl

@[simp] theorem pending_shown (s : Snippet) (lines : List Text) :
    (s.shown lines).pending = s.pending.filter fun l => !lines.contains l := rfl

theorem pending_replaced_of_nil {s : Snippet} (h : s.pending = []) (content : Text) :
    (s.replaced content).pending = introduced s.content content := by
  simp [replaced, h]

theorem firstUnknown?_eq_none_iff {excerpt content : Text} :
    firstUnknown? excerpt content = none ↔
      ∀ l ∈ Text.lines excerpt, Text.isBlank l = false → l ∈ Text.lines content := by
  rw [firstUnknown?, List.find?_eq_none]
  refine forall_congr' fun l => forall_congr' fun _ => ?_
  cases Text.isBlank l <;> simp

end Literate.Snippet
