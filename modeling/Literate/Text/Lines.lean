import Literate.Text.Basic

/-!
# Lines of a text

Three rules cut a text into lines, and they are not interchangeable:

- `cutLines` cuts after every LF and keeps it, so the lines put together are the text;
- `lines` gives the contents of those lines: without the LF, and without one CR right before it. A
  CR elsewhere, also at the end of a last line without LF, is content;
- `cutTerminated` cuts after CR LF, after LF and after a lone CR, and keeps what ended the line.

`pieces` is what lies between the LFs, one more piece than there are LFs.
-/

namespace Literate.Text

/-! ### Lines that keep their LF -/

/-- The lines of a text, each with the LF that ends it. The last line may lack one. -/
def cutLines : Text → List Text
  | [] => []
  | c :: t =>
    if c = '\n' then
      ['\n'] :: cutLines t
    else
      match cutLines t with
      | [] => [[c]]
      | line :: rest => (c :: line) :: rest

/-- Cutting a text into lines loses nothing. -/
theorem flatten_cutLines (t : Text) : (cutLines t).flatten = t := by
  induction t with
  | nil => rfl
  | cons c t ih =>
    by_cases h : c = '\n'
    · simp [cutLines, h, ih]
    · cases hl : cutLines t with
      | nil =>
        have : t = [] := by rw [← ih, hl]; rfl
        simp [cutLines, h, this]
      | cons line rest =>
        rw [hl] at ih
        simp only [cutLines, h, if_false, hl, List.flatten_cons, List.cons_append]
        rw [← ih, List.flatten_cons]

/-- No line is empty. -/
theorem ne_nil_of_mem_cutLines {t line : Text} (h : line ∈ cutLines t) : line ≠ [] := by
  induction t generalizing line with
  | nil => simp [cutLines] at h
  | cons c t ih =>
    by_cases hc : c = '\n'
    · rw [cutLines, if_pos hc, List.mem_cons] at h
      rcases h with rfl | h
      · simp
      · exact ih h
    · rw [cutLines, if_neg hc] at h
      cases hl : cutLines t with
      | nil => simp [hl] at h; simp [h]
      | cons first rest =>
        rw [hl] at h ih
        simp only [List.mem_cons] at h
        rcases h with rfl | h
        · simp
        · exact ih (List.mem_cons_of_mem _ h)

/-! ### Contents of lines -/

/-- A line without its terminator: an LF, or an LF and the CR right before it. -/
def chomp (line : Text) : Text :=
  match line.reverse with
  | '\n' :: '\r' :: rest => rest.reverse
  | '\n' :: rest => rest.reverse
  | _ => line

/-- The contents of the lines of a text. -/
def lines (t : Text) : List Text :=
  (cutLines t).map chomp

@[simp] theorem lines_nil : lines [] = [] := rfl

/-! ### Pieces between LFs -/

/-- What lies between the LFs of a text; an empty text is one empty piece. -/
def pieces : Text → List Text
  | [] => [[]]
  | c :: t =>
    if c = '\n' then
      [] :: pieces t
    else
      match pieces t with
      | [] => [[c]]
      | piece :: rest => (c :: piece) :: rest

theorem pieces_ne_nil (t : Text) : pieces t ≠ [] := by
  cases t with
  | nil => simp [pieces]
  | cons c t =>
    by_cases h : c = '\n'
    · simp [pieces, h]
    · rw [pieces, if_neg h]
      split <;> simp

/-- The pieces of a text, joined by LFs, are the text. -/
theorem join_pieces (t : Text) : join ['\n'] (pieces t) = t := by
  induction t with
  | nil => rfl
  | cons c t ih =>
    by_cases h : c = '\n'
    · rw [pieces, if_pos h]
      cases hp : pieces t with
      | nil => exact absurd hp (pieces_ne_nil t)
      | cons piece rest =>
        rw [hp] at ih
        simp [ih, h]
    · rw [pieces, if_neg h]
      cases hp : pieces t with
      | nil => exact absurd hp (pieces_ne_nil t)
      | cons piece rest =>
        rw [hp] at ih
        cases rest with
        | nil => simpa using ih
        | cons next rest =>
          simp only [join_cons_cons, List.cons_append] at ih ⊢
          rw [ih]

/-! ### Lines ended by CR LF, LF or a lone CR -/

/-- The lines of a text, each with the CR LF, the LF or the lone CR that ends it. -/
def cutTerminated : Text → List Text
  | [] => []
  | '\r' :: '\n' :: t => ['\r', '\n'] :: cutTerminated t
  | c :: t =>
    if isLineEnd c then
      [c] :: cutTerminated t
    else
      match cutTerminated t with
      | [] => [[c]]
      | line :: rest => (c :: line) :: rest

/-- Whether the last character ends a line. -/
def isTerminated (t : Text) : Bool :=
  match t.getLast? with
  | some c => isLineEnd c
  | none => false

/-- Whether the last character is an LF. -/
def endsWithNewline (t : Text) : Bool :=
  t.getLast? = some '\n'

/-- The number of LFs in a text. -/
def newlineCount (t : Text) : Nat :=
  t.count '\n'

end Literate.Text
