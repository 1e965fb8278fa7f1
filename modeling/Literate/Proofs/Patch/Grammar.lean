import Literate.Proofs.Patch.Header
import Mathlib.Data.List.Forall2
import Mathlib.Data.List.ReduceOption

/-!
# The grammar of unified diffs

What a diff is, without regard to how it is read: some lines of a file header, then one or more
hunks, each of them a header and the lines of its body (`IsDiff`).  A line breaks this form if the
lines up to it cannot be continued to a diff, while those before it can (`BreaksAt`).

`parse_spec`: a text is read as the hunks that its lines are, and if they are no diff, the error
names the first line that breaks the form; if there is none, hunks are missing.  The argument
follows the two readers, of an open hunk (`ofBody`) and of the lines before the first one
(`ofLines`): each reads what the grammar says (`exists_of_ofBody`, `ofBody_of_forall₂`, and then
`ofLines_eq_ok_iff`) and stops at a line whatever comes after it (`exists_of_ofBody_error`,
`of_ofLines_error`).
-/

namespace Literate.Hunk

/-! ### The grammar -/

/-- What may follow the number of a range: nothing, or a comma and a number. -/
inductive IsLength : Text → Prop
  | none : IsLength []
  | some {digits : Text} (h : IsNumber digits) : IsLength (',' :: digits)

/-- **The form of a hunk header**, where `digits` are those of the old start. -/
def HeaderForm (digits line : Text) : Prop :=
  ∃ oldLength newStart newLength rest, IsNumber digits ∧ IsLength oldLength ∧ IsNumber newStart ∧
    IsLength newLength ∧
    line = Text.ofString "@@ -" ++ digits ++ oldLength ++ Text.ofString " +" ++ newStart ++
      newLength ++ Text.ofString " @@" ++ rest

/-- The digits are those of the ASCII decimal number `n`, which fits in 64 bits. -/
structure Denotes (digits : Text) (n : Nat) : Prop where
  ascii : ∀ c ∈ digits, c.isDigit = true
  value : Nat.ofDigitChars 10 digits 0 = n
  fits : n < Nat.pow 2 64

/-- The line is the header of a hunk with the given old start. -/
def IsHeader (line : Text) (oldStart : Nat) : Prop :=
  ∃ digits, HeaderForm digits line ∧ Denotes digits oldStart

/-- **The line may stand in the body of a hunk**, and this is what it says. -/
inductive IsBodyLine : Text → Option HunkLine → Prop
  | empty : IsBodyLine [] (some (.context []))
  | context (text : Text) : IsBodyLine (' ' :: text) (some (.context text))
  | removed (text : Text) : IsBodyLine ('-' :: text) (some (.removed text))
  | added (text : Text) : IsBodyLine ('+' :: text) (some (.added text))
  | remark (text : Text) : IsBodyLine ('\\' :: text) none

/-- **The lines of a hunk**: its header, and the lines of its body. -/
def IsHunk (ls : List Text) (hunk : Hunk) : Prop :=
  ∃ header body meanings, ls = header :: body ∧ IsHeader header hunk.oldStart ∧
    List.Forall₂ IsBodyLine body meanings ∧ hunk.lines = meanings.reduceOption

/-- The line may stand before the first hunk. -/
def IsFileLine (line : Text) : Prop :=
  Text.ofString "---" <+: line ∨ Text.ofString "+++" <+: line

/-- **The lines of a diff** with the given hunks. -/
def IsDiff (ls : List Text) (hunks : List Hunk) : Prop :=
  ∃ files groups, ls = files ++ groups.flatten ∧ (∀ line ∈ files, IsFileLine line) ∧
    hunks ≠ [] ∧ List.Forall₂ IsHunk groups hunks

/-- The lines may be the beginning of a diff. -/
def CanGoOn (ls : List Text) : Prop :=
  ∃ rest hunks, IsDiff (ls ++ rest) hunks

/-- **The first line that breaks the form** of a diff, by its number and text. -/
def BreaksAt (ls : List Text) (number : Nat) (line : Text) : Prop :=
  ∃ before after, ls = before ++ line :: after ∧ number = before.length + 1 ∧ CanGoOn before ∧
    ¬ CanGoOn (before ++ [line])

/-! ### Headers -/

section Headers

variable {digits length line : Text} {n : Nat}

/-- A length is passed over, if there is one. -/
theorem exists_of_afterLength (t : Text) :
    ∃ length, IsLength length ∧ t = length ++ afterLength t := by
  unfold afterLength
  split
  · split
    · next hnumber =>
      obtain ⟨rfl, hdigits, -⟩ := number?_eq_some_iff.mp hnumber
      exact ⟨_, .some hdigits, rfl⟩
    · exact ⟨[], .none, rfl⟩
  · exact ⟨[], .none, rfl⟩

/-- A length before a space is passed over. -/
theorem afterLength_append (h : IsLength length) (t : Text) :
    afterLength (length ++ ' ' :: t) = ' ' :: t := by
  cases h with
  | none => rfl
  | @some digits h =>
    have hnumber : number? (digits ++ ' ' :: t) = some (digits, ' ' :: t) := by
      refine number?_eq_some_iff.mpr ⟨rfl, h, ?_⟩
      rintro _ ⟨⟩
      decide
    rw [List.cons_append, afterLength, hnumber]

/-- A length and a space do not begin with a digit. -/
theorem head?_length_append (h : IsLength length) (t : Text) :
    ∀ c ∈ (length ++ ' ' :: t).head?, Unicode.isDecimalNumber c = false := by
  cases h <;> · rintro _ ⟨⟩; decide

theorem start?_eq_some_iff : start? digits = some n ↔ digits ≠ [] ∧ Denotes digits n := by
  have hvalue : digits.foldl (fun n d => 10 * n + (d.toNat - '0'.toNat)) 0 =
      Nat.ofDigitChars 10 digits 0 :=
    (Nat.ofDigitChars_eq_foldl ..).symm
  unfold start?
  simp only [hvalue, show wordBound = Nat.pow 2 64 from rfl]
  constructor
  · intro h
    split_ifs at h with hdigits hfits
    obtain rfl := Option.some.inj h
    exact ⟨hdigits.1, List.all_eq_true.mp hdigits.2, rfl, hfits⟩
  · rintro ⟨hne, hascii, rfl, hfits⟩
    rw [if_pos ⟨hne, List.all_eq_true.mpr hascii⟩, if_pos hfits]

/-- **The old start is read from a header**, and from no other line. -/
theorem headerStart?_eq_some_iff : headerStart? line = some n ↔ IsHeader line n := by
  constructor
  · intro h
    unfold headerStart? at h
    simp only [Option.bind_eq_bind, Option.bind_eq_some_iff] at h
    obtain ⟨rest, hfirst, ⟨digits, rest'⟩, hnumber, afterPlus, hplus, ⟨newStart, rest''⟩, hnew,
      last, hlast, hstart⟩ := h
    obtain ⟨rfl, hdigits, -⟩ := number?_eq_some_iff.mp hnumber
    obtain ⟨rfl, hnewStart, -⟩ := number?_eq_some_iff.mp hnew
    obtain ⟨oldLength, holdLength, hrest'⟩ := exists_of_afterLength rest'
    obtain ⟨newLength, hnewLength, hrest''⟩ := exists_of_afterLength rest''
    rw [Text.after?_eq_some_iff] at hfirst hplus hlast
    refine ⟨digits, ⟨oldLength, newStart, newLength, last, hdigits, holdLength, hnewStart,
      hnewLength, ?_⟩, (start?_eq_some_iff.mp hstart).2⟩
    rw [hfirst, hrest', hplus, hrest'', hlast]
    simp only [List.append_assoc]
  · rintro ⟨digits, ⟨oldLength, newStart, newLength, last, hdigits, holdLength, hnewStart,
      hnewLength, rfl⟩, hdenotes⟩
    have hline : Text.ofString "@@ -" ++ digits ++ oldLength ++ Text.ofString " +" ++ newStart ++
        newLength ++ Text.ofString " @@" ++ last = Text.ofString "@@ -" ++ (digits ++ (oldLength ++
          ' ' :: '+' :: (newStart ++ (newLength ++ ' ' :: '@' :: '@' :: last)))) := by
      simp [Text.ofString]
    have hfirst := fun t => Text.after?_eq_some_iff.mpr (rfl : Text.ofString "@@ -" ++ t = _)
    have hold : ∀ t, number? (digits ++ (oldLength ++ ' ' :: t)) =
        some (digits, oldLength ++ ' ' :: t) := fun t =>
      number?_eq_some_iff.mpr ⟨rfl, hdigits, head?_length_append holdLength t⟩
    have hplus : ∀ t, Text.after? (Text.ofString " +") (' ' :: '+' :: t) = some t := fun t =>
      Text.after?_eq_some_iff.mpr rfl
    have hnew : ∀ t, number? (newStart ++ (newLength ++ ' ' :: t)) =
        some (newStart, newLength ++ ' ' :: t) := fun t =>
      number?_eq_some_iff.mpr ⟨rfl, hnewStart, head?_length_append hnewLength t⟩
    have hlast : ∀ t, Text.after? (Text.ofString " @@") (' ' :: '@' :: '@' :: t) = some t :=
      fun t => Text.after?_eq_some_iff.mpr rfl
    have hstart : start? digits = some n := start?_eq_some_iff.mpr ⟨hdigits.1, hdenotes⟩
    rw [hline, headerStart?, hfirst]
    simp only [Option.bind_eq_bind, Option.bind_some, hold, afterLength_append holdLength, hplus,
      hnew, afterLength_append hnewLength, hlast, hstart]

end Headers

/-! ### Lines -/

section Lines

variable {line : Text} {n : Nat} {meaning : Option HunkLine}

theorem beginsWith_iff {start t : Text} : Text.beginsWith start t = true ↔ start <+: t := by
  rw [Text.beginsWith, Option.isSome_iff_exists]
  constructor
  · rintro ⟨rest, h⟩
    exact ⟨rest, (Text.after?_eq_some_iff.mp h).symm⟩
  · rintro ⟨rest, h⟩
    exact ⟨rest, Text.after?_eq_some_iff.mpr h.symm⟩

theorem isFileHeader_iff : isFileHeader line = true ↔ IsFileLine line := by
  rw [isFileHeader, Bool.or_eq_true, beginsWith_iff, beginsWith_iff]
  rfl

theorem IsHeader.beginsWith (h : IsHeader line n) :
    Text.beginsWith (Text.ofString "@@") line = true := by
  obtain ⟨digits, ⟨oldLength, newStart, newLength, rest, -, -, -, -, rfl⟩, -⟩ := h
  rfl

theorem IsFileLine.beginsWith (h : IsFileLine line) :
    Text.beginsWith (Text.ofString "@@") line = false := by
  rcases h with ⟨rest, rfl⟩ | ⟨rest, rfl⟩ <;> rfl

theorem IsBodyLine.beginsWith (h : IsBodyLine line meaning) :
    Text.beginsWith (Text.ofString "@@") line = false := by
  cases h <;> rfl

/-- A header and a line of a body are told apart. -/
theorem ofText?_eq_header_iff : DiffLine.ofText? line = some (.header n) ↔ IsHeader line n := by
  unfold DiffLine.ofText?
  constructor
  · intro h
    split_ifs at h with hb
    · obtain ⟨start, hstart, hn⟩ := Option.map_eq_some_iff.mp h
      obtain rfl := DiffLine.header.inj hn
      exact headerStart?_eq_some_iff.mp hstart
    · split at h <;> cases h
  · intro h
    rw [if_pos h.beginsWith, headerStart?_eq_some_iff.mpr h]
    rfl

theorem ofText?_eq_body_iff :
    DiffLine.ofText? line = some (meaning.elim .remark .body) ↔ IsBodyLine line meaning := by
  constructor
  · intro h
    unfold DiffLine.ofText? at h
    split_ifs at h with hb
    · obtain ⟨start, -, hn⟩ := Option.map_eq_some_iff.mp h
      cases meaning <;> cases hn
    · split at h <;> cases meaning <;> cases h <;> constructor
  · intro h
    unfold DiffLine.ofText?
    rw [if_neg (by simp [h.beginsWith])]
    cases h <;> rfl

end Lines

/-! ### The lines of an open hunk -/

end Literate.Hunk

namespace Literate.DiffLine

/-- The old start of the hunk that is open after a line. -/
def startAfter (start : Nat) : DiffLine → Nat
  | header next => next
  | _ => start

/-- The open hunk and those after it, with one more line in front. -/
def collect (start : Nat) : DiffLine → Hunk × List Hunk → Hunk × List Hunk
  | header _, (hunk, hunks) => (⟨start, []⟩, hunk :: hunks)
  | body line, (hunk, hunks) => (hunk.addFirst line, hunks)
  | remark, read => read

end Literate.DiffLine

namespace Literate.Hunk

variable {number start : Nat} {ls body : List Text} {line : Text} {d : DiffLine} {hunk : Hunk}
  {hunks : List Hunk} {groups : List (List Text)} {meanings : List (Option HunkLine)}
  {e : PatchError}

theorem ofBody_cons_of_none (h : DiffLine.ofText? line = none) (number start : Nat)
    (rest : List Text) :
    ofBody number start (line :: rest) = .error (.malformed number line) := by
  rw [ofBody, h]

theorem ofBody_cons_of_some (h : DiffLine.ofText? line = some d) (number start : Nat)
    (rest : List Text) :
    ofBody number start (line :: rest) =
      (ofBody (number + 1) (d.startAfter start) rest).map (d.collect start) := by
  rw [ofBody, h]
  cases d with
  | header next =>
    cases hrest : ofBody (number + 1) next rest with
    | error e => simp [hrest, Except.map, DiffLine.startAfter]
    | ok read => simp [hrest, Except.map, DiffLine.startAfter, DiffLine.collect]
  | body line =>
    cases hrest : ofBody (number + 1) start rest with
    | error e => simp [hrest, Except.map, DiffLine.startAfter]
    | ok read => simp [hrest, Except.map, DiffLine.startAfter, DiffLine.collect]
  | remark =>
    cases hrest : ofBody (number + 1) start rest with
    | error e => simp [hrest, Except.map, DiffLine.startAfter]
    | ok read => simp [hrest, Except.map, DiffLine.startAfter, DiffLine.collect]

/-- **What is read of an open hunk**: the lines of its body, and the hunks after it. -/
theorem exists_of_ofBody (h : ofBody number start ls = .ok (hunk, hunks)) :
    ∃ body meanings groups, ls = body ++ groups.flatten ∧ List.Forall₂ IsBodyLine body meanings ∧
      hunk = ⟨start, meanings.reduceOption⟩ ∧ List.Forall₂ IsHunk groups hunks := by
  induction ls generalizing number start hunk hunks with
  | nil =>
    obtain ⟨rfl, rfl⟩ := Prod.mk.inj (Except.ok.inj h)
    exact ⟨[], [], [], rfl, .nil, rfl, .nil⟩
  | cons line rest ih =>
    cases hline : DiffLine.ofText? line with
    | none =>
      rw [ofBody_cons_of_none hline] at h
      cases h
    | some d =>
      rw [ofBody_cons_of_some hline] at h
      cases hrest : ofBody (number + 1) (d.startAfter start) rest with
      | error e =>
        rw [hrest] at h
        cases h
      | ok read =>
        obtain ⟨hunk', hunks'⟩ := read
        rw [hrest] at h
        obtain ⟨body, meanings, groups, rfl, hbody, rfl, hgroups⟩ := ih hrest
        cases d with
        | header next =>
          obtain ⟨rfl, rfl⟩ := Prod.mk.inj (Except.ok.inj h)
          have hheader := ofText?_eq_header_iff.mp hline
          exact ⟨[], [], (line :: body) :: groups, rfl, .nil, rfl,
            .cons ⟨line, body, meanings, rfl, hheader, hbody, rfl⟩ hgroups⟩
        | body l =>
          obtain ⟨rfl, rfl⟩ := Prod.mk.inj (Except.ok.inj h)
          have hmeaning : IsBodyLine line (some l) := ofText?_eq_body_iff.mp hline
          exact ⟨line :: body, some l :: meanings, groups, rfl, .cons hmeaning hbody,
            by rw [List.reduceOption_cons_of_some]; rfl, hgroups⟩
        | remark =>
          obtain ⟨rfl, rfl⟩ := Prod.mk.inj (Except.ok.inj h)
          have hmeaning : IsBodyLine line none := ofText?_eq_body_iff.mp hline
          exact ⟨line :: body, none :: meanings, groups, rfl, .cons hmeaning hbody,
            by rw [List.reduceOption_cons_of_none]; rfl, hgroups⟩

/-- The lines of a body are read into the hunk that is open. -/
theorem ofBody_append (hbody : List.Forall₂ IsBodyLine body meanings) {rest : List Text}
    {later : List HunkLine}
    (hrest : ∀ number, ofBody number start rest = .ok (⟨start, later⟩, hunks)) (number : Nat) :
    ofBody number start (body ++ rest) =
      .ok (⟨start, meanings.reduceOption ++ later⟩, hunks) := by
  induction hbody generalizing number with
  | nil => exact hrest number
  | @cons line meaning body meanings hmeaning _ ih =>
    rw [List.cons_append, ofBody_cons_of_some (ofText?_eq_body_iff.mpr hmeaning)]
    cases meaning with
    | none =>
      rw [List.reduceOption_cons_of_none]
      exact congrArg (Except.map _) (ih (number + 1))
    | some l =>
      rw [List.reduceOption_cons_of_some]
      exact congrArg (Except.map _) (ih (number + 1))

theorem ofBody_flatten (hgroups : List.Forall₂ IsHunk groups hunks) (number start : Nat) :
    ofBody number start groups.flatten = .ok (⟨start, []⟩, hunks) := by
  induction hgroups generalizing number start with
  | nil => rfl
  | @cons group hunk groups hunks hgroup _ ih =>
    obtain ⟨header, body, meanings, rfl, hheader, hbody, hlines⟩ := hgroup
    have hread := ofBody_append hbody (fun number => ih number hunk.oldStart) (number + 1)
    rw [List.append_nil, ← hlines] at hread
    rw [List.flatten_cons, List.cons_append,
      ofBody_cons_of_some (ofText?_eq_header_iff.mpr hheader)]
    exact congrArg (Except.map _) hread

/-- **An open hunk is read with the hunks after it.** -/
theorem ofBody_of_forall₂ (hbody : List.Forall₂ IsBodyLine body meanings)
    (hgroups : List.Forall₂ IsHunk groups hunks) (number start : Nat) :
    ofBody number start (body ++ groups.flatten) = .ok (⟨start, meanings.reduceOption⟩, hunks) := by
  have hread := ofBody_append hbody (fun number => ofBody_flatten hgroups number start) number
  rwa [List.append_nil] at hread

/-- **An open hunk is read up to the line that is refused**, whatever comes after it. -/
theorem exists_of_ofBody_error (h : ofBody number start ls = .error e) :
    ∃ before line after, ls = before ++ line :: after ∧
      e = .malformed (number + before.length) line ∧
      (∃ read, ofBody number start before = .ok read) ∧
      ∀ rest, ofBody number start (before ++ line :: rest) = .error e := by
  induction ls generalizing number start with
  | nil => cases h
  | cons line rest ih =>
    cases hline : DiffLine.ofText? line with
    | none =>
      rw [ofBody_cons_of_none hline] at h
      obtain rfl := Except.error.inj h
      exact ⟨[], line, rest, rfl, rfl, ⟨_, rfl⟩, ofBody_cons_of_none hline number start⟩
    | some d =>
      rw [ofBody_cons_of_some hline] at h
      cases hrest : ofBody (number + 1) (d.startAfter start) rest with
      | ok read =>
        rw [hrest] at h
        cases h
      | error e' =>
        rw [hrest] at h
        obtain rfl := Except.error.inj h
        obtain ⟨before, refused, after, rfl, he, ⟨read, hread⟩, hall⟩ := ih hrest
        refine ⟨line :: before, refused, after, rfl, ?_, ⟨d.collect start read, ?_⟩, fun rest => ?_⟩
        · rw [he, List.length_cons]
          congr 1
          omega
        · rw [ofBody_cons_of_some hline, hread]
          rfl
        · rw [List.cons_append, ofBody_cons_of_some hline, hall rest]
          rfl

/-! ### The lines of a diff -/

theorem ofLines_cons_of_isFileLine (h : IsFileLine line) (number : Nat) (rest : List Text) :
    ofLines number (line :: rest) = ofLines (number + 1) rest := by
  rw [ofLines, if_neg (by simp [h.beginsWith]), if_pos (isFileHeader_iff.mpr h)]

theorem ofLines_cons_of_isHeader (h : IsHeader line start) (number : Nat) (rest : List Text) :
    ofLines number (line :: rest) =
      (ofBody (number + 1) start rest).map fun read => read.1 :: read.2 := by
  rw [ofLines, if_pos h.beginsWith, headerStart?_eq_some_iff.mpr h]
  cases hrest : ofBody (number + 1) start rest <;> simp [hrest, Except.map]

theorem ofLines_cons_of_not (hfile : ¬ IsFileLine line) (hheader : ∀ start, ¬ IsHeader line start)
    (number : Nat) (rest : List Text) :
    ofLines number (line :: rest) = .error (.malformed number line) := by
  have hnone : headerStart? line = none :=
    Option.eq_none_iff_forall_ne_some.mpr fun start hstart =>
      hheader start (headerStart?_eq_some_iff.mp hstart)
  rw [ofLines, hnone, if_neg (mt isFileHeader_iff.mp hfile)]
  simp

/-- **A line before the first hunk**: one of the file header, the header of the first hunk, or one
that has no place there. -/
theorem line_cases (line : Text) : IsFileLine line ∨ (∃ start, IsHeader line start) ∨
    ¬ IsFileLine line ∧ ∀ start, ¬ IsHeader line start := by
  by_cases hfile : IsFileLine line
  · exact Or.inl hfile
  · by_cases hheader : ∃ start, IsHeader line start
    · exact Or.inr (Or.inl hheader)
    · exact Or.inr (Or.inr ⟨hfile, not_exists.mp hheader⟩)

/-- **The lines of a diff are read as its hunks**, and no other lines are read. -/
theorem ofLines_eq_ok_iff : ofLines number ls = .ok hunks ↔ IsDiff ls hunks := by
  constructor
  · intro h
    induction ls generalizing number with
    | nil => cases h
    | cons line rest ih =>
      rcases line_cases line with hfile | ⟨start, hheader⟩ | ⟨hfile, hheader⟩
      · rw [ofLines_cons_of_isFileLine hfile] at h
        obtain ⟨files, groups, rfl, hfiles, hne, hgroups⟩ := ih h
        exact ⟨line :: files, groups, rfl, List.forall_mem_cons.mpr ⟨hfile, hfiles⟩, hne, hgroups⟩
      · rw [ofLines_cons_of_isHeader hheader] at h
        cases hread : ofBody (number + 1) start rest with
        | error e =>
          rw [hread] at h
          cases h
        | ok read =>
          obtain ⟨hunk, hunks'⟩ := read
          rw [hread] at h
          obtain rfl := Except.ok.inj h
          obtain ⟨body, meanings, groups, rfl, hbody, rfl, hgroups⟩ := exists_of_ofBody hread
          exact ⟨[], (line :: body) :: groups, rfl, List.forall_mem_nil _, List.cons_ne_nil _ _,
            .cons ⟨line, body, meanings, rfl, hheader, hbody, rfl⟩ hgroups⟩
      · rw [ofLines_cons_of_not hfile hheader] at h
        cases h
  · rintro ⟨files, groups, rfl, hfiles, hne, hgroups⟩
    induction files generalizing number with
    | nil =>
      cases hgroups with
      | nil => exact absurd rfl hne
      | cons hgroup hgroups =>
        obtain ⟨header, body, meanings, rfl, hheader, hbody, hlines⟩ := hgroup
        rw [List.nil_append, List.flatten_cons, List.cons_append, ofLines_cons_of_isHeader hheader,
          ofBody_of_forall₂ hbody hgroups, ← hlines]
        rfl
    | cons file files ih =>
      obtain ⟨hfile, hfiles⟩ := List.forall_mem_cons.mp hfiles
      rw [List.cons_append, ofLines_cons_of_isFileLine hfile]
      exact ih hfiles

/-! ### Where lines can go on to a diff -/

theorem CanGoOn.of_append {rest : List Text} (h : CanGoOn (ls ++ rest)) : CanGoOn ls := by
  obtain ⟨last, hunks, hdiff⟩ := h
  rw [List.append_assoc] at hdiff
  exact ⟨rest ++ last, hunks, hdiff⟩

theorem CanGoOn.cons (hfile : IsFileLine line) (h : CanGoOn ls) : CanGoOn (line :: ls) := by
  obtain ⟨rest, hunks, files, groups, hls, hfiles, hne, hgroups⟩ := h
  refine ⟨rest, hunks, line :: files, groups, ?_, List.forall_mem_cons.mpr ⟨hfile, hfiles⟩, hne,
    hgroups⟩
  rw [List.cons_append, hls, List.cons_append]

theorem canGoOn_of_ofLines (h : ofLines number ls = .ok hunks) : CanGoOn ls :=
  ⟨[], hunks, by rw [List.append_nil]; exact ofLines_eq_ok_iff.mp h⟩

/-- A diff can begin with any lines of a file header. -/
theorem canGoOn_of_isFileLine (h : ∀ line ∈ ls, IsFileLine line) : CanGoOn ls := by
  have hheader : headerStart? (Text.ofString "@@ -1 +1 @@") = some 1 := by decide
  exact ⟨[Text.ofString "@@ -1 +1 @@"], [⟨1, []⟩], ls, [[Text.ofString "@@ -1 +1 @@"]], rfl, h,
    List.cons_ne_nil _ _,
    .cons ⟨_, [], [], rfl, headerStart?_eq_some_iff.mp hheader, .nil, rfl⟩ .nil⟩

/-- **Lines that are refused**: they are those of a file header, with no hunk after it, or they are
read up to a line that is refused whatever comes after it. -/
theorem of_ofLines_error (h : ofLines number ls = .error e) :
    (e = .noHunks ∧ ∀ line ∈ ls, IsFileLine line) ∨
      ∃ before line after, ls = before ++ line :: after ∧
        e = .malformed (number + before.length) line ∧ CanGoOn before ∧
        ∀ rest, ofLines number (before ++ line :: rest) = .error e := by
  induction ls generalizing number with
  | nil => exact Or.inl ⟨(Except.error.inj h).symm, List.forall_mem_nil _⟩
  | cons line rest ih =>
    rcases line_cases line with hfile | ⟨start, hheader⟩ | ⟨hfile, hheader⟩
    · rw [ofLines_cons_of_isFileLine hfile] at h
      rcases ih h with ⟨rfl, hfiles⟩ | ⟨before, refused, after, rfl, he, hbefore, hall⟩
      · exact Or.inl ⟨rfl, List.forall_mem_cons.mpr ⟨hfile, hfiles⟩⟩
      · refine Or.inr ⟨line :: before, refused, after, rfl, ?_, hbefore.cons hfile, fun rest => ?_⟩
        · rw [he, List.length_cons]
          congr 1
          omega
        · rw [List.cons_append, ofLines_cons_of_isFileLine hfile, hall rest]
    · rw [ofLines_cons_of_isHeader hheader] at h
      cases hread : ofBody (number + 1) start rest with
      | ok read =>
        rw [hread] at h
        cases h
      | error e' =>
        rw [hread] at h
        obtain rfl := Except.error.inj h
        obtain ⟨before, refused, after, rfl, he, ⟨read, hread'⟩, hall⟩ :=
          exists_of_ofBody_error hread
        have hbefore : ofLines number (line :: before) = .ok (read.1 :: read.2) := by
          rw [ofLines_cons_of_isHeader hheader, hread']
          rfl
        refine Or.inr ⟨line :: before, refused, after, rfl, ?_, canGoOn_of_ofLines hbefore,
          fun rest => ?_⟩
        · rw [he, List.length_cons]
          congr 1
          omega
        · rw [List.cons_append, ofLines_cons_of_isHeader hheader, hall rest]
          rfl
    · rw [ofLines_cons_of_not hfile hheader] at h
      obtain rfl := Except.error.inj h
      exact Or.inr ⟨[], line, rest, rfl, rfl, canGoOn_of_isFileLine (List.forall_mem_nil _),
        ofLines_cons_of_not hfile hheader number⟩

/-! ### Reading a diff -/

variable {patch : Text} {number' : Nat} {line' : Text}

/-- There is one first line that breaks the form. -/
theorem BreaksAt.unique (h : BreaksAt ls number line) (h' : BreaksAt ls number' line') :
    number = number' ∧ line = line' := by
  obtain ⟨before, after, rfl, rfl, hbefore, hnot⟩ := h
  obtain ⟨before', after', hls, rfl, hbefore', hnot'⟩ := h'
  rcases List.append_eq_append_iff.mp hls with ⟨more, rfl, hmore⟩ | ⟨more, rfl, hmore⟩
  · cases more with
    | nil =>
      obtain ⟨rfl, -⟩ := List.cons.inj hmore
      exact ⟨by rw [List.append_nil], rfl⟩
    | cons first more =>
      obtain ⟨rfl, -⟩ := List.cons.inj hmore
      rw [List.append_cons] at hbefore'
      exact absurd hbefore'.of_append hnot
  · cases more with
    | nil =>
      obtain ⟨rfl, -⟩ := List.cons.inj hmore
      exact ⟨by rw [List.append_nil], rfl⟩
    | cons first more =>
      obtain ⟨rfl, -⟩ := List.cons.inj hmore
      rw [List.append_cons] at hbefore
      exact absurd hbefore.of_append hnot'

/-- A diff that breaks its form nowhere can go on. -/
theorem not_breaksAt_of_canGoOn (h : CanGoOn ls) : ¬ BreaksAt ls number line := by
  rintro ⟨before, after, rfl, -, -, hnot⟩
  rw [List.append_cons] at h
  exact hnot h.of_append

/-- **What an error says.** -/
theorem of_parse_error (h : parse patch = .error e) :
    (e = .noHunks ∧ CanGoOn (Text.lines patch)) ∨
      ∃ number line, e = .malformed number line ∧ BreaksAt (Text.lines patch) number line := by
  rcases of_ofLines_error h with ⟨rfl, hfiles⟩ | ⟨before, line, after, hls, rfl, hbefore, hall⟩
  · exact Or.inl ⟨rfl, canGoOn_of_isFileLine hfiles⟩
  · refine Or.inr ⟨_, line, rfl, before, after, hls, Nat.add_comm 1 _, hbefore, ?_⟩
    rintro ⟨rest, hunks, hdiff⟩
    have hread : ofLines 1 ((before ++ [line]) ++ rest) = .ok hunks := ofLines_eq_ok_iff.mpr hdiff
    rw [List.append_assoc, List.singleton_append, hall] at hread
    cases hread

/-- **A diff is read as its grammar says.**  If the lines of the text are a diff, its hunks are
read.  If some line breaks the form of a diff, the error names the first one that does, by its
number and its text.  If the lines are no diff, although none of them breaks its form, hunks are
missing. -/
theorem parse_spec (patch : Text) :
    (∀ hunks, parse patch = .ok hunks ↔ IsDiff (Text.lines patch) hunks) ∧
    (∀ number line, parse patch = .error (.malformed number line) ↔
      BreaksAt (Text.lines patch) number line) ∧
    (parse patch = .error .noHunks ↔ (∀ hunks, ¬ IsDiff (Text.lines patch) hunks) ∧
      ∀ number line, ¬ BreaksAt (Text.lines patch) number line) ∧
    ∀ hunk oldStart expected, parse patch ≠ .error (.mismatch hunk oldStart expected) := by
  have hok : ∀ hunks, parse patch = .ok hunks ↔ IsDiff (Text.lines patch) hunks := fun _ =>
    ofLines_eq_ok_iff
  have hgoOn : ∀ hunks, IsDiff (Text.lines patch) hunks → CanGoOn (Text.lines patch) :=
    fun hunks h => canGoOn_of_ofLines ((hok hunks).mpr h)
  refine ⟨hok, fun number line => ⟨fun h => ?_, fun h => ?_⟩, ⟨fun h => ?_, fun h => ?_⟩, ?_⟩
  · rcases of_parse_error h with ⟨hnone, -⟩ | ⟨number', line', he, hbreaks⟩
    · cases hnone
    · obtain ⟨rfl, rfl⟩ := PatchError.malformed.inj he
      exact hbreaks
  · cases hparse : parse patch with
    | ok hunks => exact absurd h (not_breaksAt_of_canGoOn (hgoOn hunks ((hok hunks).mp hparse)))
    | error e =>
      rcases of_parse_error hparse with ⟨-, hgo⟩ | ⟨number', line', rfl, hbreaks⟩
      · exact absurd h (not_breaksAt_of_canGoOn hgo)
      · obtain ⟨rfl, rfl⟩ := h.unique hbreaks
        rfl
  · rcases of_parse_error h with ⟨-, hgo⟩ | ⟨number', line', he, -⟩
    · refine ⟨fun hunks hdiff => ?_, fun number line => not_breaksAt_of_canGoOn hgo⟩
      rw [← hok, h] at hdiff
      cases hdiff
    · cases he
  · obtain ⟨hnot, hbreaks⟩ := h
    cases hparse : parse patch with
    | ok hunks => exact absurd ((hok hunks).mp hparse) (hnot hunks)
    | error e =>
      rcases of_parse_error hparse with ⟨rfl, -⟩ | ⟨number', line', rfl, hat⟩
      · rfl
      · exact absurd hat (hbreaks number' line')
  · intro hunk oldStart expected h
    rcases of_parse_error h with ⟨he, -⟩ | ⟨number', line', he, -⟩ <;> cases he

/-- A removed line that looks like a file header, and a remark, which says nothing. -/
example :
    parse (Text.ofString "+++ b\n@@ -3,2 +4 @@ x\n a\n--- b\n\\ no end\n@@ -9 +9,0 @@\n-c\n") =
      .ok [⟨3, [.context ['a'], .removed (Text.ofString "-- b")]⟩, ⟨9, [.removed ['c']]⟩] := by
  decide +kernel

/-- Behind a space a hunk header is a line of context.  The line that follows it has no place. -/
example :
    parse (Text.ofString "--- a\n@@ -1 +1 @@\n+b\n @@ -2 +2 @@\nc\n\nd\n") =
      .error (.malformed 5 ['c']) := by
  decide +kernel

end Literate.Hunk
