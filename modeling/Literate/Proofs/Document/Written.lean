import Literate.Document.Markup
import Literate.Proofs.Document.Locality

/-!
# Written blocks are read back

A block is written as its marker line, a line for each option and, if it has content, an empty line
and the lines of the content (`blockMarkup_eq`).  `nodes_written` says what becomes of these lines
in a document: a block with the same words, the same options and the content that a block can carry.
`Text.carried` is that content: blank lines at its beginning and at its end are lost, a blank line
in between is an LF alone, and the last line is ended by an LF.
-/

namespace Literate

namespace Text

/-! ### Words -/

/-- A text that stands as one word among others. -/
def IsWord (w : Text) : Prop :=
  w ≠ [] ∧ ∀ c ∈ w, Unicode.isWhiteSpace c = false

instance (w : Text) : Decidable w.IsWord :=
  decidable_of_iff (w ≠ [] ∧ (w.all fun c => !Unicode.isWhiteSpace c) = true) (by simp [IsWord])

theorem words_space {c : Char} (hc : Unicode.isWhiteSpace c = true) (t : Text) :
    words (c :: t) = words t := by
  rw [words, if_pos hc]

/-- A word is cut from what follows it behind white space. -/
theorem words_append {w : Text} (hw : w.IsWord) {c : Char} (hc : Unicode.isWhiteSpace c = true)
    (t : Text) : words (w ++ c :: t) = w :: words t := by
  obtain ⟨hne, hall⟩ := hw
  induction w with
  | nil => exact absurd rfl hne
  | cons a w ih =>
    obtain ⟨ha, hw⟩ := List.forall_mem_cons.mp hall
    rw [List.cons_append, words, if_neg (by simp [ha])]
    cases w with
    | nil => simp [hc, words_space hc]
    | cons b w =>
      obtain ⟨hb, -⟩ := List.forall_mem_cons.mp hw
      rw [if_neg (by simp [hb]), ih (List.cons_ne_nil b w) hw]

/-- The words of a text are words. -/
theorem isWord_of_mem_words {t w : Text} (h : w ∈ words t) : w.IsWord := by
  induction t generalizing w with
  | nil => cases h
  | cons c t ih =>
    rw [words] at h
    split at h
    · exact ih h
    · next hc =>
      have hc' : Unicode.isWhiteSpace c = false := by simpa using hc
      split at h
      · rcases List.mem_cons.mp h with rfl | h
        · exact ⟨List.cons_ne_nil c [], by simpa using hc'⟩
        · exact ih h
      · split at h
        · rw [List.mem_singleton] at h
          rw [h]
          exact ⟨List.cons_ne_nil c [], by simpa using hc'⟩
        · next word rest hwords =>
          rw [hwords] at ih
          rcases List.mem_cons.mp h with rfl | h
          · refine ⟨List.cons_ne_nil c word, List.forall_mem_cons.mpr ⟨hc', ?_⟩⟩
            exact (ih List.mem_cons_self).2
          · exact ih (List.mem_cons_of_mem word h)

theorem IsWord.newline_not_mem {w : Text} (h : w.IsWord) : '\n' ∉ w := fun hm =>
  absurd (h.2 '\n' hm) (by decide)

theorem endsWithNewline_append_newline (s : Text) : endsWithNewline (s ++ ['\n']) = true :=
  endsWithNewline_append (List.cons_ne_nil _ _) s

/-! ### What a block carries -/

/-- A line of content as a block carries it. -/
def carriedLine (line : Text) : Text :=
  if isBlank line then ['\n'] else if endsWithNewline line then line else line ++ ['\n']

theorem isBlank_append_newline (s : Text) : isBlank (s ++ ['\n']) = isBlank s := by
  rw [isBlank_append, show isBlank ['\n'] = true by decide, Bool.and_true]

theorem isBlank_of_line {line s : Text} (h : line = s ∨ line = s ++ ['\n']) :
    isBlank line = isBlank s := by
  rcases h with rfl | rfl
  · rfl
  · exact isBlank_append_newline s

/-- A line is carried with an LF, whether it had one or not. -/
theorem carriedLine_eq {line s : Text} (hs : '\n' ∉ s) (h : line = s ∨ line = s ++ ['\n']) :
    carriedLine line = if isBlank s then ['\n'] else s ++ ['\n'] := by
  rw [carriedLine, isBlank_of_line h]
  rcases h with rfl | rfl
  · rw [if_neg (not_endsWithNewline_of_not_mem hs)]
  · rw [if_pos (endsWithNewline_append_newline s)]

/-- **The content that a block carries** when a content is written and read back. -/
def carried (content : Text) : Text :=
  ((((cutLines content).rdropWhile isBlank).dropWhile isBlank).map carriedLine).flatten

end Text

namespace Convention

/-! ### The marker line -/

/-- The first line of a block. -/
def markerLine (keyword name : Text) : Text :=
  marker ++ [' '] ++ keyword ++ [' '] ++ name ++ ['\n']

/-- **The marker line is read back.** -/
theorem arguments?_markerLine {keyword name : Text} (hk : keyword.IsWord) (hn : name.IsWord) :
    arguments? (markerLine keyword name) = some [keyword, name] := by
  have hline : markerLine keyword name =
      marker ++ (' ' :: (keyword ++ ' ' :: (name ++ ['\n']))) := by
    simp [markerLine]
  rw [arguments?, Text.after?_eq_some_iff.mpr hline, Option.map_some,
    Text.words_space (by decide), Text.words_append hk (by decide),
    Text.words_append hn (by decide)]
  rfl

theorem isEnded_markerLine {keyword name : Text} (hk : keyword.IsWord) (hn : name.IsWord) :
    (markerLine keyword name).IsEnded := by
  refine ⟨marker ++ [' '] ++ keyword ++ [' '] ++ name, ?_, rfl⟩
  simp only [List.mem_append, not_or]
  exact ⟨⟨⟨⟨by decide, by decide⟩, hk.newline_not_mem⟩, by decide⟩, hn.newline_not_mem⟩

/-! ### Option lines -/

/-- The key and the value can stand on an option line. -/
structure IsOption (key value : Text) : Prop where
  ne_nil : key ≠ []
  isKeyChar : ∀ c ∈ key, Convention.isKeyChar c = true
  trim : Text.trim value = value
  newline : '\n' ∉ value

theorem not_isWhiteSpace_of_trim {t : Text} (h : Text.trim t = t) {c : Char}
    (hc : t.getLast? = some c) : Unicode.isWhiteSpace c = false := by
  have hend : t = (Text.trimStart t).rdropWhile Unicode.isWhiteSpace := h.symm
  have hne : t ≠ [] := by
    rintro rfl
    cases hc
  rw [List.getLast?_eq_some_getLast hne] at hc
  have hlast := List.rdropWhile_last_not Unicode.isWhiteSpace (Text.trimStart t) (hend ▸ hne)
  simp only [← hend, Option.some.inj hc] at hlast
  simpa using hlast

theorem isLineEnd_eq_false {c : Char} (h : Unicode.isWhiteSpace c = false) :
    Text.isLineEnd c = false := by
  rw [Text.isLineEnd, Bool.or_eq_false_iff, decide_eq_false_iff_not, decide_eq_false_iff_not]
  constructor
  · rintro rfl
    exact absurd h (by decide)
  · rintro rfl
    exact absurd h (by decide)

theorem dropLineEnd_append_newline {s : Text} (h : ∀ c ∈ s.getLast?, Text.isLineEnd c = false) :
    Text.dropLineEnd (s ++ ['\n']) = s := by
  show (s ++ ['\n']).rdropWhile Text.isLineEnd = s
  rw [List.rdropWhile_concat_pos _ _ _ (by decide), List.rdropWhile_eq_self_iff]
  intro hne
  simpa using h _ (List.getLast?_eq_some_getLast hne)

/-- An option line without its indentation. -/
theorem optionMarkup_eq (key value : Text) :
    optionMarkup key value = indent ++ (':' :: (key ++ ':' :: ' ' :: value) ++ ['\n']) := by
  simp [optionMarkup, Text.ofString]

theorem isBlank_optionMarkup (key value : Text) :
    Text.isBlank (optionMarkup key value) = false := by
  rw [optionMarkup_eq, Text.isBlank_append, Text.isBlank_append,
    show Text.isBlank (':' :: (key ++ ':' :: ' ' :: value)) = false from rfl, Bool.false_and,
    Bool.and_false]

theorem isIndented_indent_append (t : Text) : isIndented (indent ++ t) = true := by
  rw [isIndented, Text.beginsWith, Text.after?_eq_some_iff.mpr rfl]
  rfl

theorem unindent_indent_append {t : Text} (h : Text.isBlank (indent ++ t) = false) :
    unindent (indent ++ t) = t := by
  rw [unindent, if_neg (by simp [h]), Text.after?_eq_some_iff.mpr rfl]
  rfl

/-- **An option line is read back.** -/
theorem option?_optionMarkup {key value : Text} (h : IsOption key value) :
    option? (unindent (optionMarkup key value)) = some (key, value) := by
  have hblank := isBlank_optionMarkup key value
  rw [optionMarkup_eq] at hblank ⊢
  rw [unindent_indent_append hblank, option?, dropLineEnd_append_newline]
  · have htake : (key ++ ':' :: ' ' :: value).takeWhile Convention.isKeyChar = key := by
      rw [List.takeWhile_append_of_pos h.isKeyChar, List.takeWhile_cons_of_neg (by decide),
        List.append_nil]
    have hdrop : (key ++ ':' :: ' ' :: value).dropWhile Convention.isKeyChar =
        ':' :: ' ' :: value := by
      rw [List.dropWhile_append_of_pos h.isKeyChar, List.dropWhile_cons_of_neg (by decide)]
    obtain ⟨c, rest, hkey⟩ := List.exists_cons_of_ne_nil h.ne_nil
    simp only [htake, hdrop]
    simp only [hkey]
    simp [isGap, h.newline, h.trim]
  · intro c hc
    have hlast : (':' :: (key ++ ':' :: ' ' :: value)).getLast? = (' ' :: value).getLast? := by
      rw [show ':' :: (key ++ ':' :: ' ' :: value) =
          (':' :: (key ++ [':'])) ++ ' ' :: value by simp,
        List.getLast?_append, List.getLast?_cons, Option.some_or]
    rw [hlast] at hc
    cases hv : value.getLast? with
    | none =>
      rw [List.getLast?_eq_none_iff.mp hv] at hc
      obtain rfl := Option.some.inj hc
      decide
    | some d =>
      rw [List.getLast?_cons, hv] at hc
      obtain rfl := Option.some.inj hc
      exact isLineEnd_eq_false (not_isWhiteSpace_of_trim h.trim hv)

theorem isEnded_optionMarkup {key value : Text} (h : IsOption key value) :
    (optionMarkup key value).IsEnded := by
  refine ⟨indent ++ ':' :: (key ++ ':' :: ' ' :: value), ?_, ?_⟩
  · have hkey : '\n' ∉ key := fun hm => absurd (h.isKeyChar '\n' hm) (by decide)
    have hindent : '\n' ∉ indent := by decide
    simp [hkey, hindent, h.newline]
  · rw [optionMarkup_eq, List.append_assoc]

/-! ### Lines of content -/

/-- A line of content as it is written, ended by an LF. -/
def writtenLine (line : Text) : Text :=
  if Text.isBlank line then ['\n'] else indent ++ Text.carriedLine line

/-- The lines of the content of a block as they are written. -/
def writtenLines (content : Text) : List Text :=
  if content = [] then [] else ['\n'] :: (Text.cutLines content).map writtenLine

theorem isBlank_carriedLine (line : Text) :
    Text.isBlank (Text.carriedLine line) = Text.isBlank line := by
  unfold Text.carriedLine
  split
  · next h =>
    rw [h]
    decide
  · split
    · rfl
    · exact Text.isBlank_append_newline line

theorem isBlank_writtenLine (line : Text) :
    Text.isBlank (writtenLine line) = Text.isBlank line := by
  unfold writtenLine
  split
  · next h =>
    rw [h]
    decide
  · rw [Text.isBlank_append, show Text.isBlank indent = true by decide, Bool.true_and,
      isBlank_carriedLine]

theorem unindent_writtenLine (line : Text) :
    unindent (writtenLine line) = Text.carriedLine line := by
  by_cases h : Text.isBlank line = true
  · rw [writtenLine, if_pos h, Text.carriedLine, if_pos h]
    decide
  · have hblank := isBlank_writtenLine line
    rw [writtenLine, if_neg h] at hblank ⊢
    exact unindent_indent_append (hblank.trans (Bool.eq_false_iff.mpr h))

theorem isEnded_writtenLine {t line : Text} (h : line ∈ Text.cutLines t) :
    (writtenLine line).IsEnded := by
  obtain ⟨s, hs, hline⟩ := Text.exists_of_mem_cutLines h
  rw [writtenLine, Text.carriedLine_eq hs hline, Text.isBlank_of_line hline]
  split
  · exact ⟨[], List.not_mem_nil, rfl⟩
  · refine ⟨indent ++ s, ?_, (List.append_assoc ..).symm⟩
    rw [List.mem_append, not_or]
    exact ⟨by decide, hs⟩

theorem isEnded_of_mem_writtenLines {content line : Text} (h : line ∈ writtenLines content) :
    line.IsEnded := by
  unfold writtenLines at h
  split at h
  · cases h
  · rcases List.mem_cons.mp h with rfl | h
    · exact ⟨[], List.not_mem_nil, rfl⟩
    · obtain ⟨l, hl, rfl⟩ := List.mem_map.mp h
      exact isEnded_writtenLine hl

/-- A line with its LF is written as it is put into the markup. -/
theorem contentLine_of_endsWithNewline {line : Text} (h : Text.endsWithNewline line = true) :
    contentLine line = writtenLine line := by
  rw [contentLine, writtenLine, Text.carriedLine, if_pos h]
  split <;> rfl

theorem body_ne_nil {t : Text} (h : t ≠ []) :
    ((Text.cutLines t).map contentLine).flatten ≠ [] := by
  obtain ⟨line, rest, hlines⟩ : ∃ line rest, Text.cutLines t = line :: rest :=
    List.exists_cons_of_ne_nil fun he => h (by rw [← Text.flatten_cutLines t, he]; rfl)
  rw [hlines, List.map_cons, List.flatten_cons, contentLine]
  split
  · simp
  · simp [indent, Text.ofString]

/-- **The written content is its written lines.** -/
theorem contentMarkup_eq (content : Text) :
    contentMarkup content = (writtenLines content).flatten := by
  by_cases hc : content = []
  · rw [contentMarkup, writtenLines, if_pos hc, if_pos hc]
    rfl
  · rw [contentMarkup, writtenLines, if_neg hc, if_neg hc]
    simp only [List.flatten_cons, List.append_assoc, List.append_cancel_left_eq]
    induction content using Text.induction_on_lines with
    | last s hs =>
      rw [Text.cutLines_of_not_mem hs hc]
      by_cases hb : Text.isBlank s = true
      · simp [contentLine, writtenLine, hb, Text.endsWithNewline]
      · have hn := Text.not_endsWithNewline_of_not_mem hs
        have hbody : ¬ Text.endsWithNewline (indent ++ s) = true := by
          rwa [Text.endsWithNewline_append hc]
        simp [contentLine, writtenLine, Text.carriedLine, hb, hn, hbody]
    | line s t hs ih =>
      rw [Text.cutLines_append_newline hs, List.map_cons, List.map_cons, List.flatten_cons,
        List.flatten_cons, contentLine_of_endsWithNewline (Text.endsWithNewline_append_newline s),
        List.append_assoc]
      by_cases ht : t = []
      · have hended : (writtenLine (s ++ ['\n'])).IsEnded := by
          refine isEnded_writtenLine (t := s ++ ['\n']) ?_
          rw [Text.cutLines_append_newline hs]
          exact List.mem_cons_self
        obtain ⟨l, -, hl⟩ := hended
        simp [ht, Text.cutLines, hl, Text.endsWithNewline_append_newline]
      · rw [← ih ht, Text.endsWithNewline_append (body_ne_nil ht)]

/-- The lines of a written block. -/
def writtenBlock (keyword name : Text) (options : List (Text × Text)) (content : Text) :
    List Text :=
  markerLine keyword name ::
    (options.map (fun option => optionMarkup option.1 option.2) ++ writtenLines content)

theorem isEnded_of_mem_writtenBlock {keyword name content line : Text}
    {options : List (Text × Text)} (hkeyword : keyword.IsWord) (hname : name.IsWord)
    (hoptions : ∀ option ∈ options, IsOption option.1 option.2)
    (h : line ∈ writtenBlock keyword name options content) : line.IsEnded := by
  rw [writtenBlock, List.mem_cons, List.mem_append, List.mem_map] at h
  rcases h with rfl | ⟨option, ho, rfl⟩ | h
  · exact isEnded_markerLine hkeyword hname
  · exact isEnded_optionMarkup (hoptions option ho)
  · exact isEnded_of_mem_writtenLines h

theorem blockMarkup_eq (keyword name : Text) (options : List (Text × Text)) (content : Text) :
    blockMarkup keyword name options content =
      (writtenBlock keyword name options content).flatten := by
  rw [blockMarkup, contentMarkup_eq, writtenBlock, List.flatten_cons, List.flatten_append,
    List.append_assoc]
  rfl

end Convention

namespace Grammar

open Convention

variable {inner optionLines rest : List SourceLine}

/-! ### The lines of a block in a document -/

theorem rdropWhile_append_of_forall {α : Type} {p : α → Bool} {bs : List α}
    (h : ∀ b ∈ bs, p b = true) (as : List α) : (as ++ bs).rdropWhile p = as.rdropWhile p := by
  induction bs using List.reverseRecOn with
  | nil => rw [List.append_nil]
  | append_singleton bs b ih =>
    rw [← List.append_assoc, List.rdropWhile_concat_pos _ _ _ (h b (by simp)),
      ih fun c hc => h c (List.mem_append_left _ hc)]

theorem takeWhile_dropWhile_of_head {α : Type} {p : α → Bool} {as : List α}
    (h : ∀ a ∈ as.head?, p a = false) : as.takeWhile p = [] ∧ as.dropWhile p = as := by
  cases as with
  | nil => exact ⟨rfl, rfl⟩
  | cons a as =>
    have ha : ¬ p a = true := by simp [h a rfl]
    exact ⟨List.takeWhile_cons_of_neg ha, List.dropWhile_cons_of_neg ha⟩

theorem rdropWhile_rtakeWhile_of_getLast? {α : Type} {p : α → Bool} {as : List α}
    (h : ∀ a ∈ as.getLast?, p a = false) : as.rdropWhile p = as ∧ as.rtakeWhile p = [] := by
  have hlast : ∀ hne : as ≠ [], ¬ p (as.getLast hne) = true := fun hne => by
    simpa using h _ (List.getLast?_eq_some_getLast hne)
  exact ⟨List.rdropWhile_eq_self_iff.mpr hlast, List.rtakeWhile_eq_nil_iff.mpr hlast⟩

/-- Where no body goes on, no options do. -/
theorem isOption_eq_false_of_run (h : run rest = []) :
    ∀ line ∈ rest.head?, Grammar.isOption line = false := by
  intro line hline
  obtain ⟨lines, rfl⟩ := List.head?_eq_some_iff.mp hline
  refine Bool.eq_false_iff.mpr fun ho => ?_
  have hi := isInner_of_isOption line ho
  rw [isOption_eq, hi, Bool.true_and, Bool.not_eq_true'] at ho
  have hrun : run ([] ++ line :: lines) = [] ++ line :: run lines :=
    run_append_cons (List.forall_mem_nil _) ho hi lines
  rw [List.nil_append, h] at hrun
  cases hrun

/-- The body of a block whose lines are followed by others that do not belong to it. -/
theorem body_append (hinner : ∀ l ∈ inner, isInner l = true)
    (hhead : ∀ l ∈ inner.head?, isBlank l = true) (h : run rest = []) :
    body (inner ++ rest) = inner.rdropWhile isBlank := by
  have hrest : ∀ l ∈ rest.takeWhile isInner, isBlank l = true :=
    List.rdropWhile_eq_nil_iff.mp h
  have hrun : run (inner ++ rest) = inner.rdropWhile isBlank := by
    rw [run, List.takeWhile_append_of_pos hinner, rdropWhile_append_of_forall hrest]
  rw [body, hrun]
  cases inner with
  | nil => rw [List.rdropWhile_nil, ite_self]
  | cons line inner => exact if_pos (hhead line rfl)

/-- **A block is read from its lines** and from nothing else, if no body goes on after it. -/
theorem nodes_block {marker : SourceLine} {arguments : List Text} {set : List (Text × Text)}
    (hmarker : arguments? marker.text = some arguments)
    (hoption : ∀ l ∈ optionLines, Grammar.isOption l = true)
    (hset : options [] optionLines = .ok set) (hinner : ∀ l ∈ inner, isInner l = true)
    (hhead : ∀ l ∈ inner.head?, isBlank l = true) (h : run rest = []) :
    nodes (marker :: (optionLines ++ (inner ++ rest))) =
      (nodes rest).map fun after =>
        block marker arguments set optionLines (inner.rdropWhile isBlank) ::
          ((inner.rtakeWhile isBlank).map .ofLine ++ after) := by
  have hnot : ∀ line ∈ (inner ++ rest).head?, Grammar.isOption line = false := by
    intro line hline
    cases inner with
    | nil => exact isOption_eq_false_of_run h line hline
    | cons first inner =>
      obtain rfl := Option.some.inj hline
      rw [isOption_eq, hhead first rfl, Bool.not_true, Bool.and_false]
  obtain ⟨htake, hdrop⟩ := takeWhile_dropWhile_of_head hnot
  have hbody : (inner ++ rest).drop (inner.rdropWhile isBlank).length =
      inner.rtakeWhile isBlank ++ rest := by
    rw [show inner ++ rest = inner.rdropWhile isBlank ++ (inner.rtakeWhile isBlank ++ rest) by
      rw [← List.append_assoc, List.rdropWhile_append_rtakeWhile], List.drop_left]
  rw [nodes_cons_of_some hmarker, List.takeWhile_append_of_pos hoption, htake, List.append_nil,
    List.dropWhile_append_of_pos hoption, hdrop]
  simp only [hset, body_append hinner hhead h]
  rw [hbody, nodes_append_of_isBlank fun l hl => List.mem_rtakeWhile_imp hl]
  cases nodes rest <;> rfl

/-- Option lines are read as they are written. -/
theorem options_written {set new : List (Text × Text)} {lines : List SourceLine}
    (hlines : lines.map SourceLine.text = new.map fun option => optionMarkup option.1 option.2)
    (hnew : ∀ option ∈ new, IsOption option.1 option.2)
    (hkeys : ((set ++ new).map Prod.fst).Nodup) : options set lines = .ok (set ++ new) := by
  induction lines generalizing set new with
  | nil =>
    obtain rfl : new = [] := List.map_eq_nil_iff.mp hlines.symm
    rw [options, List.append_nil]
  | cons line lines ih =>
    cases new with
    | nil => cases hlines
    | cons option new =>
      obtain ⟨hline, hrest⟩ := List.cons.inj hlines
      obtain ⟨hoption, hnew⟩ := List.forall_mem_cons.mp hnew
      have hk : option.1 ∉ set.map Prod.fst := by
        rw [List.map_append, List.map_cons] at hkeys
        intro hm
        exact (List.nodup_append.mp hkeys).2.2 _ hm _ List.mem_cons_self rfl
      rw [options, hline, option?_optionMarkup hoption]
      simp only [if_neg hk]
      rw [ih hrest hnew (by simpa using hkeys)]
      simp

theorem rdropWhile_map {α β : Type} (f : α → β) (p : β → Bool) (as : List α) :
    (as.map f).rdropWhile p = (as.rdropWhile (p ∘ f)).map f := by
  rw [List.rdropWhile, List.rdropWhile, ← List.map_reverse, List.dropWhile_map, ← List.map_reverse]

theorem rtakeWhile_map {α β : Type} (f : α → β) (p : β → Bool) (as : List α) :
    (as.map f).rtakeWhile p = (as.rtakeWhile (p ∘ f)).map f := by
  rw [List.rtakeWhile, List.rtakeWhile, ← List.map_reverse, List.takeWhile_map, ← List.map_reverse]

theorem dropWhile_rdropWhile_cons {α : Type} {p : α → Bool} {a : α} (h : p a = true)
    (as : List α) : ((a :: as).rdropWhile p).dropWhile p = (as.rdropWhile p).dropWhile p := by
  by_cases hall : ∀ b ∈ as, p b = true
  · rw [List.rdropWhile_eq_nil_iff.mpr hall,
      List.rdropWhile_eq_nil_iff.mpr (List.forall_mem_cons.mpr ⟨h, hall⟩)]
  · obtain ⟨b, hb, hpb⟩ : ∃ b ∈ as, p b = false := by simpa using hall
    obtain ⟨before, after, rfl⟩ := List.append_of_mem hb
    rw [← List.cons_append, rdropWhile_append_cons hpb, rdropWhile_append_cons hpb,
      List.cons_append, List.dropWhile_cons_of_pos h]

/-- **What is read of written content** is what a block carries of it. -/
theorem content_written {content : Text} (h : inner.map SourceLine.text = writtenLines content) :
    Grammar.content (inner.rdropWhile isBlank) = Text.carried content := by
  have htexts : Grammar.content (inner.rdropWhile isBlank) =
      ((((inner.map SourceLine.text).rdropWhile Text.isBlank).dropWhile Text.isBlank).map
        unindent).flatten := by
    rw [rdropWhile_map, List.dropWhile_map, List.map_map]
    rfl
  rw [htexts, h, writtenLines, Text.carried]
  by_cases hc : content = []
  · rw [if_pos hc, hc]
    rfl
  · have hblank : Text.isBlank ∘ writtenLine = Text.isBlank := funext isBlank_writtenLine
    have hunindent : unindent ∘ writtenLine = Text.carriedLine := funext unindent_writtenLine
    rw [if_neg hc, dropWhile_rdropWhile_cons (by decide), rdropWhile_map, List.dropWhile_map,
      List.map_map, hblank, hunindent]

theorem isInner_of_mem_writtenLines {content : Text} {line : SourceLine}
    (h : line.text ∈ writtenLines content) : isInner line = true := by
  unfold writtenLines at h
  split at h
  · cases h
  · rw [isInner, isBlank]
    rcases List.mem_cons.mp h with h | h
    · rw [h]
      decide
    · obtain ⟨l, -, hl⟩ := List.mem_map.mp h
      rw [← hl, isBlank_writtenLine]
      by_cases hb : Text.isBlank l = true
      · rw [hb, Bool.true_or]
      · rw [writtenLine, if_neg hb, isIndented_indent_append, Bool.or_true]

/-- A blank line of written content is an LF alone. -/
theorem text_eq_of_mem_writtenLines {content line : Text} (h : line ∈ writtenLines content)
    (hb : Text.isBlank line = true) : line = ['\n'] := by
  unfold writtenLines at h
  split at h
  · cases h
  · rcases List.mem_cons.mp h with h | h
    · exact h
    · obtain ⟨l, -, rfl⟩ := List.mem_map.mp h
      rw [isBlank_writtenLine] at hb
      rw [writtenLine, if_pos hb]

/-- No block goes on into a written block. -/
theorem detached_written {keyword name : Text} (hkeyword : keyword.IsWord) (hname : name.IsWord)
    (new : List (Text × Text)) (content : Text) (number offset : Nat) (rest : List SourceLine) :
    Detached (SourceLine.numbered number offset (writtenBlock keyword name new content) ++ rest) :=
  detached_cons (isInner_eq_false (arguments?_markerLine hkeyword hname))

/-- **A written block is read back** wherever it stands, if no body goes on after it: a block with
the content that it carries, and a line of prose for each blank line that it ends with. -/
theorem nodes_written {keyword name : Text} {new : List (Text × Text)} (hkeyword : keyword.IsWord)
    (hname : name.IsWord) (hnew : ∀ option ∈ new, IsOption option.1 option.2)
    (hkeys : (new.map Prod.fst).Nodup) (content : Text) (number offset : Nat) (h : run rest = []) :
    ∃ (stop : Nat) (blanks : List SourceLine), (∀ l ∈ blanks, l.text = ['\n']) ∧
      blanks.length = ((writtenLines content).rtakeWhile Text.isBlank).length ∧
      nodes (SourceLine.numbered number offset (writtenBlock keyword name new content) ++ rest) =
        (nodes rest).map fun after =>
          ⟨number, ⟨offset, stop⟩, .block ⟨[keyword, name], new, Text.carried content⟩⟩ ::
            (blanks.map .ofLine ++ after) := by
  rw [writtenBlock, SourceLine.numbered, SourceLine.numbered_append]
  generalize hoptionLines : SourceLine.numbered (number + 1) _ (new.map _) = optionLines
  generalize hinner : SourceLine.numbered _ _ (writtenLines content) = inner
  have hoptionTexts := congrArg (List.map SourceLine.text) hoptionLines
  have hinnerTexts := congrArg (List.map SourceLine.text) hinner
  rw [SourceLine.map_text_numbered] at hoptionTexts hinnerTexts
  have hoption : ∀ l ∈ optionLines, Grammar.isOption l = true := by
    intro l hl
    have hm : l.text ∈ optionLines.map SourceLine.text := List.mem_map_of_mem hl
    rw [← hoptionTexts] at hm
    obtain ⟨option, -, htext⟩ := List.mem_map.mp hm
    rw [Grammar.isOption, isBlank, ← htext, isBlank_optionMarkup, optionMarkup_eq,
      isIndented_indent_append]
    rfl
  have hmem : ∀ l ∈ inner, l.text ∈ writtenLines content := by
    intro l hl
    rw [hinnerTexts]
    exact List.mem_map_of_mem hl
  have hhead : ∀ l ∈ inner.head?, isBlank l = true := by
    intro l hl
    have hfirst := congrArg List.head? hinnerTexts
    rw [List.head?_map, hl, writtenLines] at hfirst
    split at hfirst
    · cases hfirst
    · rw [isBlank, ← Option.some.inj hfirst]
      decide
  have hblank : ∀ l ∈ inner.rtakeWhile isBlank, isBlank l = true := fun l hl =>
    List.mem_rtakeWhile_imp hl
  refine ⟨stopAfter (offset + (markerLine keyword name).byteLength)
    (optionLines ++ inner.rdropWhile isBlank), inner.rtakeWhile isBlank, fun l hl => ?_, ?_, ?_⟩
  · exact text_eq_of_mem_writtenLines (hmem l ((List.rtakeWhile_suffix _ _).subset hl))
      (hblank l hl)
  · rw [hinnerTexts, rtakeWhile_map, List.length_map]
    rfl
  · have hset : options [] optionLines = .ok ([] ++ new) :=
      options_written hoptionTexts.symm hnew hkeys
    rw [List.cons_append, List.append_assoc,
      nodes_block (arguments?_markerLine hkeyword hname) hoption hset
        (fun l hl => isInner_of_mem_writtenLines (hmem l hl)) hhead h,
      block, content_written hinnerTexts.symm]
    rfl

end Grammar

end Literate
