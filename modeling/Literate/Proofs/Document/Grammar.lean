import Literate.Document.Parse
import Literate.Proofs.Text.Lines
import Mathlib.Data.List.DropRight

/-!
# The grammar of documents

A document read by looking ahead.  A block is its marker, the lines of its options, which are those
that are indented and not blank, and its body.  The body begins with a blank line.  It goes on as
long as lines are blank or indented, and ends with the last of them that is not blank; if there is
none, the block has no body.  Every other line is prose.

`parse_eq_nodes` says that a document is read by this grammar, although it is read line by line.
The reader holds back blank lines; `nodes_content` says what it makes of them, and of a body that it
has read in part.
-/

namespace Literate

namespace Grammar

/-! ### The grammar -/

/-- The line has nothing on it. -/
def isBlank (line : SourceLine) : Bool :=
  Text.isBlank line.text

/-- The line may set an option. -/
def isOption (line : SourceLine) : Bool :=
  Convention.isIndented line.text && !isBlank line

/-- The line may stand in the body of a block. -/
def isInner (line : SourceLine) : Bool :=
  isBlank line || Convention.isIndented line.text

/-- The options that lines set after those in `set`, or the first fault: a line that sets none, or
one that sets an option a second time. -/
def options (set : List (Text × Text)) :
    List SourceLine → Except FormatError (List (Text × Text))
  | [] => .ok set
  | line :: rest =>
    match Convention.option? (Convention.unindent line.text) with
    | none => .error ⟨line.number, .malformedOption (Text.trim line.text)⟩
    | some (key, value) =>
      if key ∈ set.map Prod.fst then .error ⟨line.number, .duplicateOption key⟩
      else options (set ++ [(key, value)]) rest

/-- The lines that may stand in a body, up to the last one that is not blank. -/
def run (lines : List SourceLine) : List SourceLine :=
  (lines.takeWhile isInner).rdropWhile isBlank

/-- The body of a block, at the beginning of the lines after its options. -/
def body (after : List SourceLine) : List SourceLine :=
  if after.head?.any isBlank then run after else []

/-- The content of a body, from its first line on that is not blank. -/
def content (body : List SourceLine) : Text :=
  ((body.dropWhile isBlank).map fun line => Convention.unindent line.text).flatten

/-- Where the last of the lines stops, or `stop` if there is none. -/
def stopAfter (stop : Nat) (lines : List SourceLine) : Nat :=
  (lines.getLast?.map fun line => line.span.stop).getD stop

/-- The block of a marker line, the lines of its options and its body. -/
def block (marker : SourceLine) (arguments : List Text) (set : List (Text × Text))
    (optionLines body : List SourceLine) : Node :=
  ⟨marker.number, ⟨marker.span.start, stopAfter marker.span.stop (optionLines ++ body)⟩,
    .block ⟨arguments, set, content body⟩⟩

/-- The nodes of lines, or the first fault. -/
def nodes : List SourceLine → Except FormatError (List Node)
  | [] => .ok []
  | line :: rest =>
    match Convention.arguments? line.text with
    | none => (nodes rest).map (.ofLine line :: ·)
    | some arguments =>
      let optionLines := rest.takeWhile isOption
      let after := rest.dropWhile isOption
      match options [] optionLines with
      | .error e => .error e
      | .ok set =>
        (nodes (after.drop (body after).length)).map
          (block line arguments set optionLines (body after) :: ·)
termination_by lines => lines.length
decreasing_by
  · exact Nat.lt_succ_self _
  · refine Nat.lt_succ_of_le (Nat.le_trans ?_ (List.dropWhile_sublist isOption).length_le)
    exact (List.drop_sublist _ _).length_le

@[simp] theorem nodes_nil : nodes [] = .ok [] := by rw [nodes]

theorem nodes_cons_of_none {line : SourceLine} (h : Convention.arguments? line.text = none)
    (rest : List SourceLine) : nodes (line :: rest) = (nodes rest).map (.ofLine line :: ·) := by
  rw [nodes, h]

theorem nodes_cons_of_some {line : SourceLine} {arguments : List Text}
    (h : Convention.arguments? line.text = some arguments) (rest : List SourceLine) :
    nodes (line :: rest) =
      let optionLines := rest.takeWhile isOption
      let after := rest.dropWhile isOption
      match options [] optionLines with
      | .error e => .error e
      | .ok set =>
        (nodes (after.drop (body after).length)).map
          (block line arguments set optionLines (body after) :: ·) := by
  rw [nodes, h]

/-! ### Kinds of lines -/

/-- A line that is blank or indented opens no block. -/
theorem arguments?_eq_none {line : SourceLine} (h : isInner line = true) :
    Convention.arguments? line.text = none := by
  rw [Convention.arguments?, Option.map_eq_none_iff, Option.eq_none_iff_forall_ne_some]
  intro rest hrest
  have hblank : Text.isBlank (Convention.marker ++ rest) = false := by
    rw [Text.isBlank_append, show Text.isBlank Convention.marker = false by decide, Bool.false_and]
  have hindented : Convention.isIndented (Convention.marker ++ rest) = false := rfl
  rw [isInner, isBlank, Text.after?_eq_some_iff.mp hrest, hblank, hindented] at h
  cases h

/-- A line that opens a block stands in no other. -/
theorem isInner_eq_false {line : SourceLine} {arguments : List Text}
    (h : Convention.arguments? line.text = some arguments) : isInner line = false := by
  refine Bool.eq_false_iff.mpr fun hi => ?_
  rw [arguments?_eq_none hi] at h
  cases h

theorem isInner_of_isBlank {line : SourceLine} (h : isBlank line = true) : isInner line = true := by
  rw [isInner, h, Bool.true_or]

theorem isOption_eq (line : SourceLine) : isOption line = (isInner line && !isBlank line) := by
  rw [isOption, isInner]
  cases isBlank line <;> simp

/-- No block goes on into the lines: the first of them is neither blank nor indented. -/
def Detached (lines : List SourceLine) : Prop :=
  ∀ line ∈ lines.head?, isInner line = false

theorem detached_nil : Detached [] := by
  simp [Detached]

theorem detached_cons {line : SourceLine} {rest : List SourceLine} (h : isInner line = false) :
    Detached (line :: rest) := by
  simpa [Detached] using h

theorem takeWhile_eq_nil_of_detached {p : SourceLine → Bool} {lines : List SourceLine}
    (h : Detached lines) (hp : ∀ line, p line = true → isInner line = true) :
    lines.takeWhile p = [] := by
  cases lines with
  | nil => rfl
  | cons line lines =>
    refine List.takeWhile_cons_of_neg fun hl => ?_
    exact Bool.false_ne_true ((h line rfl).symm.trans (hp line hl))

/-- Blank lines are prose. -/
theorem nodes_append_of_isBlank {held : List SourceLine} (h : ∀ l ∈ held, isBlank l = true)
    (rest : List SourceLine) :
    nodes (held ++ rest) = (nodes rest).map (held.map .ofLine ++ ·) := by
  induction held with
  | nil =>
    rw [List.nil_append]
    cases nodes rest <;> rfl
  | cons line held ih =>
    obtain ⟨hline, hheld⟩ := List.forall_mem_cons.mp h
    rw [List.cons_append, nodes_cons_of_none (arguments?_eq_none (isInner_of_isBlank hline)),
      ih hheld]
    cases nodes rest <;> rfl

/-! ### Runs of lines -/

theorem rdropWhile_append_cons {α : Type} {p : α → Bool} {a : α} (h : p a = false)
    (as bs : List α) : (as ++ a :: bs).rdropWhile p = as ++ a :: bs.rdropWhile p := by
  induction bs using List.reverseRecOn with
  | nil =>
    rw [List.rdropWhile_nil, List.rdropWhile_concat_neg _ _ _ (by simp [h])]
  | append_singleton bs b ih =>
    rw [show as ++ a :: (bs ++ [b]) = as ++ a :: bs ++ [b] by simp]
    by_cases hb : p b = true
    · rw [List.rdropWhile_concat_pos _ _ _ hb, List.rdropWhile_concat_pos _ _ _ hb, ih]
    · rw [List.rdropWhile_concat_neg _ _ _ hb, List.rdropWhile_concat_neg _ _ _ hb]
      simp

/-- Blank lines belong to a run if a line after them does that is not blank. -/
theorem run_append_cons {held : List SourceLine} (hheld : ∀ l ∈ held, isBlank l = true)
    {line : SourceLine} (hb : isBlank line = false) (hi : isInner line = true)
    (rest : List SourceLine) : run (held ++ line :: rest) = held ++ line :: run rest := by
  rw [run, List.takeWhile_append_of_pos fun l hl => isInner_of_isBlank (hheld l hl),
    List.takeWhile_cons_of_pos hi, rdropWhile_append_cons hb]
  rfl

/-- Blank lines are no run if no inner line follows. -/
theorem run_eq_nil {held rest : List SourceLine} (hheld : ∀ l ∈ held, isBlank l = true)
    (hrest : Detached rest) : run (held ++ rest) = [] := by
  rw [run, List.takeWhile_append_of_pos fun l hl => isInner_of_isBlank (hheld l hl),
    takeWhile_eq_nil_of_detached hrest fun _ h => h, List.append_nil, List.rdropWhile_eq_nil_iff]
  exact hheld

theorem run_eq_nil_of_detached {rest : List SourceLine} (h : Detached rest) : run rest = [] :=
  run_eq_nil (List.forall_mem_nil _) h

theorem stopAfter_append_cons (stop : Nat) (lines : List SourceLine) (line : SourceLine)
    (rest : List SourceLine) :
    stopAfter stop (lines ++ line :: rest) = stopAfter line.span.stop rest := by
  rw [stopAfter, stopAfter, List.getLast?_append, List.getLast?_cons]
  cases rest.getLast? <;> rfl

/-! ### Lines in order -/

/-- The span begins and stops no later than the other. -/
def SpanBefore (s t : Span) : Prop :=
  s.start ≤ t.start ∧ s.stop ≤ t.stop

/-- The lines follow the span in order. -/
def Follow (span : Span) (lines : List SourceLine) : Prop :=
  (∀ line ∈ lines, SpanBefore span line.span) ∧
    lines.Pairwise fun a b => SpanBefore a.span b.span

theorem cover_eq {s t : Span} (h : SpanBefore s t) : s.cover t = ⟨s.start, t.stop⟩ := by
  rw [Span.cover, Nat.min_eq_left h.1, Nat.max_eq_right h.2]

/-- Lines follow what has been read before them and the line before them. -/
theorem Follow.after {span : Span} {before rest : List SourceLine} {line : SourceLine}
    (h : Follow span (before ++ line :: rest)) : Follow ⟨span.start, line.span.stop⟩ rest := by
  obtain ⟨hspan, hlines⟩ := h
  obtain ⟨hline, hrest⟩ := List.pairwise_cons.mp (List.pairwise_append.mp hlines).2.1
  refine ⟨fun l hl => ⟨?_, (hline l hl).2⟩, hrest⟩
  exact (hspan l (List.mem_append_right _ (List.mem_cons_of_mem _ hl))).1

theorem Follow.right {span : Span} {before rest : List SourceLine}
    (h : Follow span (before ++ rest)) : Follow span rest :=
  ⟨fun l hl => h.1 l (List.mem_append_right _ hl), (List.pairwise_append.mp h.2).2.1⟩

theorem Follow.before {span : Span} {before rest : List SourceLine} {line : SourceLine}
    (h : Follow span (before ++ line :: rest)) : SpanBefore span line.span :=
  h.1 line (List.mem_append_right _ List.mem_cons_self)

theorem follow_numbered (number offset : Nat) (texts : List Text) :
    Follow ⟨0, offset⟩ (SourceLine.numbered number offset texts) ∧
      ∀ line ∈ SourceLine.numbered number offset texts, offset ≤ line.span.start := by
  induction texts generalizing number offset with
  | nil => simp [SourceLine.numbered, Follow]
  | cons text rest ih =>
    obtain ⟨⟨hbefore, hrest⟩, hstart⟩ := ih (number + 1) (offset + text.byteLength)
    have hle := Nat.le_add_right offset text.byteLength
    refine ⟨⟨List.forall_mem_cons.mpr ⟨⟨Nat.zero_le _, hle⟩, fun l hl => ?_⟩,
      List.pairwise_cons.mpr ⟨fun l hl => ?_, hrest⟩⟩,
      List.forall_mem_cons.mpr ⟨Nat.le_refl _, fun l hl => hle.trans (hstart l hl)⟩⟩
    · exact ⟨(hbefore l hl).1, hle.trans (hbefore l hl).2⟩
    · exact ⟨hle.trans (hstart l hl), (hbefore l hl).2⟩

end Grammar

namespace OpenBlock

open Grammar

/-- The block with more lines read.  Before there has been content, blank lines are passed over. -/
def extend (block : OpenBlock) (started : Bool) (lines : List SourceLine) : OpenBlock :=
  { block with
    content := block.content ++ ((if started then lines else lines.dropWhile isBlank).map
      fun line => Convention.unindent line.text).flatten
    span := ⟨block.span.start, stopAfter block.span.stop lines⟩ }

@[simp] theorem extend_nil (block : OpenBlock) (started : Bool) :
    block.extend started [] = block := by
  cases started <;> simp [extend, stopAfter]

/-- A block is read line by line. -/
theorem extend_append_cons {block : OpenBlock} {held : List SourceLine}
    (hheld : ∀ l ∈ held, isBlank l = true) {line : SourceLine} (hb : isBlank line = false)
    (h : SpanBefore block.span line.span) (started : Bool) (lines : List SourceLine) :
    block.extend started (held ++ line :: lines) =
      (block.addContent (if started then held else []) line).extend true lines := by
  have hdrop : (held ++ line :: lines).dropWhile isBlank = line :: lines := by
    rw [List.dropWhile_append_of_pos hheld, List.dropWhile_cons_of_neg (by simp [hb])]
  rw [extend, extend, addContent, hdrop, stopAfter_append_cons, cover_eq h]
  cases started <;> simp

/-- What an option leaves as it is, and the bytes that the block has with it. -/
theorem of_readOption {block next : OpenBlock} {line : SourceLine}
    (h : block.readOption line = .ok next) :
    next.line = block.line ∧ next.span = block.span.cover line.span ∧
      next.arguments = block.arguments ∧ next.content = block.content := by
  unfold readOption at h
  split at h
  · cases h
  · split at h
    · cases h
    · cases h
      exact ⟨rfl, rfl, rfl, rfl⟩

/-- Options are read one by one. -/
theorem options_cons (block : OpenBlock) (line : SourceLine) (rest : List SourceLine) :
    Grammar.options block.options (line :: rest) =
      match block.readOption line with
      | .error e => .error e
      | .ok next => Grammar.options next.options rest := by
  rw [Grammar.options, readOption]
  cases Convention.option? (Convention.unindent line.text) with
  | none => rfl
  | some option =>
    have hany : (block.options.any fun o => o.1 == option.1) = true ↔
        option.1 ∈ block.options.map Prod.fst := by
      simp [List.any_eq_true, List.mem_map]
    by_cases hk : option.1 ∈ block.options.map Prod.fst
    · simp only [if_pos hk, if_pos (hany.mpr hk)]
    · simp only [if_neg hk, if_neg (mt hany.mp hk)]

end OpenBlock

namespace Reading

open Grammar

variable {block : OpenBlock} {line : SourceLine} {lines held rest : List SourceLine}

theorem nodes_cons_of_step {reading next : Reading} {done : List Node}
    (h : reading.step line = .ok (done, next)) (rest : List SourceLine) :
    reading.nodes (line :: rest) = (next.nodes rest).map (done ++ ·) := by
  rw [Reading.nodes, h]
  simp only
  cases next.nodes rest <;> rfl

theorem nodes_cons_of_silent {reading next : Reading} (h : reading.step line = .ok ([], next))
    (rest : List SourceLine) : reading.nodes (line :: rest) = next.nodes rest := by
  rw [nodes_cons_of_step h]
  cases next.nodes rest <;> rfl

/-- Blank lines outside a block are prose. -/
theorem outside_nodes_append_of_isBlank (h : ∀ l ∈ held, isBlank l = true)
    (rest : List SourceLine) :
    outside.nodes (held ++ rest) = (outside.nodes rest).map (held.map .ofLine ++ ·) := by
  induction held with
  | nil =>
    rw [List.nil_append]
    cases outside.nodes rest <;> rfl
  | cons line held ih =>
    obtain ⟨hline, hheld⟩ := List.forall_mem_cons.mp h
    have hstep : outside.step line = .ok ([.ofLine line], outside) := by
      rw [step, outsideStep, arguments?_eq_none (isInner_of_isBlank hline)]
    rw [List.cons_append, nodes_cons_of_step hstep, ih hheld]
    cases outside.nodes rest <;> rfl

/-- A line that is neither blank nor indented closes what is open. -/
theorem nodes_of_detached {reading : Reading} (h : Detached lines) :
    reading.nodes lines = (outside.nodes lines).map (reading.finish ++ ·) := by
  cases lines with
  | nil =>
    show Except.ok reading.finish = Except.ok (reading.finish ++ [])
    rw [List.append_nil]
  | cons line rest =>
    have hline := h line rfl
    rw [isInner, Bool.or_eq_false_iff] at hline
    have hstep : reading.step line =
        .ok (reading.finish ++ (outsideStep line).1, (outsideStep line).2) := by
      unfold step
      cases reading with
      | outside => rfl
      | options block => simp [show Text.isBlank line.text = false from hline.1, hline.2]
      | content block started held =>
        simp [show Text.isBlank line.text = false from hline.1, hline.2]
    have houtside : outside.step line = .ok ((outsideStep line).1, (outsideStep line).2) := rfl
    rw [nodes_cons_of_step hstep, nodes_cons_of_step houtside]
    cases (outsideStep line).2.nodes rest with
    | error e => rfl
    | ok later => simp [Except.map]

/-- **What a reader makes of lines after the options**: the block with the run of lines, and then
the nodes of the lines after it. -/
theorem nodes_content {started : Bool} (hheld : ∀ l ∈ held, isBlank l = true)
    (h : Follow block.span (held ++ lines)) :
    (content block started held).nodes lines =
      (outside.nodes ((held ++ lines).drop (run (held ++ lines)).length)).map
        ((block.extend started (run (held ++ lines))).node :: ·) := by
  induction lines generalizing block started held with
  | nil =>
    rw [run_eq_nil hheld detached_nil, nodes_of_detached detached_nil, OpenBlock.extend_nil,
      List.length_nil, List.drop_zero, outside_nodes_append_of_isBlank hheld]
    simp [finish, Except.map, Reading.nodes]
  | cons line rest ih =>
    by_cases hi : isInner line = true
    · by_cases hb : isBlank line = true
      · have hstep : (content block started held).step line =
            .ok ([], content block started (held ++ [line])) := by
          simp [step, show Text.isBlank line.text = true from hb]
        have hheld' : ∀ l ∈ held ++ [line], isBlank l = true := by
          simpa [or_imp, forall_and, hb] using hheld
        have hlines : held ++ line :: rest = held ++ [line] ++ rest := by simp
        rw [nodes_cons_of_silent hstep, hlines, ih hheld' (hlines ▸ h)]
      · have hindented : Convention.isIndented line.text = true := by simpa [isInner, hb] using hi
        have hstep : (content block started held).step line =
            .ok ([], content (block.addContent (if started then held else []) line) true []) := by
          simp [step, show ¬ Text.isBlank line.text = true from hb, hindented]
        have hspan : (block.addContent (if started then held else []) line).span =
            ⟨block.span.start, line.span.stop⟩ := cover_eq h.before
        have hfollow := h.after
        rw [← hspan] at hfollow
        rw [nodes_cons_of_silent hstep, ih (List.forall_mem_nil _) hfollow, List.nil_append,
          run_append_cons hheld (by simpa using hb) hi,
          OpenBlock.extend_append_cons hheld (by simpa using hb) h.before]
        simp
    · have hrest : Detached (line :: rest) := detached_cons (by simpa using hi)
      rw [nodes_of_detached hrest, run_eq_nil hheld hrest, OpenBlock.extend_nil, List.length_nil,
        List.drop_zero, outside_nodes_append_of_isBlank hheld]
      cases outside.nodes (line :: rest) with
      | error e => rfl
      | ok later => simp [finish, Except.map]

/-- **What a reader makes of lines after the marker of a block**: the block, read by looking ahead,
and then the nodes of the lines after it. -/
theorem nodes_options (hc : block.content = []) (h : Follow block.span lines) :
    (options block).nodes lines =
      let optionLines := lines.takeWhile isOption
      let after := lines.dropWhile isOption
      match Grammar.options block.options optionLines with
      | .error e => .error e
      | .ok set =>
        (outside.nodes (after.drop (body after).length)).map
          (⟨block.line, ⟨block.span.start, stopAfter block.span.stop (optionLines ++ body after)⟩,
            .block ⟨block.arguments, set, Grammar.content (body after)⟩⟩ :: ·) := by
  induction lines generalizing block with
  | nil => simp [nodes_of_detached detached_nil, Grammar.options, body, stopAfter, finish,
      OpenBlock.node, hc, Grammar.content, Except.map, Reading.nodes]
  | cons line rest ih =>
    by_cases ho : isOption line = true
    · obtain ⟨hindented, hb⟩ : Convention.isIndented line.text = true ∧
          Text.isBlank line.text = false := by simpa [isOption, isBlank] using ho
      rw [List.takeWhile_cons_of_pos ho, List.dropWhile_cons_of_pos ho]
      cases hread : block.readOption line with
      | error e =>
        have hstep : (options block).step line = .error e := by
          simp [step, hb, hindented, hread]
        simp [Reading.nodes, hstep, OpenBlock.options_cons, hread]
      | ok next =>
        have hstep : (options block).step line = .ok ([], options next) := by
          simp [step, hb, hindented, hread]
        obtain ⟨hline, hspan, harguments, hcontent⟩ := OpenBlock.of_readOption hread
        have hlines : Follow block.span ([] ++ line :: rest) := h
        have hfollow := hlines.after
        rw [cover_eq hlines.before] at hspan
        rw [← hspan] at hfollow
        rw [nodes_cons_of_silent hstep, ih (hcontent.trans hc) hfollow]
        simp only [List.cons_append, OpenBlock.options_cons, hread, hline, hspan, harguments]
        rw [show ∀ lines, stopAfter block.span.stop (line :: lines) = stopAfter line.span.stop lines
          from stopAfter_append_cons block.span.stop [] line]
    · rw [List.takeWhile_cons_of_neg ho, List.dropWhile_cons_of_neg ho]
      by_cases hb : isBlank line = true
      · have hstep : (options block).step line = .ok ([], content block false [line]) := by
          simp [step, show Text.isBlank line.text = true from hb]
        rw [nodes_cons_of_silent hstep, nodes_content (by simpa using hb) h]
        simp [Grammar.options, body, hb, OpenBlock.extend, OpenBlock.node, hc, Grammar.content]
      · have hrest : Detached (line :: rest) := detached_cons (by simpa [isOption_eq, hb] using ho)
        rw [nodes_of_detached hrest]
        simp [Grammar.options, body, hb, stopAfter, finish, OpenBlock.node, hc, Grammar.content]

/-- Lines in order are read outside a block as the grammar says. -/
theorem outside_nodes_eq (h : lines.Pairwise fun a b => SpanBefore a.span b.span) :
    outside.nodes lines = Grammar.nodes lines := by
  induction lines using Grammar.nodes.induct with
  | case1 => rw [Grammar.nodes_nil, Reading.nodes, finish]
  | case2 line rest hnone ih =>
    rw [List.pairwise_cons] at h
    have hstep : outside.step line = .ok ([.ofLine line], outside) := by
      rw [step, outsideStep, hnone]
    rw [nodes_cons_of_step hstep, nodes_cons_of_none hnone, ih h.2]
    rfl
  | case3 line rest arguments hsome optionLines e hset =>
    have hstep : outside.step line = .ok ([], options (.ofMarker line arguments)) := by
      rw [step, outsideStep, hsome]
    have hfollow : Follow (OpenBlock.ofMarker line arguments).span rest := List.pairwise_cons.mp h
    rw [nodes_cons_of_silent hstep, nodes_cons_of_some hsome, nodes_options rfl hfollow]
    simp only [OpenBlock.ofMarker, show Grammar.options [] (rest.takeWhile isOption) = _ from hset]
  | case4 line rest arguments hsome optionLines after set hset ih =>
    have hstep : outside.step line = .ok ([], options (.ofMarker line arguments)) := by
      rw [step, outsideStep, hsome]
    have hafter : (after.drop (body after).length).Sublist rest :=
      (List.drop_sublist _ _).trans (List.dropWhile_sublist isOption)
    have hfollow : Follow (OpenBlock.ofMarker line arguments).span rest := List.pairwise_cons.mp h
    rw [nodes_cons_of_silent hstep, nodes_cons_of_some hsome, nodes_options rfl hfollow]
    simp only [OpenBlock.ofMarker, show Grammar.options [] (rest.takeWhile isOption) = _ from hset]
    rw [ih ((List.pairwise_cons.mp h).2.sublist hafter)]
    rfl

end Reading

namespace Grammar

/-- **Documents are read by the grammar.** -/
theorem parse_eq_nodes (source : Text) :
    Node.parse source = nodes (SourceLine.ofText source) :=
  Reading.outside_nodes_eq (follow_numbered 1 0 source.cutLines).1.2

/-- A block with an option, its content between blank lines, and prose. -/
example :
    let source := Text.ofString
      ".. diff-doc:: start a\n    :render: True\n \n    x\n\n      y\n\nend"
    let block : Block := ⟨[Text.ofString "start", ['a']],
      [(Text.ofString "render", Text.ofString "True")], Text.ofString "x\n\n  y\n"⟩
    nodes (SourceLine.ofText source) = .ok [⟨1, ⟨0, 57⟩, .block block⟩,
      ⟨7, ⟨57, 58⟩, .prose ['\n']⟩, ⟨8, ⟨58, 61⟩, .prose (Text.ofString "end")⟩] := by
  cbv

end Grammar

end Literate
