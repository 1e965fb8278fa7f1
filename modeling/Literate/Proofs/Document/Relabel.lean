import Literate.Proofs.Document.Grammar

/-!
# Lines under other labels

How lines are read does not depend on their numbers, on the bytes they take up, or on a change of
their texts that leaves alone what each line says on its own (`Relabeling`).  Lines that are changed
so give the same nodes under the new labels, or the same error (`Grammar.nodes_map`).

Lines at another place (`Relabeling.move`) keep their texts.
-/

namespace Literate

/-- **A change of lines that keeps how they are read**: of their numbers, of the places where they
begin and stop, and of their texts. -/
structure Relabeling where
  number : Nat → Nat
  place : Nat → Nat
  text : Text → Text
  text_nil : text [] = []
  text_append : ∀ s t, text (s ++ t) = text s ++ text t
  arguments? : ∀ t, Convention.arguments? (text t) = Convention.arguments? t
  isBlank : ∀ t, Text.isBlank (text t) = Text.isBlank t
  isIndented : ∀ t, Convention.isIndented (text t) = Convention.isIndented t
  option? : ∀ t, Convention.option? (Convention.unindent (text t)) =
    Convention.option? (Convention.unindent t)
  unindent : ∀ t, Convention.unindent (text t) = text (Convention.unindent t)

namespace Relabeling

variable (f : Relabeling)

/-- The span between the new places. -/
def span (s : Span) : Span :=
  ⟨f.place s.start, f.place s.stop⟩

/-- The line with its new labels. -/
def line (l : SourceLine) : SourceLine :=
  ⟨f.number l.number, f.span l.span, f.text l.text⟩

/-- What stands at a place, with its new text. -/
def nodeKind : NodeKind → NodeKind
  | .prose text => .prose (f.text text)
  | .block b => .block { b with content := f.text b.content }

/-- The node with its new labels. -/
def node (n : Node) : Node :=
  ⟨f.number n.line, f.span n.span, f.nodeKind n.kind⟩

/-- The error with the new number of its line. -/
def error (e : FormatError) : FormatError :=
  { e with line := f.number e.line }

/-- Lines keep their texts. -/
def relocation (number place : Nat → Nat) : Relabeling :=
  ⟨number, place, id, rfl, fun _ _ => rfl, fun _ => rfl, fun _ => rfl, fun _ => rfl, fun _ => rfl,
    fun _ => rfl⟩

theorem text_flatten (ts : List Text) : f.text ts.flatten = (ts.map f.text).flatten := by
  induction ts with
  | nil => exact f.text_nil
  | cons t ts ih => rw [List.flatten_cons, f.text_append, ih, List.map_cons, List.flatten_cons]

end Relabeling

namespace Grammar

variable (f : Relabeling) {lines : List SourceLine} {p : SourceLine → Bool}

theorem isBlank_line (l : SourceLine) : isBlank (f.line l) = isBlank l :=
  f.isBlank l.text

theorem isOption_line (l : SourceLine) : isOption (f.line l) = isOption l := by
  rw [isOption, isOption, isBlank_line]
  exact congrArg (· && !isBlank l) (f.isIndented l.text)

theorem isInner_line (l : SourceLine) : isInner (f.line l) = isInner l := by
  rw [isInner, isInner, isBlank_line]
  exact congrArg (isBlank l || ·) (f.isIndented l.text)

theorem takeWhile_map_line (hp : ∀ l, p (f.line l) = p l) (lines : List SourceLine) :
    (lines.map f.line).takeWhile p = (lines.takeWhile p).map f.line := by
  rw [List.takeWhile_map, show p ∘ f.line = p from funext hp]

theorem dropWhile_map_line (hp : ∀ l, p (f.line l) = p l) (lines : List SourceLine) :
    (lines.map f.line).dropWhile p = (lines.dropWhile p).map f.line := by
  rw [List.dropWhile_map, show p ∘ f.line = p from funext hp]

/-- Options are read alike, if faults show the same lines. -/
theorem options_map (h : ∀ l ∈ lines, Text.trim (f.text l.text) = Text.trim l.text)
    (set : List (Text × Text)) :
    options set (lines.map f.line) = (options set lines).mapError f.error := by
  induction lines generalizing set with
  | nil => rfl
  | cons line rest ih =>
    obtain ⟨hline, hrest⟩ := List.forall_mem_cons.mp h
    rw [List.map_cons, options, options, show (f.line line).text = f.text line.text from rfl,
      f.option?, hline]
    cases Convention.option? (Convention.unindent line.text) with
    | none => rfl
    | some option =>
      by_cases hk : option.1 ∈ set.map Prod.fst
      · simp only [if_pos hk]
        rfl
      · simp only [if_neg hk, ih hrest]

theorem run_map (lines : List SourceLine) : run (lines.map f.line) = (run lines).map f.line := by
  rw [run, run, takeWhile_map_line f (isInner_line f), List.rdropWhile, List.rdropWhile,
    ← List.map_reverse, dropWhile_map_line f (isBlank_line f), ← List.map_reverse]

theorem body_map (lines : List SourceLine) : body (lines.map f.line) = (body lines).map f.line := by
  have hhead : (lines.map f.line).head?.any isBlank = lines.head?.any isBlank := by
    rw [List.head?_map, Option.any_map]
    exact congrArg lines.head?.any (funext (isBlank_line f))
  rw [body, body, run_map, hhead]
  split <;> rfl

theorem stopAfter_map (stop : Nat) (lines : List SourceLine) :
    stopAfter (f.place stop) (lines.map f.line) = f.place (stopAfter stop lines) := by
  rw [stopAfter, stopAfter, List.getLast?_map]
  cases lines.getLast? <;> rfl

theorem content_map (lines : List SourceLine) :
    content (lines.map f.line) = f.text (content lines) := by
  rw [content, content, dropWhile_map_line f (isBlank_line f), f.text_flatten, List.map_map,
    List.map_map]
  exact congrArg List.flatten (List.map_congr_left fun l _ => f.unindent l.text)

theorem block_map (marker : SourceLine) (arguments : List Text) (set : List (Text × Text))
    (optionLines inner : List SourceLine) :
    block (f.line marker) arguments set (optionLines.map f.line) (inner.map f.line) =
      f.node (block marker arguments set optionLines inner) := by
  rw [block, block, content_map, ← List.map_append]
  show Node.mk (f.number marker.number) ⟨f.place marker.span.start, stopAfter _ _⟩ _ = _
  rw [show (f.line marker).span.stop = f.place marker.span.stop from rfl, stopAfter_map]
  rfl

/-- **Lines are read alike under all labels.** -/
theorem nodes_map (h : ∀ l ∈ lines, Text.trim (f.text l.text) = Text.trim l.text) :
    nodes (lines.map f.line) = ((nodes lines).map (List.map f.node)).mapError f.error := by
  induction lines using nodes.induct with
  | case1 =>
    rw [List.map_nil, nodes_nil]
    rfl
  | case2 line lines hnone ih =>
    have hnone' : Convention.arguments? (f.line line).text = none :=
      (f.arguments? line.text).trans hnone
    rw [List.map_cons, nodes_cons_of_none hnone, nodes_cons_of_none hnone',
      ih (List.forall_mem_cons.mp h).2]
    cases nodes lines <;> rfl
  | case3 line lines arguments hsome optionLines e hset =>
    have hsome' : Convention.arguments? (f.line line).text = some arguments :=
      (f.arguments? line.text).trans hsome
    have hoptions : ∀ l ∈ lines.takeWhile isOption, Text.trim (f.text l.text) = Text.trim l.text :=
      fun l hl => h l (List.mem_cons_of_mem _ ((List.takeWhile_sublist _).subset hl))
    rw [List.map_cons, nodes_cons_of_some hsome, nodes_cons_of_some hsome']
    simp only [takeWhile_map_line f (isOption_line f), options_map f hoptions,
      show options [] (lines.takeWhile isOption) = _ from hset]
    rfl
  | case4 line lines arguments hsome optionLines after set hset ih =>
    have hsome' : Convention.arguments? (f.line line).text = some arguments :=
      (f.arguments? line.text).trans hsome
    have hoptions : ∀ l ∈ lines.takeWhile isOption, Text.trim (f.text l.text) = Text.trim l.text :=
      fun l hl => h l (List.mem_cons_of_mem _ ((List.takeWhile_sublist _).subset hl))
    have hrest : ∀ l ∈ after.drop (body after).length,
        Text.trim (f.text l.text) = Text.trim l.text := fun l hl =>
      h l (List.mem_cons_of_mem _ ((List.dropWhile_sublist _).subset
        ((List.drop_sublist _ _).subset hl)))
    rw [List.map_cons, nodes_cons_of_some hsome, nodes_cons_of_some hsome']
    simp only [takeWhile_map_line f (isOption_line f), dropWhile_map_line f (isOption_line f),
      options_map f hoptions, body_map, block_map, List.length_map, ← List.map_drop,
      show options [] (lines.takeWhile isOption) = _ from hset]
    rw [show nodes (((lines.dropWhile isOption).drop _).map _) = _ from ih hrest]
    cases nodes (after.drop (body after).length) <;> rfl

end Grammar

/-! ### Lines at another place -/

/-- The span, so many bytes further on. -/
def Span.move (offset : Nat) (s : Span) : Span :=
  ⟨offset + s.start, offset + s.stop⟩

/-- The line, so many lines and bytes further on. -/
def SourceLine.move (number offset : Nat) (line : SourceLine) : SourceLine :=
  ⟨number + line.number, line.span.move offset, line.text⟩

/-- The error, so many lines further on. -/
def FormatError.move (number : Nat) (e : FormatError) : FormatError :=
  { e with line := number + e.line }

theorem SourceLine.numbered_add (number offset n o : Nat) (texts : List Text) :
    numbered (number + n) (offset + o) texts = (numbered n o texts).map (move number offset) := by
  induction texts generalizing n o with
  | nil => rfl
  | cons text rest ih =>
    rw [numbered, numbered, List.map_cons, Nat.add_assoc, Nat.add_assoc, ih]
    rfl

/-- The labels of lines that are moved. -/
def Relabeling.move (number offset : Nat) : Relabeling :=
  relocation (number + ·) (offset + ·)

/-- A body goes on alike at every place. -/
theorem Grammar.run_map_move (number offset : Nat) (lines : List SourceLine) :
    run (lines.map (.move number offset)) = (run lines).map (.move number offset) :=
  run_map (.move number offset) lines

end Literate
