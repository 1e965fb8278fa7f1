import Literate.Proofs.Document.Locality
import Mathlib.Data.List.Chain

/-!
# The nodes of a document tile its source

Every byte of a source belongs to one node, and the nodes stand in the order of their bytes
(`Node.tiling_of_parse`).  A node begins at the beginning of a line and stops at the end of one, it
knows the number of its first line, and prose is the line that it stands on.

`Node.Lie before rest nodes`: the nodes lie one after the other on the text `rest`, which follows
the text `before`.  The nodes that the grammar finds lie so on their lines (`lie_of_nodes`), and
what is said of a tiling is read off along this derivation.
-/

namespace Literate

namespace Text

/-- Ended lines have one LF each. -/
theorem newlineCount_flatten {ls : List Text} (h : ∀ l ∈ ls, IsEnded l) :
    newlineCount ls.flatten = ls.length := by
  rw [← length_lines (ended_flatten h), lines, List.length_map, cutLines_flatten h]

theorem newlineCount_append (s t : Text) :
    newlineCount (s ++ t) = newlineCount s + newlineCount t :=
  List.count_append

theorem newlineCount_pos {t : Text} (h : endsWithNewline t = true) : 0 < newlineCount t := by
  rw [endsWithNewline, decide_eq_true_iff] at h
  exact List.count_pos_iff.mpr (List.mem_of_getLast? h)

theorem byteLength_pos {t : Text} (h : t ≠ []) : 0 < byteLength t := by
  cases t with
  | nil => exact absurd rfl h
  | cons c t =>
    rw [byteLength_cons]
    exact Nat.add_pos_left c.utf8Size_pos _

end Text

namespace Node

/-- **The node is what stands at `own`**, after the text `before` and in front of `rest`: whole
lines, of which it knows the bytes and the first number.  Prose is one line, and has its text. -/
structure StandsAt (before own rest : Text) (node : Node) : Prop where
  ne_nil : own ≠ []
  span : node.span = ⟨before.byteLength, before.byteLength + own.byteLength⟩
  line : node.line = 1 + Text.newlineCount before
  begins : before = [] ∨ Text.endsWithNewline before = true
  ends : Text.endsWithNewline own = true ∨ rest = []
  prose : ∀ text, node.kind = .prose text → text = own ∧ Text.cutLines text = [text]

/-- The nodes lie one after the other on the text `rest`, which follows the text `before`. -/
inductive Lie : (before rest : Text) → List Node → Prop
  | nil (before : Text) : Lie before [] []
  | cons {before own rest : Text} {node : Node} {nodes : List Node}
      (head : node.StandsAt before own rest) (tail : Lie (before ++ own) rest nodes) :
      Lie before (own ++ rest) (node :: nodes)

/-- **The nodes tile the source.** -/
structure Tiling (source : Text) (nodes : List Node) : Prop where
  eq_nil_iff : nodes = [] ↔ source = []
  start_eq : ∀ node ∈ nodes.head?, node.span.start = 0
  start_eq_stop : nodes.IsChain fun a b => b.span.start = a.span.stop
  stop_eq : ∀ node ∈ nodes.getLast?, node.span.stop = source.byteLength
  line_lt : nodes.Pairwise fun a b => a.line < b.line
  standsAt : ∀ node ∈ nodes, node.span.isEmpty = false ∧
    ∃ before own rest, source = before ++ own ++ rest ∧ node.StandsAt before own rest

variable {before rest source : Text} {node : Node} {nodes : List Node}

/-! ### Nodes that lie on a text -/

theorem StandsAt.isEmpty_span {own : Text} (h : node.StandsAt before own rest) :
    node.span.isEmpty = false := by
  have hpos := Text.byteLength_pos h.ne_nil
  rw [h.span, Span.isEmpty, Span.length, Nat.add_sub_cancel_left, beq_eq_false_iff_ne]
  exact Nat.ne_of_gt hpos

theorem Lie.eq_nil_iff (h : Lie before rest nodes) : nodes = [] ↔ rest = [] := by
  cases h with
  | nil => simp
  | cons head => simp [head.ne_nil]

theorem Lie.start_eq (h : Lie before rest nodes) :
    ∀ node ∈ nodes.head?, node.span.start = before.byteLength := by
  cases h with
  | nil => simp
  | cons head =>
    intro node hnode
    obtain rfl := Option.some.inj hnode
    rw [head.span]

theorem Lie.start_eq_stop (h : Lie before rest nodes) :
    nodes.IsChain fun a b => b.span.start = a.span.stop := by
  induction h with
  | nil => exact .nil
  | cons head tail ih =>
    refine List.isChain_cons.mpr ⟨fun next hnext => ?_, ih⟩
    rw [tail.start_eq next hnext, head.span, Text.byteLength_append]

theorem Lie.stop_eq (h : Lie before rest nodes) :
    ∀ node ∈ nodes.getLast?, node.span.stop = before.byteLength + rest.byteLength := by
  induction h with
  | nil => simp
  | @cons before own rest first nodes head tail ih =>
    intro node hnode
    rw [Text.byteLength_append, ← Nat.add_assoc, ← Text.byteLength_append]
    rw [List.getLast?_cons, Option.mem_some_iff] at hnode
    cases hlast : nodes.getLast? with
    | none =>
      rw [hlast] at hnode
      obtain rfl : first = node := hnode
      rw [tail.eq_nil_iff.mp (List.getLast?_eq_none_iff.mp hlast), head.span,
        Text.byteLength_append]
      rfl
    | some last =>
      rw [hlast] at hnode
      obtain rfl : last = node := hnode
      exact ih last hlast

/-- The lines are counted on from those of the text before. -/
theorem Lie.le_line (h : Lie before rest nodes) :
    ∀ node ∈ nodes, 1 + Text.newlineCount before ≤ node.line := by
  induction h with
  | nil => simp
  | cons head tail ih =>
    refine List.forall_mem_cons.mpr ⟨Nat.le_of_eq head.line.symm, fun node hnode => ?_⟩
    have hle := ih node hnode
    rw [Text.newlineCount_append] at hle
    omega

theorem Lie.line_lt (h : Lie before rest nodes) : nodes.Pairwise fun a b => a.line < b.line := by
  induction h with
  | nil => exact .nil
  | cons head tail ih =>
    refine List.pairwise_cons.mpr ⟨fun next hnext => ?_, ih⟩
    have hended := head.ends.resolve_right fun hrest => by
      rw [tail.eq_nil_iff.mpr hrest] at hnext
      cases hnext
    have hpos := Text.newlineCount_pos hended
    have hle := tail.le_line next hnext
    rw [Text.newlineCount_append] at hle
    rw [head.line]
    omega

theorem Lie.standsAt (h : Lie before rest nodes) : ∀ node ∈ nodes,
    ∃ front own last, rest = front ++ own ++ last ∧ node.StandsAt (before ++ front) own last := by
  induction h with
  | nil => simp
  | @cons before own rest first nodes head tail ih =>
    refine List.forall_mem_cons.mpr ⟨⟨[], own, rest, rfl, by rwa [List.append_nil]⟩, ?_⟩
    intro node hnode
    obtain ⟨front, text, last, rfl, hstands⟩ := ih node hnode
    exact ⟨own ++ front, text, last, by simp only [List.append_assoc],
      by rwa [← List.append_assoc]⟩

theorem Lie.tiling (h : Lie [] source nodes) : Tiling source nodes where
  eq_nil_iff := h.eq_nil_iff
  start_eq := h.start_eq
  start_eq_stop := h.start_eq_stop
  stop_eq node hnode := (h.stop_eq node hnode).trans (Nat.zero_add _)
  line_lt := h.line_lt
  standsAt node hnode := by
    obtain ⟨front, own, last, hsource, hstands⟩ := h.standsAt node hnode
    exact ⟨hstands.isEmpty_span, front, own, last, hsource, hstands⟩

/-! ### Nodes that lie on lines -/

/-- A node that takes up the first lines of a text, in front of nodes that are read from the others
and lie on them wherever they stand. -/
theorem Lie.cons_lines {lines others : List Text} (hne : lines ≠ [])
    (hcut : Text.cutLines (lines ++ others).flatten = lines ++ others)
    (hbegins : before = [] ∨ Text.endsWithNewline before = true)
    (hline : node.line = 1 + Text.newlineCount before)
    (hspan : node.span =
      ⟨before.byteLength, before.byteLength + Text.byteLength lines.flatten⟩)
    (hprose : ∀ text, node.kind = .prose text → lines = [text])
    (hothers : Grammar.nodes (SourceLine.numbered (1 + Text.newlineCount before + lines.length)
      (before.byteLength + Text.byteLength lines.flatten) others) = .ok nodes)
    (hlie : ∀ {before : Text}, before = [] ∨ Text.endsWithNewline before = true →
      Grammar.nodes (SourceLine.numbered (1 + Text.newlineCount before) before.byteLength others) =
        .ok nodes → Lie before others.flatten nodes) :
    Lie before (lines ++ others).flatten (node :: nodes) := by
  have hlines := Text.cutLines_flatten_of_append_left hcut
  have hown : lines.flatten ≠ [] := by
    intro hnil
    rw [hnil] at hlines
    exact hne hlines.symm
  have hended : others ≠ [] → ∀ l ∈ lines, l.IsEnded := by
    intro hothers
    obtain ⟨next, rest, rfl⟩ := List.exists_cons_of_ne_nil hothers
    exact Text.isEnded_of_cutLines hcut
  have hends : others ≠ [] → Text.endsWithNewline lines.flatten = true := fun hothers =>
    (Text.ended_flatten (hended hothers)).resolve_left hown
  rw [List.flatten_append]
  refine .cons ⟨hown, hspan, hline, hbegins, ?_, fun text htext => ?_⟩ ?_
  · by_cases hnil : others = []
    · exact Or.inr (by rw [hnil]; rfl)
    · exact Or.inl (hends hnil)
  · obtain rfl := hprose text htext
    rw [List.flatten_singleton] at hlines ⊢
    exact ⟨rfl, hlines⟩
  · by_cases hnil : others = []
    · subst hnil
      rw [SourceLine.numbered, Grammar.nodes_nil] at hothers
      rw [← Except.ok.inj hothers]
      exact .nil _
    · refine hlie (Or.inr ?_) ?_
      · rw [Text.endsWithNewline_append hown, hends hnil]
      · rwa [Text.newlineCount_append, Text.newlineCount_flatten (hended hnil),
          Text.byteLength_append, ← Nat.add_assoc]

/-- **Nodes lie on their lines.** -/
theorem lie_of_nodes {texts : List Text} (hcut : Text.cutLines texts.flatten = texts)
    (hbegins : before = [] ∨ Text.endsWithNewline before = true)
    (h : Grammar.nodes (SourceLine.numbered (1 + Text.newlineCount before) before.byteLength
      texts) = .ok nodes) : Lie before texts.flatten nodes := by
  induction nodes generalizing before texts with
  | nil =>
    cases texts with
    | nil => exact .nil before
    | cons text texts => exact absurd rfl (Grammar.ne_nil_of_nodes h)
  | cons node nodes ih =>
    cases hkind : node.kind with
    | prose text =>
      obtain ⟨line, others, rfl, -, rfl, hothers⟩ := Grammar.exists_of_nodes_numbered_prose hkind h
      have hcut' : Text.cutLines ([line] ++ others).flatten = [line] ++ others := hcut
      refine Lie.cons_lines (List.cons_ne_nil _ _) hcut' hbegins rfl ?_ ?_ ?_
        (ih (Text.cutLines_flatten_of_append hcut'))
      · rw [List.flatten_singleton]
      · intro text htext
        rw [NodeKind.prose.inj htext]
      · rwa [List.flatten_singleton]
    | block b =>
      obtain ⟨front, others, -, inner, -, rfl, hne, hline, hspan, -, -, -, -, hothers, -⟩ :=
        Grammar.exists_of_nodes_numbered hkind h
      refine Lie.cons_lines (List.append_ne_nil_of_left_ne_nil hne _) hcut hbegins hline hspan ?_
        hothers (ih (Text.cutLines_flatten_of_append hcut))
      intro text htext
      rw [hkind] at htext
      cases htext

/-- **The nodes of a document tile its source.** -/
theorem tiling_of_parse (h : parse source = .ok nodes) : Tiling source nodes := by
  rw [Grammar.parse_eq_nodes] at h
  have hcut : Text.cutLines source.cutLines.flatten = source.cutLines := by
    rw [Text.flatten_cutLines]
  have hlie : Lie [] source.cutLines.flatten nodes := lie_of_nodes hcut (Or.inl rfl) h
  rw [Text.flatten_cutLines] at hlie
  exact hlie.tiling

/-- A blank line inside a block and one after it, and a last line without LF. -/
theorem tiling_of_parse_unended :
    let source := Text.ofString "é\n.. diff-doc:: render a\n\n    x\n \n    y\n  \nz"
    let nodes : List Node :=
      [⟨1, ⟨0, 3⟩, .prose (Text.ofString "é\n")⟩,
        ⟨2, ⟨3, 41⟩, .block ⟨[Text.ofString "render", ['a']], [], Text.ofString "x\n\ny\n"⟩⟩,
        ⟨7, ⟨41, 44⟩, .prose (Text.ofString "  \n")⟩, ⟨8, ⟨44, 45⟩, .prose ['z']⟩]
    parse source = .ok nodes ∧ Tiling source nodes := by
  intro source nodes
  have h : parse source = .ok nodes := by decide +kernel
  exact ⟨h, tiling_of_parse h⟩

end Node

end Literate
