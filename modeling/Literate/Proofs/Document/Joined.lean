import Literate.Proofs.Document.Locality

/-!
# A document that goes on

A text that is empty or ends with LF, and after it another one that begins with a line which is
neither blank nor indented.  No block of the first goes on into the second, so both are read as they
are alone (`Node.parse_append`): the nodes of the second follow those of the first, moved on to
where they stand, and the first fault of the two texts is the fault of both together.
-/

namespace Literate

/-- The node, so many lines and bytes further on. -/
def Node.move (number offset : Nat) (node : Node) : Node :=
  ⟨number + node.line, node.span.move offset, node.kind⟩

theorem Relabeling.node_move (number offset : Nat) (node : Node) :
    (Relabeling.move number offset).node node = node.move number offset := by
  obtain ⟨line, span, kind⟩ := node
  cases kind <;> rfl

namespace Grammar

/-- **Lines at another place** are read alike. -/
theorem nodes_map_move (number offset : Nat) (lines : List SourceLine) :
    nodes (lines.map (.move number offset)) =
      ((nodes lines).map (List.map (.move number offset))).mapError (.move number) := by
  rw [← show (Relabeling.move number offset).node = Node.move number offset from
    funext (Relabeling.node_move number offset)]
  exact nodes_map (.move number offset) fun _ _ => rfl

/-- Where a text begins with a line that is neither blank nor indented, no block goes on. -/
theorem detached_numbered {texts : List Text} (number offset : Nat)
    (h : ∀ line ∈ texts.head?, Text.isBlank line = false ∧ Convention.isIndented line = false) :
    Detached (SourceLine.numbered number offset texts) := by
  cases texts with
  | nil => exact detached_nil
  | cons line rest =>
    obtain ⟨hblank, hindented⟩ := h line rfl
    refine detached_cons ?_
    rw [isInner, hindented, Bool.or_false]
    exact hblank

end Grammar

/-- A text that is empty or ends with LF, and what follows it, as lines with their places. -/
theorem SourceLine.ofText_append {a : Text} (ha : a = [] ∨ Text.endsWithNewline a = true)
    (b : Text) :
    ofText (a ++ b) =
      ofText a ++ (ofText b).map (move (Text.newlineCount a) (Text.byteLength a)) := by
  have hcount : a.cutLines.length = Text.newlineCount a := by
    rw [← Text.length_lines ha, Text.lines, List.length_map]
  have hmove : numbered (Text.newlineCount a + 1) (Text.byteLength a) b.cutLines =
      (numbered 1 0 b.cutLines).map (move (Text.newlineCount a) (Text.byteLength a)) :=
    numbered_add (Text.newlineCount a) (Text.byteLength a) 1 0 b.cutLines
  rw [ofText, ofText, ofText, ← hmove, Text.cutLines_append_of_ended ha, numbered_append,
    Text.flatten_cutLines, hcount, Nat.add_comm 1, Nat.zero_add]

/-- **Two texts are read one after the other**, if the first is empty or ends with LF and the second
is empty or begins with a line that is neither blank nor indented. -/
theorem Node.parse_append {a b : Text} (ha : a = [] ∨ Text.endsWithNewline a = true)
    (hb : ∀ line ∈ b.cutLines.head?,
      Text.isBlank line = false ∧ Convention.isIndented line = false) :
    parse (a ++ b) =
      match parse a with
      | .error e => .error e
      | .ok before =>
        match parse b with
        | .error e => .error (e.move (Text.newlineCount a))
        | .ok later => .ok (before ++ later.map (move (Text.newlineCount a) a.byteLength)) := by
  have hdetached : Grammar.Detached
      ((SourceLine.ofText b).map (.move (Text.newlineCount a) a.byteLength)) := by
    rw [SourceLine.ofText, ← SourceLine.numbered_add]
    exact Grammar.detached_numbered _ _ hb
  rw [Grammar.parse_eq_nodes, Grammar.parse_eq_nodes, Grammar.parse_eq_nodes,
    SourceLine.ofText_append ha, Grammar.nodes_append hdetached, Grammar.nodes_map_move]
  cases Grammar.nodes (SourceLine.ofText a) with
  | error e => rfl
  | ok before => cases Grammar.nodes (SourceLine.ofText b) <;> rfl

/-- The first text ends inside the content of a block, with a blank line held back, and the second
begins with prose.  The block comes to its end there, and the blank line is prose after it. -/
theorem Node.parse_append_held :
    let a := Text.ofLines ["é", ".. diff-doc:: render a", "", "    x", "  "]
    let b := Text.ofLines ["y", ".. diff-doc:: start b", "    :c: d"]
    let block : Block := ⟨[Text.ofString "render", ['a']], [], Text.ofString "x\n"⟩
    let next : Block := ⟨[Text.ofString "start", ['b']], [(['c'], ['d'])], []⟩
    (a = [] ∨ Text.endsWithNewline a = true) ∧
      (∀ line ∈ b.cutLines.head?,
        Text.isBlank line = false ∧ Convention.isIndented line = false) ∧
      parse (a ++ b) = .ok
        ([⟨1, ⟨0, 3⟩, .prose (Text.ofString "é\n")⟩, ⟨2, ⟨3, 33⟩, .block block⟩,
          ⟨5, ⟨33, 36⟩, .prose (Text.ofString "  \n")⟩] ++
          [⟨5 + 1, ⟨36 + 0, 36 + 2⟩, .prose (Text.ofString "y\n")⟩,
            ⟨5 + 2, ⟨36 + 2, 36 + 34⟩, .block next⟩]) := by
  intro a b block next
  have ha : a = [] ∨ Text.endsWithNewline a = true := Or.inr (by decide)
  have hb : ∀ line ∈ b.cutLines.head?,
      Text.isBlank line = false ∧ Convention.isIndented line = false := by decide +kernel
  have hparse : parse a = .ok [⟨1, ⟨0, 3⟩, .prose (Text.ofString "é\n")⟩,
      ⟨2, ⟨3, 33⟩, .block block⟩, ⟨5, ⟨33, 36⟩, .prose (Text.ofString "  \n")⟩] := by
    decide +kernel
  have hparse' : parse b = .ok [⟨1, ⟨0, 2⟩, .prose (Text.ofString "y\n")⟩,
      ⟨2, ⟨2, 34⟩, .block next⟩] := by
    decide +kernel
  refine ⟨ha, hb, ?_⟩
  rw [parse_append ha hb, hparse, hparse']
  rfl

end Literate
