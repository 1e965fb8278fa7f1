import Literate.Document.Markup
import Literate.Document.Reader
import Literate.Proofs.Text.Lines

/-!
# Contents of a document

What the blocks of a document hold.  Reading moves no character and makes none up: the contents of
the elements, one after the other, are a sublist of the source (`sublist_load`).  A content begins
and ends at a line with something on it, so it is empty, or it is not blank and ends with LF if the
source does (`closed_load`).
-/

namespace Literate

/-- A content without anything in it, or one that is not blank and ends with LF. -/
def Text.IsClosed (t : Text) : Prop :=
  t = [] ∨ Text.endsWithNewline t = true ∧ Text.isBlank t = false

/-- The content of an element; prose has none. -/
def ElementKind.content : ElementKind → Text
  | .prose _ => []
  | .start _ _ _ content => content
  | .replace _ _ content => content
  | .diff _ _ content => content
  | .excerpt _ content => content
  | .output _ _ content => content

/-- The content of a node; prose has none. -/
def Node.content (node : Node) : Text :=
  match node.kind with
  | .prose _ => []
  | .block block => block.content

/-- The contents of elements, one after the other. -/
def Element.contents (es : List Element) : Text :=
  (es.map fun e => e.kind.content).flatten

namespace Reading

variable {reading next : Reading} {line : SourceLine} {done : List Node}

/-- What a reader has taken in and not given out as a node: the content of the open block, and the
lines held back. -/
def inHand : Reading → Text
  | outside => []
  | options block => block.content
  | content block _ held => block.content ++ (held.map SourceLine.text).flatten

/-- The content of the open block is closed; before the blank line there is none. -/
def Closed : Reading → Prop
  | outside => True
  | options block => block.content = []
  | content block _ _ => block.content.IsClosed

/-! ### One line -/

theorem sublist_unindent (line : Text) : (Convention.unindent line).Sublist line := by
  unfold Convention.unindent
  split
  · conv => rhs; rw [← Text.dropLineEnd_append_lineEnd line]
    exact List.sublist_append_right _ _
  · cases h : Text.after? Convention.indent line with
    | none => exact List.Sublist.refl _
    | some rest =>
      conv => rhs; rw [Text.after?_eq_some_iff.mp h]
      exact List.sublist_append_right _ _

theorem sublist_flatten_unindent (held : List SourceLine) :
    (held.map fun blank => Convention.unindent blank.text).flatten.Sublist
      (held.map SourceLine.text).flatten := by
  induction held with
  | nil => exact List.Sublist.refl _
  | cons line held ih => exact (sublist_unindent line.text).append ih

theorem contents_ofLine (held : List SourceLine) :
    ((held.map Node.ofLine).map Node.content).flatten = [] := by
  induction held with
  | nil => rfl
  | cons line held ih => exact ih

/-- A line outside every block has no content. -/
theorem contents_outsideStep (line : SourceLine) :
    ((outsideStep line).1.map Node.content).flatten = [] ∧ (outsideStep line).2.inHand = [] := by
  unfold outsideStep
  split
  · exact ⟨rfl, rfl⟩
  · exact ⟨rfl, rfl⟩

theorem sublist_finish (reading : Reading) :
    (reading.finish.map Node.content).flatten.Sublist reading.inHand := by
  cases reading with
  | outside => exact List.Sublist.refl _
  | options block =>
    rw [finish, List.map_singleton, List.flatten_singleton]
    exact List.Sublist.refl _
  | content block started held =>
    rw [finish, List.map_cons, List.flatten_cons, contents_ofLine]
    exact (List.Sublist.refl _).append (List.nil_sublist _)

/-- A line that closes the block, if one is open. -/
theorem sublist_finish_outsideStep (reading : Reading) (line : SourceLine) :
    (((reading.finish ++ (outsideStep line).1).map Node.content).flatten ++
      (outsideStep line).2.inHand).Sublist (reading.inHand ++ line.text) := by
  obtain ⟨hdone, hnext⟩ := contents_outsideStep line
  rw [List.map_append, List.flatten_append, hdone, hnext, List.append_nil, List.append_nil]
  exact (sublist_finish reading).trans (List.sublist_append_left _ _)

theorem content_readOption {block block' : OpenBlock} (h : block.readOption line = .ok block') :
    block'.content = block.content := by
  unfold OpenBlock.readOption at h
  split at h
  · cases h
  · split at h
    · cases h
    · obtain rfl := Except.ok.inj h
      rfl

/-- The content that a line adds to comes from the lines in hand and the line. -/
theorem sublist_addContent (block : OpenBlock) (started : Bool) (held : List SourceLine)
    (line : SourceLine) :
    (block.addContent (if started then held else []) line).content.Sublist
      (block.content ++ (held.map SourceLine.text).flatten ++ line.text) := by
  refine List.Sublist.append (List.Sublist.append (List.Sublist.refl _) ?_)
    (sublist_unindent line.text)
  cases started
  · exact List.nil_sublist _
  · exact sublist_flatten_unindent held

/-- **A line moves no character**: what is given out and kept stood in hand or in the line. -/
theorem sublist_step (h : reading.step line = .ok (done, next)) :
    ((done.map Node.content).flatten ++ next.inHand).Sublist (reading.inHand ++ line.text) := by
  unfold step at h
  split at h
  · obtain ⟨rfl, rfl⟩ := Prod.mk.inj (Except.ok.inj h)
    exact sublist_finish_outsideStep .outside line
  · next block =>
    split at h
    · obtain ⟨rfl, rfl⟩ := Prod.mk.inj (Except.ok.inj h)
      rw [inHand, inHand, List.map_singleton, List.flatten_singleton]
      exact List.Sublist.refl _
    · split at h
      · split at h
        · next block' hread =>
          obtain ⟨rfl, rfl⟩ := Prod.mk.inj (Except.ok.inj h)
          rw [inHand, inHand, content_readOption hread]
          exact List.sublist_append_left _ _
        · cases h
      · obtain ⟨rfl, rfl⟩ := Prod.mk.inj (Except.ok.inj h)
        exact sublist_finish_outsideStep (.options block) line
  · next block started held =>
    split at h
    · obtain ⟨rfl, rfl⟩ := Prod.mk.inj (Except.ok.inj h)
      simp only [inHand, List.map_nil, List.flatten_nil, List.nil_append, List.map_append,
        List.flatten_append, List.map_cons, List.flatten_cons, List.append_nil, List.append_assoc]
      exact List.Sublist.refl _
    · split at h
      · obtain ⟨rfl, rfl⟩ := Prod.mk.inj (Except.ok.inj h)
        simp only [inHand, List.map_nil, List.flatten_nil, List.nil_append, List.append_nil]
        exact sublist_addContent block started held line
      · obtain ⟨rfl, rfl⟩ := Prod.mk.inj (Except.ok.inj h)
        exact sublist_finish_outsideStep (.content block started held) line

/-! ### Closed contents -/

theorem closed_finish (h : reading.Closed) : ∀ node ∈ reading.finish, node.content.IsClosed := by
  intro node hnode
  cases reading with
  | outside => cases hnode
  | options block =>
    rw [List.mem_singleton.mp hnode]
    exact Or.inl h
  | content block started held =>
    rcases List.mem_cons.mp hnode with rfl | hnode
    · exact h
    · obtain ⟨line, -, rfl⟩ := List.mem_map.mp hnode
      exact Or.inl rfl

theorem closed_outsideStep (line : SourceLine) :
    (∀ node ∈ (outsideStep line).1, node.content.IsClosed) ∧ (outsideStep line).2.Closed := by
  unfold outsideStep
  split
  · exact ⟨fun node hnode => absurd hnode List.not_mem_nil, rfl⟩
  · refine ⟨fun node hnode => ?_, trivial⟩
    rw [List.mem_singleton.mp hnode]
    exact Or.inl rfl

theorem closed_finish_outsideStep (h : reading.Closed) (line : SourceLine) :
    (∀ node ∈ reading.finish ++ (outsideStep line).1, node.content.IsClosed) ∧
      (outsideStep line).2.Closed := by
  obtain ⟨hdone, hnext⟩ := closed_outsideStep line
  refine ⟨fun node hnode => ?_, hnext⟩
  rcases List.mem_append.mp hnode with hnode | hnode
  · exact closed_finish h node hnode
  · exact hdone node hnode

/-- A line of content closes the content. -/
theorem closed_addContent (block : OpenBlock) (held : List SourceLine)
    (hb : Text.isBlank line.text = false) (hi : Convention.isIndented line.text = true)
    (hl : Text.endsWithNewline line.text = true) :
    (block.addContent held line).content.IsClosed := by
  obtain ⟨rest, hrest⟩ := Option.isSome_iff_exists.mp hi
  have htext := Text.after?_eq_some_iff.mp hrest
  have hunindent : Convention.unindent line.text = rest := by
    rw [Convention.unindent, hb, if_neg Bool.false_ne_true, hrest]
    rfl
  have hblank : Text.isBlank rest = false := by
    rw [htext, Text.isBlank_append] at hb
    simpa [show Text.isBlank Convention.indent = true by decide] using hb
  have hne : rest ≠ [] := by
    rintro rfl
    cases hblank
  rw [htext, Text.endsWithNewline_append hne] at hl
  refine Or.inr ?_
  rw [OpenBlock.addContent, hunindent]
  refine ⟨?_, ?_⟩
  · rw [Text.endsWithNewline_append hne, hl]
  · rw [Text.isBlank_append, hblank, Bool.and_false]

/-- **A line keeps contents closed**, if it ends with LF. -/
theorem closed_step (hr : reading.Closed) (hl : Text.endsWithNewline line.text = true)
    (h : reading.step line = .ok (done, next)) :
    (∀ node ∈ done, node.content.IsClosed) ∧ next.Closed := by
  have hnone : ∀ node ∈ ([] : List Node), node.content.IsClosed :=
    fun node hnode => absurd hnode List.not_mem_nil
  unfold step at h
  split at h
  · obtain ⟨rfl, rfl⟩ := Prod.mk.inj (Except.ok.inj h)
    exact closed_outsideStep line
  · next block =>
    split at h
    · obtain ⟨rfl, rfl⟩ := Prod.mk.inj (Except.ok.inj h)
      exact ⟨hnone, Or.inl hr⟩
    · split at h
      · split at h
        · next block' hread =>
          obtain ⟨rfl, rfl⟩ := Prod.mk.inj (Except.ok.inj h)
          exact ⟨hnone, (content_readOption hread).trans hr⟩
        · cases h
      · obtain ⟨rfl, rfl⟩ := Prod.mk.inj (Except.ok.inj h)
        exact closed_finish_outsideStep hr line
  · next block started held =>
    split at h
    · obtain ⟨rfl, rfl⟩ := Prod.mk.inj (Except.ok.inj h)
      exact ⟨hnone, hr⟩
    · next hb =>
      split at h
      · next hi =>
        obtain ⟨rfl, rfl⟩ := Prod.mk.inj (Except.ok.inj h)
        exact ⟨hnone, closed_addContent block _ (Bool.eq_false_iff.mpr hb) hi hl⟩
      · obtain ⟨rfl, rfl⟩ := Prod.mk.inj (Except.ok.inj h)
        exact closed_finish_outsideStep hr line

/-! ### All lines -/

variable {lines : List SourceLine} {nodes : List Node}

/-- **Reading moves no character.** -/
theorem sublist_nodes (h : reading.nodes lines = .ok nodes) :
    (nodes.map Node.content).flatten.Sublist
      (reading.inHand ++ (lines.map SourceLine.text).flatten) := by
  induction lines generalizing reading nodes with
  | nil =>
    obtain rfl := Except.ok.inj h
    exact (sublist_finish reading).trans (List.sublist_append_left _ _)
  | cons line rest ih =>
    rw [Reading.nodes] at h
    split at h
    · cases h
    · next done next hstep =>
      split at h
      · cases h
      · next later hlater =>
        obtain rfl := Except.ok.inj h
        rw [List.map_append, List.flatten_append, List.map_cons, List.flatten_cons,
          ← List.append_assoc]
        refine ((List.Sublist.refl _).append (ih hlater)).trans ?_
        rw [← List.append_assoc]
        exact (sublist_step hstep).append (List.Sublist.refl _)

/-- **Reading closes contents**, if all lines end with LF. -/
theorem closed_nodes (hr : reading.Closed)
    (hl : ∀ line ∈ lines, Text.endsWithNewline line.text = true)
    (h : reading.nodes lines = .ok nodes) : ∀ node ∈ nodes, node.content.IsClosed := by
  induction lines generalizing reading nodes with
  | nil =>
    obtain rfl := Except.ok.inj h
    exact closed_finish hr
  | cons line rest ih =>
    obtain ⟨hline, hrest⟩ := List.forall_mem_cons.mp hl
    rw [Reading.nodes] at h
    split at h
    · cases h
    · next done next hstep =>
      obtain ⟨hdone, hnext⟩ := closed_step hr hline hstep
      split at h
      · cases h
      · next later hlater =>
        obtain rfl := Except.ok.inj h
        intro node hnode
        rcases List.mem_append.mp hnode with hnode | hnode
        · exact hdone node hnode
        · exact ih hnext hrest hlater node hnode

end Reading

/-! ### Elements -/

namespace Element

variable {source : Text} {es : List Element} {nodes : List Node}

/-- An option that is taken is one of the options, and so are those that are left. -/
theorem mem_of_take {key value : Text} {options rest : Options}
    (h : options.take key = .ok (value, rest)) : (key, value) ∈ options ∧ rest ⊆ options := by
  unfold Options.take at h
  split at h
  · next k v hfind =>
    obtain ⟨rfl, rfl⟩ := Prod.mk.inj (Except.ok.inj h)
    have hkey : k = key := by simpa using List.find?_some hfind
    exact ⟨hkey ▸ List.mem_of_find?_eq_some hfind, List.filter_sublist.subset⟩
  · cases h

/-- A truth value that is taken stands among the options as it is written. -/
theorem mem_of_takeRender {render : Bool} {options rest : Options}
    (h : options.takeRender = .ok (render, rest)) :
    (Text.ofString "render", renderValue render) ∈ options := by
  unfold Options.takeRender at h
  split at h
  · cases h
  · next value rest' htake =>
    obtain ⟨hmem, -⟩ := mem_of_take htake
    split_ifs at h with htrue hfalse
    · obtain ⟨rfl, -⟩ := Prod.mk.inj (Except.ok.inj h)
      rwa [htrue] at hmem
    · obtain ⟨rfl, -⟩ := Prod.mk.inj (Except.ok.inj h)
      rwa [hfalse] at hmem

theorem exists_of_readRendered {options : Options} {kind : Bool → ElementKind} {k : ElementKind}
    (h : Block.readRendered options kind = .ok k) :
    ∃ render, k = kind render ∧ (Text.ofString "render", renderValue render) ∈ options := by
  unfold Block.readRendered at h
  cases ht : options.takeRender with
  | error fault =>
    rw [ht] at h
    cases h
  | ok result =>
    obtain ⟨render, rest⟩ := result
    rw [ht] at h
    cases rest with
    | nil => exact ⟨render, (Except.ok.inj h).symm, mem_of_takeRender ht⟩
    | cons option rest => cases h

/-- **What is read of a block**: two words after its marker, the second of them the name, its
content, and options of the block. -/
theorem of_read {block : Block} {kind : ElementKind} (h : block.read = .ok kind) :
    ∃ keyword name, block.arguments = [keyword, name] ∧ kind.name? = some name ∧
      kind.content = block.content ∧ kind.options ⊆ block.options := by
  unfold Block.read at h
  split at h
  · next keyword name harguments =>
    refine ⟨keyword, name, harguments, ?_⟩
    split at h
    · cases hl : Options.take (Text.ofString "language") block.options with
      | error fault =>
        rw [hl] at h
        cases h
      | ok result =>
        obtain ⟨language, options⟩ := result
        rw [hl] at h
        have hread : Block.readRendered options (.start name language · block.content) = .ok kind :=
          h
        obtain ⟨render, rfl, hrender⟩ := exists_of_readRendered hread
        obtain ⟨hlanguage, hrest⟩ := mem_of_take hl
        exact ⟨rfl, rfl, List.cons_subset.mpr ⟨hlanguage, by simpa using hrest hrender⟩⟩
    · split at h
      · obtain ⟨render, rfl, hrender⟩ := exists_of_readRendered h
        exact ⟨rfl, rfl, List.cons_subset.mpr ⟨hrender, List.nil_subset _⟩⟩
      · split at h
        · obtain ⟨render, rfl, hrender⟩ := exists_of_readRendered h
          exact ⟨rfl, rfl, List.cons_subset.mpr ⟨hrender, List.nil_subset _⟩⟩
        · split at h
          · obtain ⟨render, rfl, hrender⟩ := exists_of_readRendered h
            exact ⟨rfl, rfl, List.cons_subset.mpr ⟨hrender, List.nil_subset _⟩⟩
          · split at h
            · cases ho : block.options with
              | nil =>
                rw [ho] at h
                obtain rfl := Except.ok.inj h
                exact ⟨rfl, rfl, List.Subset.refl _⟩
              | cons option options =>
                rw [ho] at h
                cases h
            · cases h
  · cases h

theorem content_ofNode {node : Node} {e : Element} (h : ofNode node = .ok e) :
    e.kind.content = node.content := by
  unfold ofNode at h
  split at h
  · next hk =>
    obtain rfl := Except.ok.inj h
    rw [Node.content, hk]
    rfl
  · next block hk =>
    split at h
    · next kind hkind =>
      obtain rfl := Except.ok.inj h
      rw [Node.content, hk]
      obtain ⟨keyword, name, -, -, hcontent, -⟩ := of_read hkind
      exact hcontent
    · cases h

/-- Elements have the contents of their nodes. -/
theorem map_content_ofNodes (h : ofNodes nodes = .ok es) :
    es.map (fun e => e.kind.content) = nodes.map Node.content := by
  induction nodes generalizing es with
  | nil =>
    obtain rfl := Except.ok.inj h
    rfl
  | cons node rest ih =>
    rw [ofNodes] at h
    split at h
    · cases h
    · next e he =>
      split at h
      · cases h
      · next later hlater =>
        obtain rfl := Except.ok.inj h
        rw [List.map_cons, List.map_cons, content_ofNode he, ih hlater]

/-- Lines of a document are lines of its text. -/
theorem text_mem_cutLines {line : SourceLine} (h : line ∈ SourceLine.ofText source) :
    line.text ∈ source.cutLines := by
  rw [← SourceLine.map_text_numbered 1 0 source.cutLines]
  exact List.mem_map_of_mem h

theorem exists_nodes_of_load (h : load source = .ok es) :
    ∃ nodes, Reading.outside.nodes (SourceLine.ofText source) = .ok nodes ∧
      es.map (fun e => e.kind.content) = nodes.map Node.content := by
  unfold load at h
  split at h
  · cases h
  · next nodes hnodes => exact ⟨nodes, hnodes, map_content_ofNodes h⟩

/-- **The contents are a sublist of the source.** -/
theorem sublist_load (h : load source = .ok es) : (contents es).Sublist source := by
  obtain ⟨nodes, hnodes, hmap⟩ := exists_nodes_of_load h
  have := Reading.sublist_nodes hnodes
  rwa [← hmap, SourceLine.ofText, SourceLine.map_text_numbered, Text.flatten_cutLines] at this

/-- **The contents are closed**, if the source is empty or ends with LF. -/
theorem closed_load (hs : source = [] ∨ Text.endsWithNewline source = true)
    (h : load source = .ok es) : ∀ e ∈ es, e.kind.content.IsClosed := by
  obtain ⟨nodes, hnodes, hmap⟩ := exists_nodes_of_load h
  have hlines : ∀ line ∈ SourceLine.ofText source, Text.endsWithNewline line.text = true :=
    fun _ hline => Text.endsWithNewline_of_mem_cutLines hs (text_mem_cutLines hline)
  intro e he
  have hmem : e.kind.content ∈ nodes.map Node.content := by
    rw [← hmap]
    exact List.mem_map_of_mem he
  obtain ⟨node, hnode, hcontent⟩ := List.mem_map.mp hmem
  rw [← hcontent]
  have houtside : Reading.outside.Closed := trivial
  exact Reading.closed_nodes houtside hlines hnodes node hnode

end Element

end Literate
