import Literate.Proofs.Document.Contents
import Literate.Proofs.Document.Written

/-!
# One block rewritten

`load_splice`: the bytes of a block are replaced by another block as it is written.  The elements
before it stay as they are, and those after it are the same at another place.  Where the block
stood, there is one with the kind that was written and the content that a block can carry
(`Text.carried`); blank lines that the content ends with follow it as prose.

Elements do not depend on the labels of the lines that they are read from (`Element.ofLines_map`),
so those after the block are the same, further on or further back.
-/

namespace Literate

/-! ### Kinds that can be written -/

namespace ElementKind

/-- The kind with another content; prose has none. -/
def withContent (content : Text) : ElementKind → ElementKind
  | prose text => prose text
  | start name language render _ => start name language render content
  | replace name render _ => replace name render content
  | diff name render _ => diff name render content
  | excerpt name _ => excerpt name content
  | output name render _ => output name render content

/-- A block can say what the element does: the kind has a name that is a word, and options that
stand on lines. -/
structure IsWritable (kind : ElementKind) (name : Text) : Prop where
  name_eq : kind.name? = some name
  isWord : name.IsWord
  options : ∀ option ∈ kind.options, Convention.IsOption option.1 option.2

variable {kind : ElementKind} {name : Text}

theorem markup_eq (h : kind.name? = some name) :
    kind.markup = blockMarkup kind.keyword name kind.options kind.content := by
  cases kind with
  | prose text => cases h
  | _ =>
    obtain rfl := Option.some.inj h
    rfl

theorem isWord_keyword (h : kind.name? = some name) : kind.keyword.IsWord := by
  cases kind with
  | prose text => cases h
  | start => exact (by decide : (Text.ofString "start").IsWord)
  | replace => exact (by decide : (Text.ofString "replace").IsWord)
  | diff => exact (by decide : (Text.ofString "diff").IsWord)
  | excerpt => exact (by decide : (Text.ofString "render").IsWord)
  | output => exact (by decide : (Text.ofString "output").IsWord)

theorem nodup_options (kind : ElementKind) : (kind.options.map Prod.fst).Nodup := by
  cases kind with
  | prose => exact List.nodup_nil
  | excerpt => exact List.nodup_nil
  | start => exact (by decide : [Text.ofString "language", Text.ofString "render"].Nodup)
  | _ => exact (by decide : [Text.ofString "render"].Nodup)

/-- **A block says what the element does.** -/
theorem read_eq (h : kind.name? = some name) (content : Text) :
    Block.read ⟨[kind.keyword, name], kind.options, content⟩ =
      .ok (kind.withContent content) := by
  cases kind with
  | prose text => cases h
  | start _ language render _ =>
    obtain rfl := Option.some.inj h
    cases render <;> rfl
  | replace _ render _ =>
    obtain rfl := Option.some.inj h
    cases render <;> rfl
  | diff _ render _ =>
    obtain rfl := Option.some.inj h
    cases render <;> rfl
  | excerpt _ _ =>
    obtain rfl := Option.some.inj h
    rfl
  | output _ render _ =>
    obtain rfl := Option.some.inj h
    cases render <;> rfl

theorem isOption_render (render : Bool) :
    Convention.IsOption (Text.ofString "render") (renderValue render) := by
  cases render <;> exact ⟨by decide, List.all_eq_true.mp (by decide), by decide, by decide⟩

end ElementKind

/-! ### Kinds under other labels -/

namespace Relabeling

variable (f : Relabeling)

/-- The kind with its new text. -/
def kind : ElementKind → ElementKind
  | .prose text => .prose (f.text text)
  | kind => kind.withContent (f.text kind.content)

/-- The element with its new labels. -/
def element (e : Element) : Element :=
  ⟨f.number e.line, f.span e.span, f.kind e.kind⟩

theorem kind_relocation (number place : Nat → Nat) (kind : ElementKind) :
    (relocation number place).kind kind = kind := by
  cases kind <;> rfl

theorem readRendered_eq {new old : Bool → ElementKind}
    (h : ∀ render, new render = f.kind (old render)) (options : Options) :
    Block.readRendered options new = (Block.readRendered options old).map f.kind := by
  rw [Block.readRendered, Block.readRendered]
  rcases options.takeRender with fault | ⟨render, rest⟩
  · rfl
  · cases rest with
    | nil => exact congrArg Except.ok (h render)
    | cons option rest => rfl

/-- **A block with another text** says the same, with this text as its content. -/
theorem read_eq (b : Block) :
    Block.read { b with content := f.text b.content } = b.read.map f.kind := by
  obtain ⟨arguments, options, content⟩ := b
  rcases arguments with _ | ⟨keyword, _ | ⟨name, _ | ⟨third, rest⟩⟩⟩
  · rfl
  · rfl
  · simp only [Block.read]
    split_ifs
    · rcases Options.take (Text.ofString "language") options with fault | ⟨language, rest⟩
      · rfl
      · have hrender : ∀ render, ElementKind.start name language render (f.text content) =
            f.kind (.start name language render content) := fun _ => rfl
        exact f.readRendered_eq hrender rest
    · exact f.readRendered_eq (by exact fun _ => rfl) options
    · exact f.readRendered_eq (by exact fun _ => rfl) options
    · exact f.readRendered_eq (by exact fun _ => rfl) options
    · cases options <;> rfl
    · rfl
  · rfl

end Relabeling

namespace Element

variable {source : Text} {lines rest : List SourceLine} {es us before after : List Element}
  {target : Element} {name : Text}

/-! ### Elements of lines -/

/-- The elements of lines. -/
def ofLines (lines : List SourceLine) : Except FormatError (List Element) :=
  match Grammar.nodes lines with
  | .error e => .error e
  | .ok nodes => ofNodes nodes

theorem load_eq (source : Text) : load source = ofLines (SourceLine.ofText source) := by
  have hparse := Grammar.parse_eq_nodes source
  cases hnodes : Grammar.nodes (SourceLine.ofText source) with
  | error e => simp only [load, ofLines, hparse, hnodes]
  | ok nodes => simp only [load, ofLines, hparse, hnodes]

theorem ofLines_eq_ok_iff : ofLines lines = .ok es ↔
    ∃ nodes, Grammar.nodes lines = .ok nodes ∧ ofNodes nodes = .ok es := by
  rw [ofLines]
  cases Grammar.nodes lines <;> simp

theorem ofNodes_cons_eq_ok_iff {node : Node} {nodes : List Node} :
    ofNodes (node :: nodes) = .ok es ↔
      ∃ e later, ofNode node = .ok e ∧ ofNodes nodes = .ok later ∧ es = e :: later := by
  rw [ofNodes]
  cases ofNode node with
  | error e => simp
  | ok e => cases ofNodes nodes <;> simp [eq_comm]

/-- Elements are cut where their nodes are. -/
theorem ofNodes_eq_append_iff {nodes : List Node} :
    ofNodes nodes = .ok (es ++ us) ↔
      ∃ as bs, nodes = as ++ bs ∧ ofNodes as = .ok es ∧ ofNodes bs = .ok us := by
  induction es generalizing nodes with
  | nil =>
    constructor
    · exact fun h => ⟨[], nodes, rfl, rfl, h⟩
    · rintro ⟨as, bs, rfl, has, hbs⟩
      cases as with
      | nil => exact hbs
      | cons node as =>
        obtain ⟨e, later, -, -, hes⟩ := ofNodes_cons_eq_ok_iff.mp has
        cases hes
  | cons e es ih =>
    constructor
    · intro h
      cases nodes with
      | nil => cases h
      | cons node nodes =>
        obtain ⟨e', later, he, hlater, hes⟩ := ofNodes_cons_eq_ok_iff.mp h
        obtain ⟨rfl, rfl⟩ := List.cons.inj hes
        obtain ⟨as, bs, rfl, has, hbs⟩ := ih.mp hlater
        exact ⟨node :: as, bs, rfl, ofNodes_cons_eq_ok_iff.mpr ⟨e, es, he, has, rfl⟩, hbs⟩
    · rintro ⟨as, bs, rfl, has, hbs⟩
      cases as with
      | nil => cases has
      | cons node as =>
        obtain ⟨e', later, he, hlater, hes⟩ := ofNodes_cons_eq_ok_iff.mp has
        obtain ⟨rfl, rfl⟩ := List.cons.inj hes
        exact ofNodes_cons_eq_ok_iff.mpr
          ⟨e, es ++ us, he, ih.mpr ⟨as, bs, rfl, hlater, hbs⟩, rfl⟩

/-- Every element is that of a node. -/
theorem exists_of_mem_ofNodes {nodes : List Node} (h : ofNodes nodes = .ok es) {e : Element}
    (he : e ∈ es) : ∃ node ∈ nodes, ofNode node = .ok e := by
  obtain ⟨before, after, rfl⟩ := List.append_of_mem he
  obtain ⟨as, bs, rfl, -, hbs⟩ := ofNodes_eq_append_iff.mp h
  cases bs with
  | nil => cases hbs
  | cons node bs =>
    obtain ⟨e', later, he', -, heq⟩ := ofNodes_cons_eq_ok_iff.mp hbs
    obtain ⟨rfl, -⟩ := List.cons.inj heq
    exact ⟨node, List.mem_append_right _ List.mem_cons_self, he'⟩

/-- **Where an element of a document stands**: it is a line of prose, or what is said by a block of
lines that stand one after the other, its body last. -/
theorem exists_lines_of_mem_load (h : load source = .ok es) {e : Element} (he : e ∈ es) :
    (∃ line ∈ SourceLine.ofText source, Convention.arguments? line.text = none ∧
        e = ⟨line.number, line.span, .prose line.text⟩) ∨
      ∃ front marker optionLines inner rest t set,
        SourceLine.ofText source = front ++ marker :: (optionLines ++ inner ++ rest) ∧
        Grammar.options [] optionLines = .ok set ∧ inner.rdropWhile Grammar.isBlank = inner ∧
        e.span.stop = Grammar.stopAfter marker.span.stop (optionLines ++ inner) ∧
        Block.read ⟨Text.words t, set, Grammar.content inner⟩ = .ok e.kind := by
  rw [load_eq, ofLines_eq_ok_iff] at h
  obtain ⟨nodes, hnodes, hes⟩ := h
  obtain ⟨node, hnode, he'⟩ := exists_of_mem_ofNodes hes he
  rcases Grammar.exists_of_mem_nodes hnodes hnode with ⟨line, hline, hnone, rfl⟩ |
    ⟨front, marker, arguments, optionLines, inner, rest, set, hlines, hmarker, hset, hlast, rfl⟩
  · exact Or.inl ⟨line, hline, hnone, (Except.ok.inj he').symm⟩
  · obtain ⟨t, -, rfl⟩ := Option.map_eq_some_iff.mp hmarker
    refine Or.inr ⟨front, marker, optionLines, inner, rest, t, set, hlines, hset, hlast, ?_⟩
    rw [ofNode, Grammar.block] at he'
    cases hread : Block.read ⟨Text.words t, set, Grammar.content inner⟩ with
    | error fault =>
      simp only [hread] at he'
      cases he'
    | ok kind =>
      simp only [hread] at he'
      obtain rfl := Except.ok.inj he'
      exact ⟨rfl, rfl⟩

/-- **What an element of a document is**: a line of prose, or what a block says. -/
theorem exists_of_mem_load (h : load source = .ok es) {e : Element} (he : e ∈ es) :
    (∃ line ∈ source.cutLines, Convention.arguments? line = none ∧ e.kind = .prose line) ∨
      ∃ t optionLines set inner, Grammar.options [] optionLines = .ok set ∧
        (∀ l ∈ inner, l.text ∈ source.cutLines) ∧ inner.rdropWhile Grammar.isBlank = inner ∧
        Block.read ⟨Text.words t, set, Grammar.content inner⟩ = .ok e.kind := by
  rcases exists_lines_of_mem_load h he with ⟨line, hline, hnone, rfl⟩ |
    ⟨front, marker, optionLines, inner, rest, t, set, hlines, hset, hlast, -, hread⟩
  · exact Or.inl ⟨line.text, text_mem_cutLines hline, hnone, rfl⟩
  · refine Or.inr ⟨t, optionLines, set, inner, hset, fun l hl => text_mem_cutLines ?_, hlast, hread⟩
    rw [hlines]
    simp [hl]

/-! ### Elements under other labels -/

/-- The element, so many lines and bytes further on. -/
def move (number offset : Nat) (element : Element) : Element :=
  ⟨number + element.line, element.span.move offset, element.kind⟩

theorem ofNode_node (f : Relabeling) (node : Node) :
    ofNode (f.node node) = ((ofNode node).map f.element).mapError f.error := by
  rw [ofNode, ofNode, Relabeling.node]
  cases node.kind with
  | prose text => rfl
  | block b =>
    simp only [Relabeling.nodeKind, f.read_eq]
    cases b.read <;> rfl

theorem ofNodes_map (f : Relabeling) (nodes : List Node) :
    ofNodes (nodes.map f.node) = ((ofNodes nodes).map (List.map f.element)).mapError f.error := by
  induction nodes with
  | nil => rfl
  | cons node nodes ih =>
    rw [List.map_cons, ofNodes, ofNodes, ofNode_node, ih]
    cases ofNode node with
    | error e => rfl
    | ok e => cases ofNodes nodes <;> rfl

/-- **Elements of lines under other labels** are the same under these. -/
theorem ofLines_map (f : Relabeling)
    (h : ∀ l ∈ lines, Text.trim (f.text l.text) = Text.trim l.text) :
    ofLines (lines.map f.line) = ((ofLines lines).map (List.map f.element)).mapError f.error := by
  rw [ofLines, ofLines, Grammar.nodes_map f h]
  cases Grammar.nodes lines with
  | error e => rfl
  | ok nodes => exact ofNodes_map f nodes

/-- **Elements of lines at another place** are the same there. -/
theorem ofLines_map_move (number offset : Nat) (lines : List SourceLine) :
    ofLines (lines.map (.move number offset)) =
      ((ofLines lines).map (List.map (move number offset))).mapError (.move number) := by
  have helement : (Relabeling.move number offset).element = move number offset :=
    funext fun e => congrArg (Element.mk _ _) (Relabeling.kind_relocation _ _ e.kind)
  rw [← helement]
  exact ofLines_map (.move number offset) fun _ _ => rfl

/-! ### A block in a source -/

/-- The element of a block is what the block says. -/
theorem of_ofNode {node : Node} {block : Block} (hkind : node.kind = .block block)
    (h : ofNode node = .ok target) :
    block.read = .ok target.kind ∧ target.line = node.line ∧ target.span = node.span := by
  rw [ofNode, hkind] at h
  cases hread : block.read with
  | error fault =>
    simp only [hread] at h
    cases h
  | ok kind =>
    simp only [hread] at h
    obtain rfl := Except.ok.inj h
    exact ⟨rfl, rfl, rfl⟩

/-- An element with a name comes from a block. -/
theorem exists_of_ofNode {node : Node} (h : ofNode node = .ok target)
    (hname : target.kind.name? = some name) :
    ∃ block, node.kind = .block block ∧ block.read = .ok target.kind ∧
      target.line = node.line ∧ target.span = node.span := by
  cases hk : node.kind with
  | prose text =>
    rw [ofNode, hk] at h
    obtain rfl := Except.ok.inj h
    cases hname
  | block block => exact ⟨block, rfl, of_ofNode hk h⟩

/-- **A block in a source**: the lines before it, its own lines and the lines after it. -/
theorem exists_of_load (h : load source = .ok (before ++ target :: after))
    (hname : target.kind.name? = some name) :
    ∃ front block rest : List Text, source.cutLines = front ++ (block ++ rest) ∧ block ≠ [] ∧
      ofLines (SourceLine.numbered 1 0 front) = .ok before ∧
      target.line = 1 + front.length ∧
      target.span = ⟨Text.byteLength front.flatten, Text.byteLength (front ++ block).flatten⟩ ∧
      ofLines (SourceLine.numbered (1 + (front ++ block).length)
        (Text.byteLength (front ++ block).flatten) rest) = .ok after ∧
      Grammar.run (SourceLine.numbered 0 0 rest) = [] ∧ name.IsWord := by
  rw [load_eq, ofLines_eq_ok_iff] at h
  obtain ⟨nodes, hnodes, hes⟩ := h
  obtain ⟨as, bs, rfl, has, hbs⟩ := ofNodes_eq_append_iff.mp hes
  cases bs with
  | nil => cases hbs
  | cons node bs =>
    obtain ⟨e, later, he, hafter, heq⟩ := ofNodes_cons_eq_ok_iff.mp hbs
    obtain ⟨rfl, rfl⟩ := List.cons.inj heq
    obtain ⟨block, hblock, hread, hline, hspan⟩ := exists_of_ofNode he hname
    obtain ⟨front, lines, rest, hcut, hne, hfront, hline', hspan', hrest, hrun, t, hwords⟩ :=
      Grammar.exists_of_nodes_ofText hblock hnodes
    refine ⟨front, lines, rest, hcut, hne, ofLines_eq_ok_iff.mpr ⟨as, hfront, has⟩,
      hline.trans hline', hspan.trans hspan', ofLines_eq_ok_iff.mpr ⟨bs, hrest, hafter⟩, hrun, ?_⟩
    obtain ⟨keyword, word, harguments, hword, -⟩ := of_read hread
    refine Text.isWord_of_mem_words (t := t) ?_
    rw [← hwords, harguments, Option.some.inj (hname.symm.trans hword)]
    exact List.mem_cons_of_mem _ List.mem_cons_self

/-- Lines that are read at one place are read at every place. -/
theorem exists_of_ofLines_numbered {number offset : Nat} {texts : List Text}
    (h : ofLines (SourceLine.numbered number offset texts) = .ok es) :
    ∃ later : List Element, es = later.map (move number offset) ∧ ∀ number' offset',
      ofLines (SourceLine.numbered number' offset' texts) =
        .ok (later.map (move number' offset')) := by
  have hmove : ∀ number offset, ofLines (SourceLine.numbered number offset texts) =
      ((ofLines (SourceLine.numbered 0 0 texts)).map (List.map (move number offset))).mapError
        (.move number) := fun number offset => by
    rw [← ofLines_map_move, ← SourceLine.numbered_add, Nat.add_zero, Nat.add_zero]
  rw [hmove] at h
  cases hlater : ofLines (SourceLine.numbered 0 0 texts) with
  | error e =>
    rw [hlater] at h
    cases h
  | ok later =>
    rw [hlater] at h
    refine ⟨later, (Except.ok.inj h).symm, fun number' offset' => ?_⟩
    rw [hmove, hlater]
    rfl

/-! ### A written block -/

/-- Lines in front of lines that no block goes on into have elements of their own. -/
theorem ofLines_append (h : Grammar.Detached rest) (hlines : ofLines lines = .ok es)
    (hrest : ofLines rest = .ok us) : ofLines (lines ++ rest) = .ok (es ++ us) := by
  obtain ⟨as, has, hes⟩ := ofLines_eq_ok_iff.mp hlines
  obtain ⟨bs, hbs, hus⟩ := ofLines_eq_ok_iff.mp hrest
  refine ofLines_eq_ok_iff.mpr ⟨as ++ bs, ?_, ofNodes_eq_append_iff.mpr ⟨as, bs, rfl, hes, hus⟩⟩
  rw [Grammar.nodes_append h, has, hbs]
  rfl

theorem ofNodes_ofLine (held : List SourceLine) :
    ofNodes (held.map .ofLine) =
      .ok (held.map fun line => ⟨line.number, line.span, .prose line.text⟩) := by
  induction held with
  | nil => rfl
  | cons line held ih =>
    rw [List.map_cons, ofNodes, ih]
    rfl

/-- **A written block is read as its element**, with the content that a block carries. -/
theorem ofLines_written {kind : ElementKind} (hkind : kind.IsWritable name) (number offset : Nat)
    (h : Grammar.run rest = []) (hrest : ofLines rest = .ok after) :
    ∃ (stop : Nat) (blanks : List Element),
      ofLines (SourceLine.numbered number offset (Convention.writtenBlock kind.keyword name
          kind.options kind.content) ++ rest) =
        .ok (⟨number, ⟨offset, stop⟩, kind.withContent (Text.carried kind.content)⟩ ::
          (blanks ++ after)) ∧
      (∀ e ∈ blanks, e.kind = .prose ['\n']) ∧
      blanks.length = ((Convention.writtenLines kind.content).rtakeWhile Text.isBlank).length := by
  obtain ⟨nodes, hnodes, hafter⟩ := ofLines_eq_ok_iff.mp hrest
  obtain ⟨stop, blanks, hblanks, hlength, hblock⟩ := Grammar.nodes_written
    (ElementKind.isWord_keyword hkind.name_eq) hkind.isWord hkind.options
    (ElementKind.nodup_options kind) kind.content number offset h
  refine ⟨stop, blanks.map fun line => ⟨line.number, line.span, .prose line.text⟩,
    ofLines_eq_ok_iff.mpr ⟨_, (hblock.trans (by rw [hnodes]; rfl)), ?_⟩, ?_, ?_⟩
  · refine ofNodes_cons_eq_ok_iff.mpr ⟨_, _, ?_, ofNodes_eq_append_iff.mpr
      ⟨_, _, rfl, ofNodes_ofLine blanks, hafter⟩, rfl⟩
    rw [ofNode]
    simp only [ElementKind.read_eq hkind.name_eq]
  · intro e he
    obtain ⟨l, hl, rfl⟩ := List.mem_map.mp he
    simp only
    rw [hblanks l hl]
  · rw [List.length_map, hlength]

/-- **A source in which a block is rewritten**: what stands before the block and after it, and the
markup in its place. -/
theorem splice_eq {front block rest : List Text} (kind : ElementKind)
    (hcut : source.cutLines = front ++ (block ++ rest)) (hspan : target.span =
      ⟨Text.byteLength front.flatten, Text.byteLength (front ++ block).flatten⟩) :
    source = front.flatten ++ block.flatten ++ rest.flatten ∧
      { target with kind }.splice source = front.flatten ++ kind.markup ++ rest.flatten := by
  have hsource : source = front.flatten ++ block.flatten ++ rest.flatten := by
    rw [← Text.flatten_cutLines source, hcut, List.flatten_append, List.flatten_append,
      List.append_assoc]
  have htake : Text.takeBytes target.span.start source = front.flatten := by
    rw [hspan, hsource, List.append_assoc, Text.takeBytes_byteLength_append]
  have hdrop : Text.dropBytes target.span.stop source = rest.flatten := by
    rw [hspan, hsource, ← List.flatten_append, Text.dropBytes_byteLength_append]
  exact ⟨hsource, by rw [splice, htake, hdrop, markup]⟩

theorem isEnded_of_mem_written {kind : ElementKind} (hkind : kind.IsWritable name) {l : Text}
    (hl : l ∈ Convention.writtenBlock kind.keyword name kind.options kind.content) : l.IsEnded :=
  Convention.isEnded_of_mem_writtenBlock (ElementKind.isWord_keyword hkind.name_eq) hkind.isWord
    hkind.options hl

/-- The lines of a written block. -/
theorem cutLines_markup {kind : ElementKind} (hkind : kind.IsWritable name) :
    Text.cutLines kind.markup =
      Convention.writtenBlock kind.keyword name kind.options kind.content := by
  rw [ElementKind.markup_eq hkind.name_eq, Convention.blockMarkup_eq,
    Text.cutLines_flatten fun _ hl => isEnded_of_mem_written hkind hl]

/-- The lines of a source in which a block is rewritten. -/
theorem cutLines_splice {kind : ElementKind} {front block rest : List Text}
    (hkind : kind.IsWritable name) (hcut : source.cutLines = front ++ (block ++ rest))
    (hblock : block ≠ []) (hspan : target.span =
      ⟨Text.byteLength front.flatten, Text.byteLength (front ++ block).flatten⟩) :
    Text.cutLines ({ target with kind }.splice source) =
      front ++ (Convention.writtenBlock kind.keyword name kind.options kind.content ++ rest) := by
  have hfront : ∀ l ∈ front, l.IsEnded := by
    obtain ⟨line, block, rfl⟩ := List.exists_cons_of_ne_nil hblock
    exact Text.isEnded_of_cutLines hcut
  have hrest : Text.cutLines rest.flatten = rest := by
    rw [← List.append_assoc] at hcut
    exact Text.cutLines_flatten_of_append hcut
  rw [(splice_eq kind hcut hspan).2, ElementKind.markup_eq hkind.name_eq,
    Convention.blockMarkup_eq, List.append_assoc, Text.cutLines_flatten_append hfront,
    Text.cutLines_flatten_append fun _ hl => isEnded_of_mem_written hkind hl, hrest]

/-- **A written block between other lines**: what stands before it is read as it is alone, and what
stands after it as it is read at every place. -/
theorem ofLines_written_between {kind : ElementKind} (hkind : kind.IsWritable name)
    {front rest written : List Text} {later : List Element}
    (hwritten : Convention.writtenBlock kind.keyword name kind.options kind.content = written)
    (hfront : ofLines (SourceLine.numbered 1 0 front) = .ok before)
    (hrun : Grammar.run (SourceLine.numbered 0 0 rest) = [])
    (hrest : ∀ number offset, ofLines (SourceLine.numbered number offset rest) =
      .ok (later.map (move number offset))) :
    ∃ (stop : Nat) (blanks : List Element),
      ofLines (SourceLine.numbered 1 0 (front ++ (written ++ rest))) =
        .ok (before ++ ⟨1 + front.length, ⟨Text.byteLength front.flatten, stop⟩,
          kind.withContent (Text.carried kind.content)⟩ ::
            (blanks ++ later.map (move (1 + (front ++ written).length)
              (Text.byteLength (front ++ written).flatten)))) ∧
      (∀ e ∈ blanks, e.kind = .prose ['\n']) ∧
      blanks.length = ((Convention.writtenLines kind.content).rtakeWhile Text.isBlank).length := by
  have hnumber : 1 + (front ++ written).length = 1 + front.length + written.length := by
    rw [List.length_append, Nat.add_assoc]
  have hoffset : Text.byteLength (front ++ written).flatten =
      0 + Text.byteLength front.flatten + Text.byteLength written.flatten := by
    rw [List.flatten_append, Text.byteLength_append, Nat.zero_add]
  rw [SourceLine.numbered_append, SourceLine.numbered_append, hnumber, hoffset]
  generalize 1 + front.length + written.length = number at *
  generalize 0 + Text.byteLength front.flatten + Text.byteLength written.flatten = offset at *
  obtain ⟨stop, blanks, hread, hblanks, hlength⟩ := ofLines_written hkind (1 + front.length)
    (0 + Text.byteLength front.flatten) (Grammar.run_numbered_eq_nil hrun number offset)
    (hrest number offset)
  have hdetached := Grammar.detached_written (ElementKind.isWord_keyword hkind.name_eq) hkind.isWord
    kind.options kind.content (1 + front.length) (0 + Text.byteLength front.flatten)
    (SourceLine.numbered number offset rest)
  have happend := ofLines_append hdetached hfront hread
  rw [hwritten, Nat.zero_add] at happend
  rw [Nat.zero_add]
  exact ⟨stop, blanks, happend, hblanks, hlength⟩

/-- **One block rewritten.** -/
theorem load_splice {kind : ElementKind} {name' : Text}
    (h : load source = .ok (before ++ target :: after)) (hname : target.kind.name? = some name)
    (hkind : kind.IsWritable name') :
    ∃ (stop number offset number' offset' : Nat) (blanks later : List Element),
      after = later.map (move number offset) ∧
      load ({ target with kind }.splice source) =
        .ok (before ++ ⟨target.line, ⟨target.span.start, stop⟩,
          kind.withContent (Text.carried kind.content)⟩ ::
            (blanks ++ later.map (move number' offset'))) ∧
      (∀ e ∈ blanks, e.kind = .prose ['\n']) ∧
      blanks.length = ((Convention.writtenLines kind.content).rtakeWhile Text.isBlank).length := by
  obtain ⟨front, block, rest, hcut, hblock, hbefore, hline, hspan, hafter, hrun, -⟩ :=
    exists_of_load h hname
  obtain ⟨later, hlater, hmoved⟩ := exists_of_ofLines_numbered hafter
  obtain ⟨stop, blanks, hread, hblanks, hlength⟩ :=
    ofLines_written_between hkind rfl hbefore hrun hmoved
  have hstart : Text.byteLength front.flatten = target.span.start := by rw [hspan]
  rw [← cutLines_splice hkind hcut hblock hspan, ← SourceLine.ofText, ← load_eq, ← hline, hstart]
    at hread
  exact ⟨stop, _, _, _, _, blanks, later, hlater, hread, hblanks, hlength⟩

end Element

end Literate
