import Literate.Proofs.Document.Reread

/-!
# How the elements of a document lie

The elements of a document lie one after the other on its lines, and leave none out: `Tiles`.  Prose
is a line of its own.  A block takes up some lines, and no body goes on in the lines after it.
`tiles_of_load` says that the elements of every document lie so, also of one that does not end with
LF.  `StandsOn` is what is known of a block wherever it lies: it can be written, and its content
begins and ends with a line that is not blank.
-/

namespace Literate

/-- The kind is that of a block which takes up the lines. -/
structure ElementKind.StandsOn (kind : ElementKind) (lines : List Text) : Prop where
  ne_nil : lines ≠ []
  isWritable : ∃ name, kind.IsWritable name
  isBounded : kind.content.IsBounded
  ended : (∀ l ∈ lines, l.IsEnded) →
    kind.content = [] ∨ Text.endsWithNewline kind.content = true

namespace Element

/-- **The elements lie one after the other** on the lines, of which the first has the number
`number` and begins at byte `offset`. -/
inductive Tiles : (number offset : Nat) → List Text → List Element → Prop
  | nil (number offset : Nat) : Tiles number offset [] []
  | prose {number offset : Nat} {line : Text} {rest : List Text} {es : List Element}
      (h : Convention.arguments? line = none)
      (tail : Tiles (number + 1) (offset + line.byteLength) rest es) :
      Tiles number offset (line :: rest)
        (⟨number, ⟨offset, offset + line.byteLength⟩, .prose line⟩ :: es)
  | block {number offset : Nat} {lines rest : List Text} {kind : ElementKind} {es : List Element}
      (h : kind.StandsOn lines) (hrun : Grammar.run (SourceLine.numbered 0 0 rest) = [])
      (tail : Tiles (number + lines.length) (offset + Text.byteLength lines.flatten) rest es) :
      Tiles number offset (lines ++ rest)
        (⟨number, ⟨offset, offset + Text.byteLength lines.flatten⟩, kind⟩ :: es)

variable {number offset : Nat} {texts : List Text} {es : List Element} {source : Text}

theorem Tiles.eq_nil (h : Tiles number offset [] es) : es = [] := by
  generalize hnone : ([] : List Text) = texts at h
  cases h with
  | nil => rfl
  | prose => cases hnone
  | block hstands => exact absurd (List.append_eq_nil_iff.mp hnone.symm).1 hstands.ne_nil

/-- Only the last element may lack its LF: lines are ended, or no element follows them. -/
theorem Tiles.isEnded_or_eq_nil {lines : List Text} (h : Tiles number offset texts es)
    (hcut : Text.cutLines (lines ++ texts).flatten = lines ++ texts) :
    (∀ l ∈ lines, l.IsEnded) ∨ es = [] := by
  cases texts with
  | nil => exact Or.inr h.eq_nil
  | cons next texts => exact Or.inl (Text.isEnded_of_cutLines hcut)

/-- **A line of prose is cut** from what is made of the elements after it. -/
theorem Tiles.cutLines_append {line t : Text} (h : Tiles number offset texts es)
    (hcut : Text.cutLines (line :: texts).flatten = line :: texts) (ht : es = [] → t = []) :
    Text.cutLines (line ++ t) = line :: Text.cutLines t := by
  have hcut' : Text.cutLines ([line] ++ texts).flatten = [line] ++ texts := hcut
  rcases h.isEnded_or_eq_nil hcut' with hended | hnil
  · have happend := Text.cutLines_flatten_append hended t
    rwa [List.flatten_singleton] at happend
  · have hline := Text.cutLines_flatten_of_append_left hcut'
    rw [List.flatten_singleton] at hline
    rw [ht hnil, List.append_nil, hline]
    rfl

/-- What is said by a block whose body comes last among its lines. -/
theorem standsOn_of_read {front : List Text} {inner optionLines : List SourceLine} {b : Block}
    {kind : ElementKind} {t : Text} (hne : front ≠ [])
    (hcut : Text.cutLines (front ++ inner.map SourceLine.text).flatten =
      front ++ inner.map SourceLine.text)
    (hwords : b.arguments = Text.words t) (hset : Grammar.options [] optionLines = .ok b.options)
    (hcontent : b.content = Grammar.content inner)
    (hlast : inner.rdropWhile Grammar.isBlank = inner) (hread : b.read = .ok kind) :
    kind.StandsOn (front ++ inner.map SourceLine.text) := by
  obtain ⟨arguments, set, content⟩ := b
  obtain rfl : arguments = Text.words t := hwords
  obtain rfl : content = Grammar.content inner := hcontent
  obtain ⟨-, -, -, -, hkind, -⟩ := of_read hread
  refine ⟨List.append_ne_nil_of_left_ne_nil hne _, ?_, ?_, ?_⟩
  · exact exists_isWritable_of_read
      (Grammar.isOption_of_options (List.forall_mem_nil _) hset) hread
  · rw [hkind]
    exact Grammar.isBounded_content (Text.cutLines_flatten_of_append hcut) hlast
  · intro hended
    rw [hkind]
    refine Grammar.ended_content fun l hl => hended l.text ?_
    exact List.mem_append_right _ (List.mem_map_of_mem hl)

/-- The elements of lines lie on them, if the lines are those of a text. -/
theorem tiles_of_ofLines (hcut : Text.cutLines texts.flatten = texts)
    (h : ofLines (SourceLine.numbered number offset texts) = .ok es) :
    Tiles number offset texts es := by
  induction es generalizing number offset texts with
  | nil =>
    obtain ⟨nodes, hnodes, hes⟩ := ofLines_eq_ok_iff.mp h
    cases nodes with
    | nil =>
      cases texts with
      | nil => exact .nil number offset
      | cons text texts => exact absurd rfl (Grammar.ne_nil_of_nodes hnodes)
    | cons node nodes =>
      obtain ⟨e, later, -, -, hcons⟩ := ofNodes_cons_eq_ok_iff.mp hes
      cases hcons
  | cons e es ih =>
    obtain ⟨nodes, hnodes, hes⟩ := ofLines_eq_ok_iff.mp h
    cases nodes with
    | nil => cases hes
    | cons node nodes =>
      obtain ⟨e', later, he, hlater, hcons⟩ := ofNodes_cons_eq_ok_iff.mp hes
      obtain ⟨rfl, rfl⟩ := List.cons.inj hcons
      cases hkind : node.kind with
      | prose text =>
        obtain ⟨line, rest, rfl, hnone, rfl, hrest⟩ :=
          Grammar.exists_of_nodes_numbered_prose hkind hnodes
        obtain rfl := Except.ok.inj he
        have hcut' : Text.cutLines (line :: rest).flatten = [line] ++ rest := hcut
        exact .prose hnone (ih (Text.cutLines_flatten_of_append hcut')
          (ofLines_eq_ok_iff.mpr ⟨nodes, hrest, hlater⟩))
      | block b =>
        obtain ⟨front, rest, optionLines, inner, t, rfl, hne, hline, hspan, hwords, hset, hcontent,
          hlast, hafter, hrun⟩ := Grammar.exists_of_nodes_numbered hkind hnodes
        obtain ⟨hread, hline', hspan'⟩ := of_ofNode hkind he
        have hstands := standsOn_of_read hne (Text.cutLines_flatten_of_append_left hcut) hwords hset
          hcontent hlast hread
        obtain ⟨line, span, kind⟩ := e
        obtain rfl : line = number := hline'.trans hline
        obtain rfl : span = _ := hspan'.trans hspan
        exact .block hstands hrun (ih (Text.cutLines_flatten_of_append hcut)
          (ofLines_eq_ok_iff.mpr ⟨nodes, hafter, hlater⟩))

/-- **The elements of a document lie on its lines.** -/
theorem tiles_of_load (h : load source = .ok es) : Tiles 1 0 source.cutLines es := by
  rw [load_eq] at h
  refine tiles_of_ofLines ?_ h
  rw [Text.flatten_cutLines]

end Element

end Literate
