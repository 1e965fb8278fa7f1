import Literate.Proofs.Document.Layout
import Mathlib.Data.List.Forall2

/-!
# The canonical form of a document

`Element.canonical source`: the elements of a document, written one after the other.  It is read
back as elements that say the same (`canonical_of_load`): each has the kind of the old one, with an
LF alone for each blank line of its content and an LF after the last line.  So the canonical form
of the canonical form is the canonical form.

The argument goes along the way in which the elements lie (`Element.Tiles`).  Blank lines between
two blocks are prose and stay so, since no body goes on in what is written after a block if none
did before (`Tiles.run_markups`).
-/

namespace Literate

/-! ### Content that is written twice -/

theorem Text.carriedLine_carriedLine (line : Text) :
    carriedLine (carriedLine line) = carriedLine line := by
  have hblank := Convention.isBlank_carriedLine line
  nth_rewrite 1 [carriedLine]
  by_cases hb : isBlank line = true
  · rw [if_pos (hblank.trans hb), carriedLine, if_pos hb]
  · have hended : endsWithNewline (carriedLine line) = true := by
      rw [carriedLine, if_neg hb]
      split
      · assumption
      · exact endsWithNewline_append_newline line
    rw [hblank, if_neg hb, if_pos hended]

theorem Convention.writtenLine_carriedLine (line : Text) :
    writtenLine (Text.carriedLine line) = writtenLine line := by
  rw [writtenLine, writtenLine, isBlank_carriedLine, Text.carriedLine_carriedLine]

theorem Text.cutLines_relined (t : Text) : cutLines (relined t) = (cutLines t).map carriedLine :=
  cutLines_map_carriedLine fun _ hl => hl

theorem Text.relined_eq_nil_iff {t : Text} : relined t = [] ↔ t = [] := by
  constructor
  · intro h
    have hlines := cutLines_relined t
    rw [h] at hlines
    have hnil : cutLines t = [] := List.map_eq_nil_iff.mp hlines.symm
    rw [← flatten_cutLines t, hnil]
    rfl
  · rintro rfl
    rfl

/-- A content is written as it is after it has been written and read back. -/
theorem Convention.writtenLines_relined (content : Text) :
    writtenLines content.relined = writtenLines content := by
  rw [writtenLines, writtenLines]
  by_cases hc : content = []
  · rw [if_pos hc, if_pos (Text.relined_eq_nil_iff.mpr hc)]
  · have hwritten : writtenLine ∘ Text.carriedLine = writtenLine :=
      funext writtenLine_carriedLine
    rw [if_neg hc, if_neg (mt Text.relined_eq_nil_iff.mp hc), Text.cutLines_relined,
      List.map_map, hwritten]

theorem ElementKind.markup_relined (kind : ElementKind) :
    (kind.withContent kind.content.relined).markup = kind.markup := by
  have hcontent : contentMarkup kind.content.relined = contentMarkup kind.content := by
    rw [Convention.contentMarkup_eq, Convention.contentMarkup_eq, Convention.writtenLines_relined]
  cases kind with
  | prose text => rfl
  | _ =>
    simp only [markup, withContent, blockMarkup]
    exact congrArg _ hcontent

/-! ### Where no body goes on -/

/-- No body goes on in lines if the first of them is outside of it, or blank and none goes on
after it. -/
theorem Grammar.run_cons_eq_nil_iff {line : SourceLine} {rest : List SourceLine} :
    run (line :: rest) = [] ↔
      isInner line = false ∨ isBlank line = true ∧ run rest = [] := by
  rw [run, List.rdropWhile_eq_nil_iff]
  by_cases hi : isInner line = true
  · rw [List.takeWhile_cons_of_pos hi, List.forall_mem_cons, run, List.rdropWhile_eq_nil_iff]
    simp [hi]
  · rw [List.takeWhile_cons_of_neg hi]
    simp [Bool.eq_false_iff.mpr hi]

namespace Element

variable {number offset : Nat} {texts : List Text} {es : List Element} {source : Text}

/-- Elements as they are written, one after the other. -/
def markups (es : List Element) : Text :=
  (es.map markup).flatten

/-- **The canonical form** of a document. -/
def canonical (source : Text) : Except FormatError Text :=
  (load source).map markups

theorem markups_cons (e : Element) (es : List Element) :
    markups (e :: es) = e.markup ++ markups es :=
  rfl

/-- The lines of a written block are cut from what is written after it. -/
theorem cutLines_markups_cons {e : Element} {name : Text} (hkind : e.kind.IsWritable name)
    (es : List Element) :
    Text.cutLines (markups (e :: es)) =
      Convention.writtenBlock e.kind.keyword name e.kind.options e.kind.content ++
        Text.cutLines (markups es) := by
  rw [markups_cons, markup, ElementKind.markup_eq hkind.name_eq, Convention.blockMarkup_eq,
    Text.cutLines_flatten_append fun _ hl => isEnded_of_mem_written hkind hl]

theorem markups_eq_nil (h : es = []) : markups es = [] := by
  rw [h]
  rfl

/-- **No body goes on** in the written elements if none goes on in the lines that they were read
from. -/
theorem Tiles.run_markups (h : Tiles number offset texts es)
    (hcut : Text.cutLines texts.flatten = texts)
    (hrun : Grammar.run (SourceLine.numbered 0 0 texts) = []) :
    Grammar.run (SourceLine.numbered 0 0 (Text.cutLines (markups es))) = [] := by
  induction h with
  | nil number offset => rfl
  | @prose number offset line rest es hnone tail ih =>
    have hcut' : Text.cutLines (line :: rest).flatten = [line] ++ rest := hcut
    rw [markups_cons, show markup _ = line from rfl, tail.cutLines_append hcut markups_eq_nil,
      SourceLine.numbered, Grammar.run_cons_eq_nil_iff]
    rw [SourceLine.numbered, Grammar.run_cons_eq_nil_iff] at hrun
    rcases hrun with houter | ⟨hblank, hrest⟩
    · exact Or.inl houter
    · exact Or.inr ⟨hblank, Grammar.run_numbered_eq_nil (ih (Text.cutLines_flatten_of_append hcut')
        (Grammar.run_numbered_eq_nil hrest 0 0)) _ _⟩
  | @block number offset lines rest kind es hstands _ _ _ =>
    obtain ⟨name, hkind⟩ := hstands.isWritable
    rw [cutLines_markups_cons hkind, SourceLine.numbered_append]
    exact Grammar.run_eq_nil_of_detached (Grammar.detached_written
      (ElementKind.isWord_keyword hkind.name_eq) hkind.isWord _ _ 0 0 _)

/-- **Written elements are read back** in their order, each with what it said. -/
theorem Tiles.exists_of_markups (h : Tiles number offset texts es)
    (hcut : Text.cutLines texts.flatten = texts) (number' offset' : Nat) :
    ∃ es', ofLines (SourceLine.numbered number' offset' (Text.cutLines (markups es))) = .ok es' ∧
      List.Forall₂ (fun e e' => e'.kind = e.kind.withContent e.kind.content.relined) es es' := by
  induction h generalizing number' offset' with
  | nil number offset => exact ⟨[], ofLines_nil, .nil⟩
  | @prose number offset line rest es hnone tail ih =>
    have hcut' : Text.cutLines (line :: rest).flatten = [line] ++ rest := hcut
    obtain ⟨es', hread, hkinds⟩ := ih (Text.cutLines_flatten_of_append hcut') (number' + 1)
      (offset' + line.byteLength)
    rw [markups_cons, show markup _ = line from rfl, tail.cutLines_append hcut markups_eq_nil,
      SourceLine.numbered]
    exact ⟨_, ofLines_cons_of_none number' offset' hnone hread, .cons rfl hkinds⟩
  | @block number offset lines rest kind es hstands hrun tail ih =>
    obtain ⟨name, hkind⟩ := hstands.isWritable
    have hcut' := Text.cutLines_flatten_of_append hcut
    rw [cutLines_markups_cons hkind, SourceLine.numbered_append]
    generalize number' + List.length _ = next
    generalize offset' + Text.byteLength _ = place
    obtain ⟨es', hread, hkinds⟩ := ih hcut' next place
    obtain ⟨stop, hblock⟩ := ofLines_written_of_isBounded hkind hstands.isBounded number' offset'
      (Grammar.run_numbered_eq_nil (tail.run_markups hcut' hrun) next place) hread
    exact ⟨_, hblock, .cons rfl hkinds⟩

theorem markups_eq_of_forall₂ {es es' : List Element}
    (h : List.Forall₂ (fun e e' => e'.kind = e.kind.withContent e.kind.content.relined) es es') :
    markups es' = markups es := by
  induction h with
  | nil => rfl
  | @cons e e' es es' hkind _ ih =>
    rw [markups_cons, markups_cons, ih, markup, markup, hkind, ElementKind.markup_relined]

/-- **The canonical form of a document** is a document with the same elements in their order, and is
its own canonical form.  The contents are the same up to their blank lines, which are LFs alone, and
the LF after the last line. -/
theorem canonical_of_load (h : load source = .ok es) :
    ∃ text es', canonical source = .ok text ∧ load text = .ok es' ∧
      List.Forall₂ (fun e e' => e'.kind = e.kind.withContent e.kind.content.relined) es es' ∧
      canonical text = .ok text := by
  have hcut : Text.cutLines source.cutLines.flatten = source.cutLines := by
    rw [Text.flatten_cutLines]
  obtain ⟨es', hread, hkinds⟩ := (tiles_of_load h).exists_of_markups hcut 1 0
  rw [← SourceLine.ofText, ← load_eq] at hread
  refine ⟨markups es, es', by rw [canonical, h]; rfl, hread, hkinds, ?_⟩
  rw [canonical, hread, ← markups_eq_of_forall₂ hkinds]
  rfl

/-- Options in another order, white space on blank lines, blank lines between two blocks, and a last
line without LF. -/
theorem canonical_of_load_unended :
    let source := Text.ofString (".. diff-doc:: start  a\n    :render: True\n    :language: sh\n" ++
      "  \n\n    x\n  \r\n      y\n\n\n.. diff-doc:: render a\n\n    x")
    let text := Text.ofLines
      [".. diff-doc:: start a", "    :language: sh", "    :render: True", "", "    x", "",
        "      y", "", "", ".. diff-doc:: render a", "", "    x"]
    let es : List Element :=
      [⟨1, ⟨0, 81⟩, .start ['a'] (Text.ofString "sh") true (Text.ofString "x\n\r\n  y\n")⟩,
        ⟨9, ⟨81, 82⟩, .prose ['\n']⟩, ⟨10, ⟨82, 83⟩, .prose ['\n']⟩,
        ⟨11, ⟨83, 112⟩, .excerpt ['a'] ['x']⟩]
    load source = .ok es ∧ canonical source = .ok text ∧ ∃ es', load text = .ok es' ∧
      List.Forall₂ (fun e e' => e'.kind = e.kind.withContent e.kind.content.relined) es es' ∧
      canonical text = .ok text := by
  intro source text es
  have h : load source = .ok es := by decide +kernel
  have htext : canonical source = .ok text := by decide +kernel
  obtain ⟨text', es', htext', hload, hkinds, hagain⟩ := canonical_of_load h
  obtain rfl : text = text' := Except.ok.inj (htext.symm.trans htext')
  exact ⟨h, htext, es', hload, hkinds, hagain⟩

end Element

end Literate
