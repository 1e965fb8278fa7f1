import Literate.Proofs.Document.Frame
import Literate.Proofs.Document.Reread

/-!
# Elements that were read are well formed

What every element of a document is like, whatever the document looks like (`isWellFormed_of_load`):
names are words, a language is trimmed and stands on one line, a content begins and ends with a line
that is not blank, and nothing but line ends is left of the blank lines in it.  Only where the
document ends without LF does a content do so (`Element.IsWellFormed.ended`).

The lines of a content are those of a body without their indentation, and a body is a part of the
lines of the document (`exists_lines_of_mem_load`).  So a line of it that no LF ends is the last one
of the document.
-/

namespace Literate

open Convention

/-- **A well-formed element** of a document. -/
structure Element.IsWellFormed (source : Text) (e : Element) : Prop where
  isWord : ∀ name ∈ e.kind.name?, name.IsWord
  trim : ∀ language ∈ e.kind.language?, Text.trim language = language
  newline : ∀ language ∈ e.kind.language?, '\n' ∉ language
  isBounded : e.kind.content.IsBounded
  blank : ∀ line ∈ Text.cutLines e.kind.content, Text.isBlank line = true →
    ∀ c ∈ line, Text.isLineEnd c = true
  /-- A line of the content that no LF ends is the last one of the content and of the document, and
  the element goes on to the end of the document. -/
  ended : ∀ line ∈ Text.cutLines e.kind.content, Text.endsWithNewline line = false →
    (Text.cutLines e.kind.content).getLast? = some line ∧
      source.cutLines.getLast?.map unindent = some line ∧ e.span.stop = source.byteLength
  /-- Prose is one line of the document, and does not begin with the marker. -/
  prose : ∀ text, e.kind = .prose text →
    ⟨e.line, e.span, text⟩ ∈ SourceLine.ofText source ∧ Text.beginsWith marker text = false

/-! ### Lines without their indentation -/

/-- Nothing but line ends is left of a blank line. -/
theorem Convention.isLineEnd_of_mem_unindent {line : Text} (h : Text.isBlank line = true) :
    ∀ c ∈ unindent line, Text.isLineEnd c = true := by
  intro c hc
  rw [unindent, if_pos h, Text.lineEnd, List.mem_reverse] at hc
  exact List.mem_takeWhile_imp hc

/-! ### The body of a block in its document -/

namespace Grammar

variable {source : Text} {front inner : List SourceLine}

/-- The lines of a document that follow one another are cut from their text. -/
theorem cutLines_flatten_of_ofText {rest : List SourceLine}
    (h : SourceLine.ofText source = front ++ (inner ++ rest)) :
    Text.cutLines (inner.map SourceLine.text).flatten = inner.map SourceLine.text := by
  have hlines := congrArg (List.map SourceLine.text) h
  rw [SourceLine.ofText, SourceLine.map_text_numbered, List.map_append, List.map_append] at hlines
  have hrest := Text.cutLines_flatten_of_append hlines
  exact Text.cutLines_flatten_of_append_left hrest

/-- A line of a document that no LF ends is the last one. -/
theorem eq_nil_of_not_isEnded {line : SourceLine} {after : List SourceLine}
    (h : SourceLine.ofText source = front ++ line :: after) (hline : ¬ line.text.IsEnded) :
    after = [] := by
  have hlines := congrArg (List.map SourceLine.text) h
  rw [SourceLine.ofText, SourceLine.map_text_numbered, List.map_append, List.map_cons] at hlines
  cases after with
  | nil => rfl
  | cons next after =>
    rw [List.map_cons, List.append_cons] at hlines
    refine absurd (Text.isEnded_of_cutLines hlines line.text ?_) hline
    exact List.mem_append_right _ (List.mem_singleton_self _)

/-- The last line of a document stops where the document does. -/
theorem stopAfter_eq_byteLength {marker : SourceLine} {lines : List SourceLine}
    (h : SourceLine.ofText source = front ++ marker :: lines) :
    stopAfter marker.span.stop lines = source.byteLength := by
  rw [← stopAfter_append_cons 0 front, ← h, SourceLine.ofText, stopAfter_numbered, Nat.zero_add,
    Text.flatten_cutLines]

/-- **A line of a content that no LF ends** is the last one, of the content and of the document. -/
theorem last_of_not_ended {rest : List SourceLine}
    (h : SourceLine.ofText source = front ++ (inner ++ rest))
    (hlast : inner.rdropWhile isBlank = inner) {line : Text}
    (hline : line ∈ Text.cutLines (content inner))
    (hended : Text.endsWithNewline line = false) :
    (Text.cutLines (content inner)).getLast? = some line ∧
      source.cutLines.getLast?.map unindent = some line ∧ rest = [] := by
  rw [cutLines_content (cutLines_flatten_of_ofText h) hlast] at hline ⊢
  obtain ⟨l, hl, rfl⟩ := List.mem_map.mp hline
  obtain ⟨before, after, hkept⟩ := List.append_of_mem hl
  obtain ⟨blanks, hblanks⟩ := List.dropWhile_suffix isBlank (l := inner)
  have hlines : SourceLine.ofText source = (front ++ blanks ++ before) ++ l :: (after ++ rest) := by
    rw [h, ← hblanks, hkept]
    simp only [List.append_assoc, List.cons_append]
  have hnot : ¬ l.text.IsEnded := by
    intro hl
    obtain ⟨s, -, hs⟩ := isEnded_unindent hl
    rw [hs, Text.endsWithNewline_append_newline] at hended
    cases hended
  obtain ⟨rfl, rfl⟩ := List.append_eq_nil_iff.mp (eq_nil_of_not_isEnded hlines hnot)
  refine ⟨?_, ?_, rfl⟩
  · rw [hkept, List.getLast?_map, List.getLast?_append]
    rfl
  · rw [← SourceLine.map_text_numbered 1 0 source.cutLines, ← SourceLine.ofText, hlines,
      List.getLast?_map, List.getLast?_append]
    rfl

end Grammar

namespace Element

variable {source : Text} {es : List Element} {e : Element}

/-- A line of prose is well formed. -/
theorem isWellFormed_of_line {line : SourceLine} (hline : line ∈ SourceLine.ofText source)
    (hnone : arguments? line.text = none) :
    IsWellFormed source ⟨line.number, line.span, .prose line.text⟩ where
  isWord := nofun
  trim := nofun
  newline := nofun
  isBounded := Text.isBounded_nil
  blank := nofun
  ended := nofun
  prose := by
    rintro _ ⟨⟩
    refine ⟨hline, ?_⟩
    rw [Text.beginsWith, Option.map_eq_none_iff.mp hnone]
    rfl

/-- **The elements of a document are well formed.** -/
theorem isWellFormed_of_load (h : load source = .ok es) (he : e ∈ es) : e.IsWellFormed source := by
  rcases exists_lines_of_mem_load h he with ⟨line, hline, hnone, rfl⟩ |
    ⟨front, marker, optionLines, inner, rest, t, set, hlines, -, hlast, hstop, hread⟩
  · exact isWellFormed_of_line hline hnone
  · obtain ⟨keyword, name, -, hname, hcontent, -⟩ := of_read hread
    have hwritable := isWritable_of_load h he hname
    have hbody : SourceLine.ofText source =
        (front ++ marker :: optionLines) ++ (inner ++ rest) := by
      rw [hlines]
      simp only [List.append_assoc, List.cons_append]
    have hcut := Grammar.cutLines_flatten_of_ofText hbody
    refine ⟨fun name' hname' => ?_, fun l hl => (hwritable.language l hl).1,
      fun l hl => (hwritable.language l hl).2, ?_, ?_, ?_, fun text htext => ?_⟩
    · obtain rfl := Option.some.inj (hname.symm.trans hname')
      exact hwritable.isWord
    · rw [hcontent]
      exact Grammar.isBounded_content hcut hlast
    · rw [hcontent, Grammar.cutLines_content hcut hlast]
      intro line hline hblank
      obtain ⟨l, -, rfl⟩ := List.mem_map.mp hline
      exact isLineEnd_of_mem_unindent ((isBlank_unindent l.text).symm.trans hblank)
    · rw [hcontent]
      intro line hline hended
      obtain ⟨hcontentLast, hsourceLast, rfl⟩ :=
        Grammar.last_of_not_ended hbody hlast hline hended
      rw [List.append_nil] at hlines
      exact ⟨hcontentLast, hsourceLast, hstop.trans (Grammar.stopAfter_eq_byteLength hlines)⟩
    · rw [htext] at hname
      cases hname

/-- A content with blank lines in it that goes on to the end of a document without LF. -/
theorem isWellFormed_of_load_unended :
    let source := Text.ofString "é\n.. diff-doc::  start\u00a0a\n    :render: False\n" ++
      Text.ofString "    :language:  c d \u2003\n\n \u0085\n    x\n \t\r\n\n      y"
    let e : Element :=
      ⟨2, ⟨3, 93⟩, .start ['a'] (Text.ofString "c d") false (Text.ofString "x\n\r\n\n  y")⟩
    let es := [⟨1, ⟨0, 3⟩, .prose (Text.ofString "é\n")⟩, e]
    load source = .ok es ∧ e ∈ es ∧ e.IsWellFormed source := by
  intro source e es
  have h : load source = .ok es := by decide +kernel
  have he : e ∈ es := List.mem_cons_of_mem _ List.mem_cons_self
  exact ⟨h, he, isWellFormed_of_load h he⟩

end Element

end Literate
