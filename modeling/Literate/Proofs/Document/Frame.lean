import Literate.Proofs.Document.Carried
import Literate.Proofs.Document.Splice
import Mathlib.Data.List.Forall2

/-!
# Rewriting is local

What a rewritten block does to the rest of its document: nothing but to move what follows it
(`load_splice_frame`).  No byte outside of the block is touched.  The elements before it stay as
they are, and those after it are further on or back by as many lines and bytes as the written block
has more or less than the old one.  No block goes on into its neighbours, whatever its content looks
like: content is written one step further in, so no line of it is read as a marker or as an option.
-/

namespace Literate

/-- The language of a new snippet. -/
def ElementKind.language? : ElementKind → Option Text
  | .start _ language _ _ => some language
  | _ => none

/-- The same element at another place: `lines` and `bytes` further on, or back if they are
negative. -/
structure Element.IsShift (lines bytes : Int) (e e' : Element) : Prop where
  kind : e'.kind = e.kind
  line : (e'.line : Int) = e.line + lines
  start : (e'.span.start : Int) = e.span.start + bytes
  stop : (e'.span.stop : Int) = e.span.stop + bytes

variable {source name : Text} {kind : ElementKind}

/-- A kind can be written if its name is a word and its language stands on a line. -/
theorem ElementKind.isWritable (hname : kind.name? = some name) (hword : name.IsWord)
    (hlanguage : ∀ language ∈ kind.language?, Text.trim language = language ∧ '\n' ∉ language) :
    kind.IsWritable name := by
  refine ⟨hname, hword, ?_⟩
  cases kind with
  | prose text => cases hname
  | excerpt name content => exact List.forall_mem_nil _
  | start name language render content =>
    obtain ⟨htrim, hline⟩ := hlanguage language rfl
    have hkey : ∀ c ∈ Text.ofString "language", Convention.isKeyChar c = true :=
      List.all_eq_true.mp (by decide)
    have hne : Text.ofString "language" ≠ [] := by decide
    exact List.forall_mem_cons.mpr ⟨⟨hne, hkey, htrim, hline⟩,
      List.forall_mem_singleton.mpr (isOption_render render)⟩
  | replace name render content => exact List.forall_mem_singleton.mpr (isOption_render render)
  | diff name render content => exact List.forall_mem_singleton.mpr (isOption_render render)
  | output name render content => exact List.forall_mem_singleton.mpr (isOption_render render)

/-- The language of a kind that can be written stands on a line. -/
theorem ElementKind.IsWritable.language (h : kind.IsWritable name) :
    ∀ language ∈ kind.language?, Text.trim language = language ∧ '\n' ∉ language := by
  cases kind with
  | start name language render content =>
    have hoption := h.options _ List.mem_cons_self
    rintro _ ⟨⟩
    exact ⟨hoption.trim, hoption.newline⟩
  | _ => nofun

namespace Element

variable {before after : List Element} {target : Element} {name' : Text}

/-- Elements that are moved to two places are the same at these. -/
theorem forall₂_isShift_move {number offset number' offset' : Nat} {lines bytes : Int}
    (hlines : (number' : Int) = number + lines) (hbytes : (offset' : Int) = offset + bytes)
    (es : List Element) :
    List.Forall₂ (IsShift lines bytes) (es.map (move number offset))
      (es.map (move number' offset')) := by
  rw [List.forall₂_map_left_iff, List.forall₂_map_right_iff]
  refine List.forall₂_same.mpr fun e _ => ⟨rfl, ?_, ?_, ?_⟩ <;>
    simp only [move, Span.move] <;> omega

/-- **A rewritten block leaves the rest of its document alone.** -/
theorem load_splice_frame (h : load source = .ok (before ++ target :: after))
    (htarget : target.kind.name? = some name') (hname : kind.name? = some name)
    (hword : name.IsWord)
    (hlanguage : ∀ language ∈ kind.language?, Text.trim language = language ∧ '\n' ∉ language)
    (hcontent : kind.content.IsBounded) :
    ∃ front old rest : Text, source = front ++ old ++ rest ∧
      target.span = ⟨Text.byteLength front, Text.byteLength (front ++ old)⟩ ∧
      { target with kind }.splice source = front ++ kind.markup ++ rest ∧
      ∃ (stop : Nat) (later : List Element),
        load ({ target with kind }.splice source) =
          .ok (before ++ ⟨target.line, ⟨target.span.start, stop⟩,
            kind.withContent kind.content.relined⟩ :: later) ∧
        List.Forall₂ (IsShift ((Text.cutLines kind.markup).length - (Text.cutLines old).length)
          (Text.byteLength kind.markup - Text.byteLength old)) after later := by
  have hkind := ElementKind.isWritable hname hword hlanguage
  obtain ⟨front, block, rest, hcut, hblock, hbefore, hline, hspan, hafter, hrun, -⟩ :=
    exists_of_load h htarget
  obtain ⟨es, rfl, hmoved⟩ := exists_of_ofLines_numbered hafter
  obtain ⟨hsource, hsplice⟩ := splice_eq kind hcut hspan
  obtain ⟨stop, blanks, hread, -, hlength⟩ :=
    ofLines_written_between hkind rfl hbefore hrun hmoved
  -- A bounded content leaves no blank line behind it.
  rw [hcontent.rtakeWhile_writtenLines, List.length_nil, List.length_eq_zero_iff] at hlength
  rw [hlength, List.nil_append, hcontent.carried_eq] at hread
  have hold : Text.cutLines block.flatten = block :=
    Text.cutLines_flatten_of_append_left (Text.cutLines_flatten_of_append hcut)
  have hstart : Text.byteLength front.flatten = target.span.start := by rw [hspan]
  rw [← cutLines_splice hkind hcut hblock hspan, ← SourceLine.ofText, ← load_eq, ← hline, hstart]
    at hread
  refine ⟨front.flatten, block.flatten, rest.flatten, hsource, by rw [hspan, List.flatten_append],
    hsplice, stop, _, hread, forall₂_isShift_move ?_ ?_ es⟩
  · rw [hold, cutLines_markup hkind, List.length_append, List.length_append]
    omega
  · rw [List.flatten_append, List.flatten_append, Text.byteLength_append, Text.byteLength_append,
      ← cutLines_markup hkind, Text.flatten_cutLines]
    omega

/-- An output block is rewritten as the start of a snippet.  Its content has a line that looks like
an option and one that looks like a marker, and the next block follows at once. -/
theorem load_splice_frame_started :
    let source := Text.ofLines
      ["Old", ".. diff-doc:: output a", "    :render: True", "", "    b",
        ".. diff-doc:: render a", "", "    c"]
    let first : Element := ⟨1, ⟨0, 4⟩, .prose (Text.ofString "Old\n")⟩
    let target : Element := ⟨2, ⟨4, 52⟩, .output ['a'] true (Text.ofString "b\n")⟩
    let last : Element := ⟨6, ⟨52, 82⟩, .excerpt ['a'] (Text.ofString "c\n")⟩
    let kind : ElementKind := .start ['a'] (Text.ofString "sh") true
      (Text.ofString "b\n\n    :c: d\n.. diff-doc:: e")
    load source = .ok ([first] ++ target :: [last]) ∧
      ∃ front old rest : Text, source = front ++ old ++ rest ∧
        target.span = ⟨Text.byteLength front, Text.byteLength (front ++ old)⟩ ∧
        { target with kind }.splice source = front ++ kind.markup ++ rest ∧
        ∃ (stop : Nat) (later : List Element),
          load ({ target with kind }.splice source) =
            .ok ([first] ++ ⟨2, ⟨4, stop⟩, .start ['a'] (Text.ofString "sh") true
              (Text.ofString "b\n\n    :c: d\n.. diff-doc:: e\n")⟩ :: later) ∧
          List.Forall₂ (IsShift ((Text.cutLines kind.markup).length - (Text.cutLines old).length)
            (Text.byteLength kind.markup - Text.byteLength old)) [last] later := by
  intro source first target last kind
  have h : load source = .ok ([first] ++ target :: [last]) := by decide +kernel
  have hname : kind.name? = some ['a'] := rfl
  have hlanguage : ∀ language ∈ kind.language?,
      Text.trim language = language ∧ '\n' ∉ language := by
    decide +kernel
  have hcontent : kind.content.IsBounded := by decide +kernel
  have hrelined : kind.withContent kind.content.relined = .start ['a'] (Text.ofString "sh") true
      (Text.ofString "b\n\n    :c: d\n.. diff-doc:: e\n") := by
    decide +kernel
  obtain ⟨front, old, rest, hsource, hspan, hsplice, stop, later, hload, hlater⟩ :=
    load_splice_frame h rfl hname (by decide) hlanguage hcontent
  rw [hrelined] at hload
  exact ⟨h, front, old, rest, hsource, hspan, hsplice, stop, later, hload, hlater⟩

end Element

end Literate
