import Literate.Proofs.Compile.Disclosure
import Literate.Proofs.Compile.Meaning
import Literate.Proofs.Document.Frame
import Literate.Proofs.Document.Layout

/-!
# What stands in the output

The output of a document is its source with the bytes of every block replaced by what the reader
gets to see of it (`document_overlaid`): prose is carried over, byte for byte.  No line of the
output begins with the marker, whatever the contents of the blocks look like, since they are
written one step further in.  So the output is prose, and is its own output (`document_output`).

Both follow from how a block may look (`ElementKind.AppearsAs`) and from the way in which the
elements lie in the source (`Element.Tiles`): what is shown of a block ends with LF or is empty
wherever a line follows it.
-/

namespace Literate

open Text

/-! ### How an element looks -/

/-- An element of the kind may look so to the reader: prose as it is, and a block as nothing or as
its content. -/
inductive ElementKind.AppearsAs : ElementKind → Rendered → Prop
  | prose (text : Text) : AppearsAs (.prose text) (.prose text)
  | code {kind : ElementKind} {name language : Text} (hname : kind.name? = some name)
      (hlanguage : '\n' ∉ language) : AppearsAs kind (.code language kind.content)
  | literal {kind : ElementKind} {name : Text} (hname : kind.name? = some name) :
      AppearsAs kind (.literal kind.content)
  | nothing {kind : ElementKind} {name : Text} (hname : kind.name? = some name) :
      AppearsAs kind .nothing

namespace Rendered

theorem beginsWith_marker_trimEnd (p : Text) :
    beginsWith Convention.marker (trimEnd (Convention.indent ++ p)) = false ∧
      beginsWith Convention.marker (trimEnd (Convention.indent ++ p) ++ ['\n']) = false := by
  rw [trimEnd_append]
  split
  · rw [show trimEnd Convention.indent = [] by decide]
    decide
  · exact ⟨rfl, rfl⟩

/-- No line of the written content of a block begins with the marker. -/
theorem beginsWith_marker_indented {content p : Text} (h : p ∈ pieces (indented content)) :
    beginsWith Convention.marker p = false ∧
      beginsWith Convention.marker (p ++ ['\n']) = false := by
  rw [pieces_indented] at h
  rcases List.mem_cons.mp h with rfl | h
  · decide
  · obtain ⟨q, -, rfl⟩ := List.mem_map.mp h
    exact beginsWith_marker_trimEnd q

/-- The written content of a block ends with LF if the content is empty or does so. -/
theorem getLast?_pieces_indented {content : Text}
    (h : content = [] ∨ endsWithNewline content = true) :
    (pieces (indented content)).getLast? = some [] := by
  rw [pieces_indented, List.getLast?_cons_of_ne_nil (by simp [pieces_ne_nil]), List.getLast?_map,
    getLast?_pieces_eq_nil_iff.mpr h]
  decide

end Rendered

namespace ElementKind

variable {kind : ElementKind} {name : Text} {d : Rendered}

/-- **No line of a block as it looks begins with the marker.** -/
theorem AppearsAs.beginsWith_marker (h : kind.AppearsAs d) (hname : kind.name? = some name) :
    ∀ line ∈ cutLines d.text, beginsWith Convention.marker line = false := by
  intro line hline
  obtain ⟨p, hp, hline⟩ := exists_piece_of_mem_cutLines hline
  suffices hpiece : beginsWith Convention.marker p = false ∧
      beginsWith Convention.marker (p ++ ['\n']) = false by
    rcases hline with rfl | rfl
    · exact hpiece.1
    · exact hpiece.2
  cases h with
  | prose text => cases hname
  | @code _ _ language _ hlanguage =>
    rw [Rendered.pieces_text_code, List.mem_append] at hp
    rcases hp with hp | hp
    · have hline : '\n' ∉ ofString ".. code-block:: " ++ language := by
        rw [List.mem_append, not_or]
        exact ⟨by decide, hlanguage⟩
      rw [pieces_of_not_mem hline, List.mem_singleton] at hp
      rw [hp]
      exact ⟨rfl, rfl⟩
    · exact Rendered.beginsWith_marker_indented hp
  | literal =>
    rw [Rendered.pieces_text_literal, List.mem_append] at hp
    rcases hp with hp | hp
    · rw [pieces_of_not_mem (by decide), List.mem_singleton] at hp
      rw [hp]
      decide
    · exact Rendered.beginsWith_marker_indented hp
  | nothing =>
    rw [show pieces Rendered.nothing.text = [[]] from rfl, List.mem_singleton] at hp
    rw [hp]
    decide

/-- **A block as it looks** is empty or ends with LF, if its content is or does. -/
theorem AppearsAs.ended (h : kind.AppearsAs d) (hname : kind.name? = some name)
    (hcontent : kind.content = [] ∨ endsWithNewline kind.content = true) :
    d.text = [] ∨ endsWithNewline d.text = true := by
  have hlast := Rendered.getLast?_pieces_indented hcontent
  rw [← getLast?_pieces_eq_nil_iff]
  cases h with
  | prose text => cases hname
  | code => rw [Rendered.pieces_text_code, List.getLast?_append, hlast, Option.some_or]
  | literal => rw [Rendered.pieces_text_literal, List.getLast?_append, hlast, Option.some_or]
  | nothing => rfl

end ElementKind

namespace Compile

variable {tools : Tools} {history calls : List Call} {r r' : Registry} {es : List Element}
  {ds : List Rendered} {d : Rendered} {source out : Text}

/-- What the reader gets to see of a step. -/
theorem appearsAs_of_step {kind : ElementKind}
    (step : Element.Step tools history r kind calls r' d)
    (hkind : ∀ language ∈ kind.language?, '\n' ∉ language)
    (hr : ∀ name s, r.get? name = some s → '\n' ∉ s.language) : kind.AppearsAs d := by
  cases step with
  | prose text => exact .prose text
  | @start name language content render h =>
    cases render
    · exact .nothing rfl
    · exact .code rfl (hkind language rfl)
  | @replace name content render s h hp =>
    cases render
    · exact .nothing rfl
    · exact .code rfl (hr name s h)
  | @diff name content patched render s h hp ha =>
    cases render
    · exact .nothing rfl
    · exact .literal rfl
  | @excerpt name content s h hu => exact .code rfl (hr name s h)
  | @output name content render s h hp hc =>
    cases render
    · exact .nothing rfl
    · exact .literal rfl

/-- **Every element of a run looks as its kind may look.** -/
theorem Runs.appearsAs (run : Runs tools history .empty es calls r ds)
    (hes : ∀ e ∈ es, ∀ language ∈ e.kind.language?, '\n' ∉ language) :
    List.Forall₂ (fun e d => e.kind.AppearsAs d) es ds := by
  induction run with
  | nil => exact .nil
  | @snoc es _ _ r₁ _ _ e d run step ih =>
    have hes' : ∀ u ∈ es, ∀ language ∈ u.kind.language?, '\n' ∉ language := fun u hu =>
      hes u (List.mem_append_left _ hu)
    have he : e.kind.AppearsAs d := by
      refine appearsAs_of_step step (hes e (List.mem_append_right _ List.mem_cons_self)) ?_
      intro name s hs
      obtain ⟨before, u, after, render, content, rfl, hu, -⟩ := run.started hs
      refine hes' u (List.mem_append_right _ List.mem_cons_self) s.language ?_
      rw [hu]
      rfl
    exact List.rel_append (ih hes') (.cons he .nil)

/-- The languages of a document stand on lines. -/
theorem newline_not_mem_of_load (h : Element.load source = .ok es) :
    ∀ e ∈ es, ∀ language ∈ e.kind.language?, '\n' ∉ language := by
  intro e he language hlanguage
  cases hkind : e.kind with
  | start name language' render content =>
    rw [hkind] at hlanguage
    obtain rfl := Option.some.inj hlanguage
    have hname : e.kind.name? = some name := by
      rw [hkind]
      rfl
    have hwritable := Element.isWritable_of_load h he hname
    rw [hkind] at hwritable
    exact (hwritable.options _ List.mem_cons_self).newline
  | _ =>
    rw [hkind] at hlanguage
    cases hlanguage

/-- **A document that compiles**: its elements, and how each of them looks. -/
theorem exists_of_document_eq (h : document tools history source = ⟨calls, .ok out⟩) :
    ∃ es ds, Element.load source = .ok es ∧ elements tools history es = ⟨calls, .ok ds⟩ ∧
      List.Forall₂ (fun e d => e.kind.AppearsAs d) es ds ∧ out = Rendered.document ds := by
  cases hload : Element.load source with
  | error e =>
    rw [document, hload] at h
    cases h
  | ok es =>
    rw [document_of_load hload] at h
    rcases helements : elements tools history es with ⟨calls', err | ds⟩
    · rw [helements] at h
      cases h
    · rw [helements] at h
      obtain ⟨rfl, hout⟩ := Traced.mk.inj h
      obtain ⟨r, run⟩ := elements_eq_ok_iff.mp helements
      exact ⟨es, ds, rfl, helements, run.appearsAs (newline_not_mem_of_load hload),
        (Except.ok.inj hout).symm⟩

/-! ### Sources without blocks -/

theorem arguments?_eq_none_iff {line : Text} :
    Convention.arguments? line = none ↔ beginsWith Convention.marker line = false := by
  rw [Convention.arguments?, beginsWith]
  cases after? Convention.marker line <;> simp

/-- Lines that open no block are prose. -/
theorem ofLines_of_prose {lines : List SourceLine}
    (h : ∀ l ∈ lines, Convention.arguments? l.text = none) :
    Element.ofLines lines =
      .ok (lines.map fun line => ⟨line.number, line.span, .prose line.text⟩) := by
  refine Element.ofLines_eq_ok_iff.mpr ⟨lines.map .ofLine, ?_, Element.ofNodes_ofLine lines⟩
  induction lines with
  | nil => exact Grammar.nodes_nil
  | cons line lines ih =>
    obtain ⟨hline, hlines⟩ := List.forall_mem_cons.mp h
    rw [Grammar.nodes_cons_of_none hline, ih hlines]
    rfl

theorem runFrom_of_prose (tools : Tools) (history : List Call) (r : Registry)
    (lines : List SourceLine) :
    runFrom tools history r (lines.map fun line => ⟨line.number, line.span, .prose line.text⟩) =
      ⟨[], .ok (r, lines.map fun line => .prose line.text)⟩ := by
  induction lines generalizing history with
  | nil => rfl
  | cons line lines ih => exact runFrom_cons_of_ok rfl (ih (history ++ []))

/-- **A source without a marker is its own output**, and nothing is run for it. -/
theorem document_of_prose (tools : Tools) (history : List Call)
    (h : ∀ line ∈ source.cutLines, beginsWith Convention.marker line = false) :
    document tools history source = ⟨[], .ok source⟩ := by
  have hload := ofLines_of_prose fun l hl =>
    arguments?_eq_none_iff.mpr (h l.text (Element.text_mem_cutLines hl))
  have htext : ((SourceLine.ofText source).map fun line =>
      (Rendered.prose line.text).text).flatten = source := by
    show ((SourceLine.ofText source).map SourceLine.text).flatten = source
    rw [SourceLine.ofText, SourceLine.map_text_numbered, flatten_cutLines]
  rw [document, Element.load_eq, hload]
  simp only [elements, runFrom_of_prose, Rendered.document, List.map_map]
  exact congrArg (Traced.mk [] ∘ Except.ok) htext

/-! ### The output as a text -/

open Element (Tiles)

variable {number offset : Nat} {texts : List Text}

theorem document_eq_nil (hds : List.Forall₂ (fun e d => e.kind.AppearsAs d) es ds) (h : es = []) :
    Rendered.document ds = [] := by
  subst h
  cases hds
  rfl

/-- **No line of the output begins with the marker.** -/
theorem beginsWith_marker_of_tiles (h : Tiles number offset texts es)
    (hcut : cutLines texts.flatten = texts)
    (hds : List.Forall₂ (fun e d => e.kind.AppearsAs d) es ds) :
    ∀ line ∈ cutLines (Rendered.document ds), beginsWith Convention.marker line = false := by
  induction h generalizing ds with
  | nil number offset =>
    cases hds
    exact List.forall_mem_nil _
  | @prose number offset text rest es hnone tail ih =>
    cases hds with
    | @cons _ d _ ds hd hds =>
      cases hd with
      | prose =>
        have hcut' : cutLines (text :: rest).flatten = [text] ++ rest := hcut
        show ∀ line ∈ cutLines (text ++ Rendered.document ds), _
        rw [tail.cutLines_append hcut (document_eq_nil hds)]
        exact List.forall_mem_cons.mpr
          ⟨arguments?_eq_none_iff.mp hnone, ih (cutLines_flatten_of_append hcut') hds⟩
      | _ hname => cases hname
  | @block number offset lines rest kind es hstands hrun tail ih =>
    obtain ⟨name, hkind⟩ := hstands.isWritable
    cases hds with
    | @cons _ d _ ds hd hds =>
      -- If the content does not end with LF, the block stands last.
      have happend : cutLines (d.text ++ Rendered.document ds) =
          cutLines d.text ++ cutLines (Rendered.document ds) := by
        rcases tail.isEnded_or_eq_nil hcut with hended | hnil
        · exact cutLines_append_of_ended (hd.ended hkind.name_eq (hstands.ended hended)) _
        · rw [document_eq_nil hds hnil, List.append_nil]
          exact (List.append_nil _).symm
      intro line hline
      rw [show Rendered.document (d :: ds) = d.text ++ Rendered.document ds from rfl, happend]
        at hline
      rcases List.mem_append.mp hline with hline | hline
      · exact hd.beginsWith_marker hkind.name_eq line hline
      · exact ih (cutLines_flatten_of_append hcut) hds line hline

/-- **The output of a document is its own output**, for whatever runs code: no line of it begins
with the marker. -/
theorem document_output (h : document tools history source = ⟨calls, .ok out⟩) :
    (∀ line ∈ out.cutLines, beginsWith Convention.marker line = false) ∧
      ∀ tools' history', document tools' history' out = ⟨[], .ok out⟩ := by
  obtain ⟨es, ds, hload, -, hds, rfl⟩ := exists_of_document_eq h
  have hcut : cutLines source.cutLines.flatten = source.cutLines := by rw [flatten_cutLines]
  have hmarker := beginsWith_marker_of_tiles (Element.tiles_of_load hload) hcut hds
  exact ⟨hmarker, fun tools' history' => document_of_prose tools' history' hmarker⟩

/-- A content that looks like a block, and a last line without LF. -/
theorem document_output_marked :
    let tools : Tools := ⟨fun _ _ => .ok [], Patch.apply, fun _ _ => []⟩
    let source := Text.ofLines
      ["Text", ".. diff-doc:: start a", "    :language: sh", "    :render: True", "",
        "    .. diff-doc:: start b", "", "      c", "", ""] ++ ofString "End"
    let out := Text.ofLines
      ["Text", ".. code-block:: sh", "", "    .. diff-doc:: start b", "", "      c", "", ""] ++
        ofString "End"
    document tools [] source = ⟨[], .ok out⟩ ∧
      (∀ line ∈ out.cutLines, beginsWith Convention.marker line = false) ∧
      ∀ tools' history', document tools' history' out = ⟨[], .ok out⟩ := by
  intro tools source out
  have hcalls : (document tools [] source).calls = [] := by decide +kernel
  have hresult : (document tools [] source).result = .ok out := by decide +kernel
  have h : document tools [] source = ⟨[], .ok out⟩ := congrArg₂ Traced.mk hcalls hresult
  exact ⟨h, document_output h⟩

/-! ### The output and its source -/

/-- **Blocks replaced in a text.**  The text `source`, of which the first byte is byte `offset` of a
document, becomes `out` if the bytes of each block are replaced by what the reader gets to see of
it, and every other byte is kept in its place. -/
inductive Overlaid : (offset : Nat) → (source : Text) → List (Element × Rendered) → (out : Text) →
    Prop
  | kept (offset : Nat) (source : Text) : Overlaid offset source [] source
  | prose {offset : Nat} {source out text : Text} {e : Element} {d : Rendered}
      {pairs : List (Element × Rendered)} (h : e.kind = .prose text)
      (tail : Overlaid offset source pairs out) : Overlaid offset source ((e, d) :: pairs) out
  | block {offset : Nat} {kept old source out name : Text} {e : Element} {d : Rendered}
      {pairs : List (Element × Rendered)} (h : e.kind.name? = some name)
      (hspan : e.span =
        ⟨offset + Text.byteLength kept, offset + Text.byteLength (kept ++ old)⟩)
      (tail : Overlaid (offset + Text.byteLength (kept ++ old)) source pairs out) :
      Overlaid offset (kept ++ old ++ source) ((e, d) :: pairs) (kept ++ d.text ++ out)

/-- A text in front is kept. -/
theorem Overlaid.append {pairs : List (Element × Rendered)} {front : Text} {place : Nat}
    (hplace : place = offset + Text.byteLength front) (h : Overlaid place source pairs out) :
    Overlaid offset (front ++ source) pairs (front ++ out) := by
  induction h generalizing offset front with
  | kept place source => exact .kept offset (front ++ source)
  | prose h tail ih => exact .prose h (ih hplace)
  | @block place kept old source out name e d pairs h hspan tail ih =>
    have hstart : place + Text.byteLength kept = offset + Text.byteLength (front ++ kept) := by
      rw [hplace, Text.byteLength_append, Nat.add_assoc]
    have hstop : place + Text.byteLength (kept ++ old) =
        offset + Text.byteLength (front ++ kept ++ old) := by
      rw [List.append_assoc, hplace, Text.byteLength_append front, Nat.add_assoc]
    rw [hstart, hstop] at hspan
    rw [hstop] at tail
    have hblock : Overlaid offset (front ++ kept ++ old ++ source) ((e, d) :: pairs)
        (front ++ kept ++ d.text ++ out) := .block h hspan tail
    simpa only [List.append_assoc] using hblock

/-- **The output lies over the lines** on which the elements lie. -/
theorem overlaid_of_tiles (h : Tiles number offset texts es)
    (hds : List.Forall₂ (fun e d => e.kind.AppearsAs d) es ds) :
    Overlaid offset texts.flatten (es.zip ds) (Rendered.document ds) := by
  induction h generalizing ds with
  | nil number offset =>
    cases hds
    exact .kept offset []
  | @prose number offset text rest es hnone tail ih =>
    cases hds with
    | @cons _ d _ ds hd hds =>
      cases hd with
      | prose => exact .prose rfl ((ih hds).append rfl)
      | _ hname => cases hname
  | @block number offset lines rest kind es hstands hrun tail ih =>
    obtain ⟨name, hkind⟩ := hstands.isWritable
    cases hds with
    | @cons _ d _ ds hd hds =>
      rw [List.flatten_append]
      have hblock : Overlaid offset ([] ++ lines.flatten ++ rest.flatten)
          ((⟨number, ⟨offset, offset + Text.byteLength lines.flatten⟩, kind⟩, d) :: es.zip ds)
          ([] ++ d.text ++ Rendered.document ds) := .block hkind.name_eq rfl (ih hds)
      exact hblock

/-- **Prose is carried over verbatim.**  The output of a document is the source with each block
replaced by what the reader gets to see of it; a source without a marker is its own output. -/
theorem document_overlaid (tools : Tools) (history : List Call) (source : Text) :
    (∀ calls out, document tools history source = ⟨calls, .ok out⟩ →
      ∃ es ds, Element.load source = .ok es ∧ elements tools history es = ⟨calls, .ok ds⟩ ∧
        Overlaid 0 source (es.zip ds) out) ∧
    ((∀ line ∈ source.cutLines, beginsWith Convention.marker line = false) →
      document tools history source = ⟨[], .ok source⟩) := by
  refine ⟨fun calls out h => ?_, document_of_prose tools history⟩
  obtain ⟨es, ds, hload, helements, hds, rfl⟩ := exists_of_document_eq h
  have hover := overlaid_of_tiles (Element.tiles_of_load hload) hds
  rw [flatten_cutLines] at hover
  exact ⟨es, ds, hload, helements, hover⟩

/-- A block that shows nothing, one that shows code, and CR LF and blank lines around them. -/
theorem document_overlaid_between :
    let tools : Tools := ⟨fun _ _ => .ok [], Patch.apply, fun _ _ => []⟩
    let source := ofString "Text\r\n" ++ Text.ofLines
      [".. diff-doc:: start a", "    :language: sh", "    :render: False", "", "    b", "", " ",
        ".. diff-doc:: render a", "", "    b", ""] ++ ofString "End"
    let out := ofString "Text\r\n" ++ Text.ofLines
      ["", " ", ".. code-block:: sh", "", "    b", ""] ++ ofString "End"
    document tools [] source = ⟨[], .ok out⟩ ∧
      (∃ es ds, Element.load source = .ok es ∧ elements tools [] es = ⟨[], .ok ds⟩ ∧
        Overlaid 0 source (es.zip ds) out) ∧
      document tools [] (ofString "Text\r\n\n ") = ⟨[], .ok (ofString "Text\r\n\n ")⟩ := by
  intro tools source out
  have hcalls : (document tools [] source).calls = [] := by decide +kernel
  have hresult : (document tools [] source).result = .ok out := by decide +kernel
  have h : document tools [] source = ⟨[], .ok out⟩ := congrArg₂ Traced.mk hcalls hresult
  have hprose : ∀ line ∈ (ofString "Text\r\n\n ").cutLines,
      beginsWith Convention.marker line = false := by
    decide
  exact ⟨h, (document_overlaid tools [] source).1 [] out h,
    (document_overlaid tools [] (ofString "Text\r\n\n ")).2 hprose⟩

end Compile

end Literate
