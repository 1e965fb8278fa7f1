import Literate.Proofs.Document.Carried
import Literate.Proofs.Document.Splice

/-!
# The contents of a document are tidy

A body is read from its first line that is not blank to its last one.  So the content of a block is
bounded (`Element.isBounded_of_load`).  Of a blank line only CRs and its LF are read: in a document
without CR the content is tidy (`Element.isTidy_of_load`), and it is read back as it is if it is
written again.
-/

namespace Literate

open Convention

/-! ### A line without its indentation -/

/-- Of a blank line without its LF only CRs are left. -/
theorem Convention.eq_return_of_mem_lineEnd {s : Text} (hn : '\n' ∉ s) :
    ∀ c ∈ Text.lineEnd s, c = '\r' ∧ c ∈ s := by
  intro c hc
  have hmem : c ∈ s := by
    rw [← Text.dropLineEnd_append_lineEnd s]
    exact List.mem_append_right _ hc
  have hend : Text.isLineEnd c = true :=
    List.mem_takeWhile_imp (List.mem_reverse.mp hc)
  rw [Text.isLineEnd, Bool.or_eq_true, decide_eq_true_iff, decide_eq_true_iff] at hend
  exact ⟨hend.resolve_right fun h => hn (h ▸ hmem), hmem⟩

/-- **A line without its indentation** is a line.  It is blank if the line is, and then there are
only CRs before its LF. -/
theorem Convention.exists_unindent {s : Text} (hn : '\n' ∉ s) :
    ∃ u, '\n' ∉ u ∧ unindent (s ++ ['\n']) = u ++ ['\n'] ∧ (∀ c ∈ u, c ∈ s) ∧
      Text.isBlank u = Text.isBlank s ∧ (Text.isBlank s = true → ∀ c ∈ u, c = '\r') := by
  have hline : Text.isBlank (s ++ ['\n']) = Text.isBlank s := Text.isBlank_append_newline s
  rw [unindent, hline]
  by_cases hblank : Text.isBlank s = true
  · have hreturn := eq_return_of_mem_lineEnd hn
    refine ⟨Text.lineEnd s, fun hm => hn (hreturn _ hm).2, ?_, fun c hc => (hreturn c hc).2, ?_,
      fun _ c hc => (hreturn c hc).1⟩
    · rw [if_pos hblank, Text.lineEnd_concat, if_pos (by decide)]
    · rw [hblank, Text.isBlank, List.all_eq_true]
      intro c hc
      rw [(hreturn c hc).1]
      decide
  · rw [if_neg hblank]
    cases hafter : Text.after? indent (s ++ ['\n']) with
    | none => exact ⟨s, hn, rfl, fun _ hc => hc, rfl, fun hb => absurd hb hblank⟩
    | some rest =>
      rcases List.append_eq_append_iff.mp (Text.after?_eq_some_iff.mp hafter) with
        ⟨t, hindent, hrest⟩ | ⟨u, rfl, rfl⟩
      · -- There is more on the line than its indentation.
        cases t with
        | nil =>
          rw [List.append_nil] at hindent
          exact absurd (hindent ▸ by decide) hblank
        | cons c t =>
          obtain ⟨rfl, -⟩ := List.cons.inj hrest
          have hm : '\n' ∈ indent := hindent ▸ List.mem_append_right _ List.mem_cons_self
          exact absurd hm (by decide)
      · refine ⟨u, fun hm => hn (List.mem_append_right _ hm), rfl,
          fun _ hc => List.mem_append_right _ hc, ?_, fun hb => absurd hb hblank⟩
        rw [Text.isBlank_append, show Text.isBlank indent = true by decide, Bool.true_and]

/-- A line is blank with its indentation and without it. -/
theorem Convention.isBlank_unindent (line : Text) :
    Text.isBlank (unindent line) = Text.isBlank line := by
  rw [unindent]
  by_cases hblank : Text.isBlank line = true
  · rw [if_pos hblank, hblank]
    refine List.all_eq_true.mpr fun c hc => ?_
    have hc' : c ∈ line := by
      rw [← Text.dropLineEnd_append_lineEnd line]
      exact List.mem_append_right _ hc
    exact List.all_eq_true.mp hblank c hc'
  · rw [if_neg hblank]
    cases hafter : Text.after? indent line with
    | none => rfl
    | some rest =>
      rw [Text.after?_eq_some_iff.mp hafter, Text.isBlank_append,
        show Text.isBlank indent = true by decide, Bool.true_and]
      rfl

theorem Convention.isEnded_unindent {line : Text} (h : line.IsEnded) :
    (unindent line).IsEnded := by
  obtain ⟨s, hn, rfl⟩ := h
  obtain ⟨u, hn', hu, -⟩ := exists_unindent hn
  exact ⟨u, hn', hu⟩

/-- **Lines without their indentation** are the lines of what they make up, if the last of them is
not blank. -/
theorem Convention.cutLines_flatten_map_unindent {ls : List Text}
    (hls : Text.cutLines ls.flatten = ls) (hlast : ∀ l ∈ ls.getLast?, Text.isBlank l = false) :
    Text.cutLines (ls.map unindent).flatten = ls.map unindent := by
  induction ls using List.reverseRecOn with
  | nil => rfl
  | append_singleton front last _ =>
    have hfront : ∀ l ∈ front.map unindent, l.IsEnded := by
      intro l hl
      obtain ⟨line, hline, rfl⟩ := List.mem_map.mp hl
      exact isEnded_unindent (Text.isEnded_of_cutLines hls line hline)
    have hone : Text.cutLines (unindent last) = [unindent last] := by
      have hmem : last ∈ Text.cutLines (front ++ [last]).flatten := by
        rw [hls]
        exact List.mem_append_right _ (List.mem_singleton_self last)
      obtain ⟨s, hn, hline⟩ := Text.exists_of_mem_cutLines hmem
      rcases hline with rfl | rfl
      · refine Text.cutLines_of_not_mem (fun hm => hn ((Reading.sublist_unindent _).subset hm)) ?_
        intro hnil
        have hblank := isBlank_unindent last
        rw [hnil, hlast last (by simp)] at hblank
        cases hblank
      · have hended := isEnded_unindent ⟨s, hn, rfl⟩
        have hcut := Text.cutLines_flatten (List.forall_mem_singleton.mpr hended)
        rwa [List.flatten_singleton] at hcut
    rw [List.map_append, List.map_singleton, List.flatten_append, List.flatten_singleton,
      Text.cutLines_flatten_append hfront, hone]

/-! ### Contents -/

namespace Grammar

variable {inner : List SourceLine}

/-- The last line of a body is not blank. -/
theorem isBlank_of_getLast? (hlast : inner.rdropWhile isBlank = inner) {l : SourceLine}
    (hl : inner.getLast? = some l) : isBlank l = false := by
  have hne : inner ≠ [] := fun hc => by
    rw [hc] at hl
    cases hl
  have hnot := List.rdropWhile_eq_self_iff.mp hlast hne
  rw [List.getLast_of_mem_getLast? hl] at hnot
  simpa using hnot

theorem cutLines_of_isEnded (hlines : ∀ l ∈ inner, l.text.IsEnded) :
    Text.cutLines (inner.map SourceLine.text).flatten = inner.map SourceLine.text := by
  refine Text.cutLines_flatten fun t ht => ?_
  obtain ⟨l, hl, rfl⟩ := List.mem_map.mp ht
  exact hlines l hl

/-- **The lines of a content** are those of the body from its first line on that is not blank. -/
theorem cutLines_content
    (hlines : Text.cutLines (inner.map SourceLine.text).flatten = inner.map SourceLine.text)
    (hlast : inner.rdropWhile isBlank = inner) :
    Text.cutLines (content inner) = (inner.dropWhile isBlank).map fun l => unindent l.text := by
  obtain ⟨before, hbefore⟩ := List.dropWhile_suffix isBlank (l := inner)
  have hkept : Text.cutLines ((inner.dropWhile isBlank).map SourceLine.text).flatten =
      (inner.dropWhile isBlank).map SourceLine.text := by
    rw [← hbefore, List.map_append] at hlines
    exact Text.cutLines_flatten_of_append hlines
  have hkept' := cutLines_flatten_map_unindent hkept fun t ht => by
    rw [List.getLast?_map] at ht
    obtain ⟨l, hl, rfl⟩ := Option.map_eq_some_iff.mp ht
    refine isBlank_of_getLast? hlast ?_
    rw [← hbefore, List.getLast?_append, hl]
    rfl
  rwa [List.map_map] at hkept'

/-- **The content of a body is bounded**, if a line that is not blank ends the body. -/
theorem isBounded_content
    (hlines : Text.cutLines (inner.map SourceLine.text).flatten = inner.map SourceLine.text)
    (hlast : inner.rdropWhile isBlank = inner) : (content inner).IsBounded := by
  obtain ⟨before, hbefore⟩ := List.dropWhile_suffix isBlank (l := inner)
  constructor
  · rw [cutLines_content hlines hlast, List.head?_map]
    rintro t ht
    obtain ⟨l, hl, rfl⟩ := Option.map_eq_some_iff.mp ht
    rw [isBlank_unindent]
    have hnot := List.head?_dropWhile_not isBlank inner
    rwa [hl] at hnot
  · rw [cutLines_content hlines hlast, List.getLast?_map]
    rintro t ht
    obtain ⟨l, hl, rfl⟩ := Option.map_eq_some_iff.mp ht
    rw [isBlank_unindent]
    refine isBlank_of_getLast? hlast ?_
    rw [← hbefore, List.getLast?_append, hl]
    rfl

/-- Ended lines of a body make an ended content. -/
theorem ended_content (hlines : ∀ l ∈ inner, l.text.IsEnded) :
    content inner = [] ∨ Text.endsWithNewline (content inner) = true := by
  refine Text.ended_flatten fun t ht => ?_
  obtain ⟨l, hl, rfl⟩ := List.mem_map.mp ht
  exact isEnded_unindent (hlines l ((List.dropWhile_sublist isBlank).subset hl))

/-- **The content of a body without CR is tidy.** -/
theorem isTidy_content (hlines : ∀ l ∈ inner, l.text.IsEnded)
    (hr : ∀ l ∈ inner, '\r' ∉ l.text) (hlast : inner.rdropWhile isBlank = inner) :
    (content inner).IsTidy := by
  have hcut := cutLines_of_isEnded hlines
  refine (isBounded_content hcut hlast).isTidy fun t ht hb => ?_
  rw [cutLines_content hcut hlast] at ht
  obtain ⟨l, hl, rfl⟩ := List.mem_map.mp ht
  have hmem := (List.dropWhile_sublist isBlank).subset hl
  obtain ⟨s, hn, hs⟩ := hlines l hmem
  obtain ⟨u, -, hu, hsub, hblank, hreturn⟩ := exists_unindent hn
  rw [hs, hu, Text.isBlank_append_newline, hblank] at hb
  have hnil : u = [] := List.eq_nil_iff_forall_not_mem.mpr fun c hc => by
    refine hr l hmem ?_
    rw [hs, ← hreturn hb c hc]
    exact List.mem_append_left _ (hsub c hc)
  rw [hs, hu, hnil]
  rfl

end Grammar

variable {source name : Text} {es : List Element} {e : Element}

/-- **The contents of a document are bounded** if it ends with LF. -/
theorem Element.isBounded_of_load (hs : Text.endsWithNewline source = true)
    (h : load source = .ok es) (he : e ∈ es) : e.kind.content.IsBounded := by
  rcases exists_of_mem_load h he with ⟨line, -, -, hprose⟩ |
    ⟨t, optionLines, set, inner, -, hinner, hlast, hread⟩
  · rw [hprose]
    exact Text.isBounded_nil
  · obtain ⟨-, -, -, -, hcontent, -⟩ := of_read hread
    rw [hcontent]
    exact Grammar.isBounded_content (Grammar.cutLines_of_isEnded fun l hl =>
      Text.isEnded_of_mem_cutLines (Or.inr hs) (hinner l hl)) hlast

/-- **The contents of a document without CR that ends with LF are tidy.** -/
theorem Element.isTidy_of_load (hr : '\r' ∉ source) (hs : Text.endsWithNewline source = true)
    (h : load source = .ok es) (he : e ∈ es) (hname : e.kind.name? = some name) :
    e.kind.content.IsTidy := by
  rcases exists_of_mem_load h he with ⟨line, -, -, hprose⟩ |
    ⟨t, optionLines, set, inner, -, hinner, hlast, hread⟩
  · rw [hprose] at hname
    cases hname
  · obtain ⟨-, -, -, -, hcontent, -⟩ := of_read hread
    rw [hcontent]
    refine Grammar.isTidy_content
      (fun l hl => Text.isEnded_of_mem_cutLines (Or.inr hs) (hinner l hl)) (fun l hl hc => hr ?_)
      hlast
    rw [← Text.flatten_cutLines source]
    exact List.mem_flatten.mpr ⟨l.text, hinner l hl, hc⟩

end Literate
