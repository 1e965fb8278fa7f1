import Literate.Proofs.Document.Splice
import Literate.Proofs.Text.Returned
import Mathlib.Data.List.Forall2

/-!
# Documents with CR LF in place of LF

A document is read alike with CR LF in place of every LF (`Element.load_returned`): it has the same
error, or the same elements at the same lines, with CRs in the contents of the blocks and in the
lines of prose.  The places of its lines are others, which are left out of the comparison.
-/

namespace Literate

/-- CR LF in place of LF.  The lines keep their numbers; their places are forgotten. -/
def Relabeling.returned : Relabeling where
  number := id
  place := fun _ => 0
  text := Text.returned
  text_nil := rfl
  text_append := Text.returned_append
  arguments? := Convention.arguments?_returned
  isBlank := Text.isBlank_returned
  isIndented := Convention.isIndented_returned
  option? := fun t => by rw [Convention.unindent_returned, Convention.option?_returned]
  unindent := Convention.unindent_returned

/-- The places of lines are forgotten. -/
def Relabeling.unplaced : Relabeling :=
  relocation id fun _ => 0

/-- Numbered lines with CRs, but for their places. -/
theorem SourceLine.map_unplaced_numbered (number offset offset' : Nat) (texts : List Text) :
    (numbered number offset' (texts.map Text.returned)).map Relabeling.unplaced.line =
      (numbered number offset texts).map Relabeling.returned.line := by
  induction texts generalizing number offset offset' with
  | nil => rfl
  | cons text rest ih =>
    rw [List.map_cons, numbered, numbered, List.map_cons, List.map_cons, ih]
    rfl

namespace Element

variable {source : Text}

/-- The element `e'` is the element `e` with CRs: it has the same line, and the same kind with CR LF
in place of LF. -/
structure Returned (e e' : Element) : Prop where
  line : e'.line = e.line
  kind : e'.kind = Relabeling.returned.kind e.kind

theorem mapError_of_number_eq {f : Relabeling} (hf : f.number = id)
    (result : Except FormatError (List Element)) : result.mapError f.error = result := by
  cases result with
  | ok es => rfl
  | error e => simp [Except.mapError, Relabeling.error, hf]

/-- **Elements are the same with CRs**, but for their places. -/
theorem map_load_returned (source : Text) :
    (load source.returned).map (List.map Relabeling.unplaced.element) =
      (load source).map (List.map Relabeling.returned.element) := by
  have htrim : ∀ l ∈ SourceLine.ofText source,
      Text.trim (Text.returned l.text) = Text.trim l.text :=
    fun l hl => Text.trim_returned_of_mem_cutLines (text_mem_cutLines hl)
  have hlines : (SourceLine.ofText source.returned).map Relabeling.unplaced.line =
      (SourceLine.ofText source).map Relabeling.returned.line := by
    rw [SourceLine.ofText, SourceLine.ofText, Text.cutLines_returned]
    exact SourceLine.map_unplaced_numbered 1 0 0 source.cutLines
  have hread := congrArg ofLines hlines
  rw [ofLines_map Relabeling.unplaced fun _ _ => rfl, ofLines_map Relabeling.returned htrim,
    mapError_of_number_eq rfl, mapError_of_number_eq rfl] at hread
  rwa [load_eq, load_eq]

/-- **A document with CRs is read as it is without them.** -/
theorem load_returned (source : Text) :
    (∃ err, load source = .error err ∧ load source.returned = .error err) ∨
      ∃ es es', load source = .ok es ∧ load source.returned = .ok es' ∧
        List.Forall₂ Returned es es' := by
  have h := map_load_returned source
  rcases hload : load source with err | es <;> rcases hload' : load source.returned with err' | es'
  · rw [hload, hload'] at h
    obtain rfl := Except.error.inj h
    exact Or.inl ⟨err', rfl, rfl⟩
  · rw [hload, hload'] at h
    cases h
  · rw [hload, hload'] at h
    cases h
  · rw [hload, hload'] at h
    refine Or.inr ⟨es, es', rfl, rfl, ?_⟩
    have hes : List.Forall₂ (· = ·) (es.map Relabeling.returned.element)
        (es'.map Relabeling.unplaced.element) := by
      rw [Except.ok.inj h]
      exact List.forall₂_refl _
    rw [List.forall₂_map_left_iff, List.forall₂_map_right_iff] at hes
    refine hes.imp fun e e' he => ⟨(congrArg Element.line he).symm, ?_⟩
    have hkind := congrArg Element.kind he
    exact ((Relabeling.kind_relocation _ _ e'.kind).symm.trans hkind.symm)

end Element

end Literate
