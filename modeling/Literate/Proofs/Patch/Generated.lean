import Literate.Proofs.Patch.ApplyBack

/-!
# Generated diffs apply back

The diff between two texts always applies to the old one.  What comes out are the lines of the new
text, ended as the old text is, if no hunk slips, and only then (`apply_unified_iff`).  There are
texts for which a hunk slips (`apply_unified_slipped`).
-/

namespace Literate.Patch

open Diff

/-- Lines are put together to one text in one way. -/
theorem assemble_inj {old : Text} {ls ms : List Text} (hlen : ls.length = ms.length)
    (hls : ∀ l ∈ ls, '\n' ∉ l) (hms : ∀ m ∈ ms, '\n' ∉ m) (h : assemble old ls = assemble old ms) :
    ls = ms := by
  refine Text.join_inj hlen hls hms ?_
  unfold assemble at h
  simp only at h
  by_cases ho : old = [] ∨ Text.endsWithNewline old = true
  · by_cases hl : Text.join ['\n'] ls = [] <;> by_cases hm : Text.join ['\n'] ms = []
    · rw [hl, hm]
    · rw [if_neg fun hc => hc.1 hl, if_pos ⟨hm, ho⟩, hl] at h
      exact absurd h.symm (by simp)
    · rw [if_pos ⟨hl, ho⟩, if_neg fun hc => hc.1 hm, hm] at h
      exact absurd h (by simp)
    · rw [if_pos ⟨hl, ho⟩, if_pos ⟨hm, ho⟩] at h
      exact List.append_cancel_right h
  · rwa [if_neg fun hc => ho hc.2, if_neg fun hc => ho hc.2] at h

/-- Lines of a text are put together to what all of its lines are only if they are all of them. -/
theorem assemble_eq_iff {old new : Text} {ls : List Text}
    (hlen : ls.length = (Text.lines new).length) (hmem : ∀ l ∈ ls, l ∈ Text.lines new) :
    assemble old ls = assemble old (Text.lines new) ↔ ls = Text.lines new :=
  ⟨assemble_inj hlen (fun l hl => Text.newline_not_mem_of_mem_lines (hmem l hl)) fun _ hl =>
    Text.newline_not_mem_of_mem_lines hl, fun h => by rw [h]⟩

/-- A text without CR that is empty or ends with LF, but is not an LF alone, is put together from
its lines. -/
theorem assemble_lines {old new : Text} (hr : '\r' ∉ new) (hlf : new ≠ ['\n'])
    (hn : new = [] ∨ Text.endsWithNewline new = true)
    (ho : old = [] ∨ Text.endsWithNewline old = true) :
    assemble old (Text.lines new) = new := by
  rcases hn with rfl | hn
  · rfl
  · have hjoin := Text.join_lines_append_newline hr hn
    have hne : Text.join ['\n'] (Text.lines new) ≠ [] := by
      intro h
      rw [h] at hjoin
      exact hlf hjoin.symm
    rw [assemble]
    exact (if_pos ⟨hne, ho⟩).trans hjoin

/-- The diff between two texts applies to the old one and gives the lines of the new one, if no hunk
slips, and only then. -/
theorem exists_apply_unified {old new : Text} (hne : old ≠ new) (ho : Text.ReturnsPaired old)
    (hn : Text.ReturnsPaired new) (hsize : (Text.lines old).length < wordBound) :
    (∃ result, apply old (unified old new) = .ok result) ∧
      (apply old (unified old new) = .ok (assemble old (Text.lines new)) ↔
        ∀ group ∈ textGroups old new, ¬ Slips (Text.lines old) (Text.lines new) group) := by
  obtain ⟨hgroups, hspec, result, happly, hlen, hmem, hiff⟩ := textGroups_spec ho hn hne
  have hparse := parse_unified ho hn hgroups (fun group hg => (hspec group hg).1)
    fun group hg => Nat.lt_of_le_of_lt (hspec group hg).2 hsize
  have hresult : apply old (unified old new) = .ok (assemble old result) := by
    rw [apply, hparse]
    simp only [happly]
  refine ⟨⟨_, hresult⟩, ?_⟩
  rw [hresult, ← hiff, Except.ok.injEq, assemble_eq_iff hlen hmem]

/-- **The diff between plain texts applies back**, and gives the new text if no hunk slips, and only
then. -/
theorem apply_unified_of_plain {old new : Text} (ho : old.IsPlain) (hn : new.IsPlain)
    (hne : old ≠ new) (hsize : (Text.lines old).length < wordBound) :
    (∃ result, apply old (unified old new) = .ok result) ∧
      (apply old (unified old new) = .ok new ↔
        ∀ group ∈ textGroups old new, ¬ Slips (Text.lines old) (Text.lines new) group) := by
  have h := exists_apply_unified hne (Text.returnsPaired_of_not_mem ho.noReturn)
    (Text.returnsPaired_of_not_mem hn.noReturn) hsize
  rwa [assemble_lines hn.noReturn hn.ne_newline hn.ended ho.ended] at h

/-- **Generated diffs apply back, unless a hunk slips.**  The diff between two texts with CRs only
before LFs applies to the old one.  The result has the lines of the new text, and ends with LF if it
is not empty and the old text is empty or ends with LF; that is so if no hunk slips, and only then.
It is the new text itself if that has no CR, is empty or ends with LF, and is not an LF alone, and
the old text is empty or ends with LF. -/
theorem apply_unified_iff {old new : Text} (hne : old ≠ new) (ho : Text.ReturnsPaired old)
    (hn : Text.ReturnsPaired new) (hsize : (Text.lines old).length < wordBound) :
    let joined := Text.join ['\n'] (Text.lines new)
    let expected :=
      if joined ≠ [] ∧ (old = [] ∨ Text.endsWithNewline old) then joined ++ ['\n'] else joined
    (∃ result, apply old (unified old new) = .ok result) ∧
      (apply old (unified old new) = .ok expected ↔
        ∀ group ∈ textGroups old new, ¬ Slips (Text.lines old) (Text.lines new) group) ∧
      ('\r' ∉ new → new ≠ ['\n'] → (new = [] ∨ Text.endsWithNewline new = true) →
        (old = [] ∨ Text.endsWithNewline old = true) → expected = new) := by
  intro joined expected
  obtain ⟨hok, hiff⟩ := exists_apply_unified hne ho hn hsize
  exact ⟨hok, hiff, fun hr hlf hn' ho' => assemble_lines hr hlf hn' ho'⟩

/-- One line for another. -/
theorem apply_unified_replaced :
    let old : Text := ['a', '\n']
    let new : Text := ['b', '\n']
    old ≠ new ∧ Text.ReturnsPaired old ∧ Text.ReturnsPaired new ∧
      (Text.lines old).length < wordBound ∧ apply old (unified old new) = .ok new ∧
      ∀ group ∈ textGroups old new, ¬ Slips (Text.lines old) (Text.lines new) group := by
  intro old new
  have hne : old ≠ new := by decide
  have ho : Text.ReturnsPaired old := Text.returnsPaired_of_not_mem (by decide)
  have hn : Text.ReturnsPaired new := Text.returnsPaired_of_not_mem (by decide)
  have hsize : (Text.lines old).length < wordBound := by decide
  have happly : apply old (unified old new) = .ok new := by decide +kernel
  exact ⟨hne, ho, hn, hsize, happly, (apply_unified_iff hne ho hn hsize).2.1.mp happly⟩

/-- **A hunk that slips.**  Three lines are taken away before seven equal ones, and three others
come after them; the diff is applied one line too early. -/
theorem apply_unified_slipped :
    let old := Text.ofString "d\ne\nf\na\na\na\na\na\na\na\n"
    let new := Text.ofString "a\na\na\na\na\na\na\na\na\nb\n"
    let wrong := Text.ofString "a\na\na\na\na\na\na\na\nb\na\n"
    old ≠ new ∧ Text.ReturnsPaired old ∧ Text.ReturnsPaired new ∧
      assemble old (Text.lines new) = new ∧ apply old (unified old new) = .ok wrong ∧
      wrong ≠ new := by
  refine ⟨by decide, Text.returnsPaired_of_not_mem (by decide),
    Text.returnsPaired_of_not_mem (by decide), by decide, by decide +kernel, by decide⟩

end Literate.Patch
