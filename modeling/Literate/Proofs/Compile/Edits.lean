import Literate.Proofs.Compile.Evolution
import Literate.Proofs.Document.Contents
import Literate.Proofs.Patch.Added

/-!
# Rendered edits

A `start`, `replace` or `diff` element that is rendered shows all that it brings into its snippet.
A new content is shown as a whole.  A diff shows its added lines, which are found in it by their
plus signs, while the patched content comes from its hunks, wherever they have been placed.

The two agree if no line has a CR.  That is so along every run of elements in which CRs stand only
before LFs (`Runs.returnsPaired_content`), and so a rendered edit leaves nothing pending
(`pending_eq_nil_of_renderedEdit`).
-/

namespace Literate

/-- The name of the snippet that an element changes, if the change is rendered. -/
def ElementKind.renderedEdit? : ElementKind → Option Text
  | .start name _ true _ | .replace name true _ | .diff name true _ => some name
  | .start _ _ false _ | .replace _ false _ | .diff _ false _ => none
  | .prose _ | .excerpt _ _ | .output _ _ _ => none

/-- Nothing is pending after a change that has shown all lines that it brings in. -/
theorem Snippet.pending_changed_eq_nil {s : Snippet} {content : Text} {lines : List Text}
    (hp : s.pending = []) (hl : ∀ l ∈ Text.lines content, l ∉ Text.lines s.content → l ∈ lines) :
    (s.changed content true lines).pending = [] := by
  rw [pending_changed hp, List.filter_eq_nil_iff]
  intro l hmem
  obtain ⟨hnew, -, hold⟩ := mem_introduced.mp hmem
  simp [hl l hnew hold]

namespace Compile

variable {tools : Tools} {history calls : List Call} {r : Registry} {es : List Element}
  {ds : List Rendered} {name : Text}

/-! ### CRs of contents -/

/-- An element keeps CRs before LFs. -/
theorem returnsPaired_evolve {code : Option Call} {kind : ElementKind}
    (hk : kind.content.ReturnsPaired) (hc : ∀ c ∈ code, c.code.ReturnsPaired) :
    ∀ c ∈ evolve Patch.apply name code kind, c.code.ReturnsPaired := by
  intro c h
  cases kind with
  | start n language render content =>
    rw [evolve] at h
    split at h
    · obtain rfl := Option.some.inj h
      exact hk
    · exact hc c h
  | replace n render content =>
    rw [evolve] at h
    split at h
    · obtain ⟨c₀, -, rfl⟩ := Option.map_eq_some_iff.mp h
      exact hk
    · exact hc c h
  | diff n render content =>
    rw [evolve] at h
    split at h
    · obtain ⟨c₀, hc₀, h⟩ := Option.bind_eq_some_iff.mp h
      cases ha : Patch.apply c₀.code content with
      | error cause =>
        rw [ha] at h
        cases h
      | ok patched =>
        rw [ha] at h
        obtain rfl := Option.some.inj h
        exact Text.returnsPaired_of_not_mem
          (Patch.return_not_mem_of_apply_of_returnsPaired (hc c₀ hc₀) hk ha)
    · exact hc c h
  | prose text => exact hc c h
  | excerpt n content => exact hc c h
  | output n render content => exact hc c h

/-- What elements build up has CRs only before LFs, if they do. -/
theorem returnsPaired_evolution (h : ∀ e ∈ es, e.kind.content.ReturnsPaired) :
    ∀ c ∈ evolution Patch.apply name es, c.code.ReturnsPaired := by
  induction es using List.reverseRecOn with
  | nil =>
    intro c hc
    cases hc
  | append_singleton es e ih =>
    rw [evolution_concat]
    exact returnsPaired_evolve (h e (by simp))
      (ih fun u hu => h u (List.mem_append_left _ hu))

/-- **Along every run of elements with CRs only before LFs**, so are the contents of snippets. -/
theorem Runs.returnsPaired_content (htools : tools.patch = Patch.apply)
    (run : Runs tools history .empty es calls r ds) (h : ∀ e ∈ es, e.kind.content.ReturnsPaired)
    {s : Snippet} (hs : r.get? name = some s) : s.content.ReturnsPaired := by
  have he := run.evolution_eq name
  rw [hs, htools] at he
  exact returnsPaired_evolution h s.call he.symm

/-! ### What an edit leaves pending -/

/-- **A rendered edit leaves nothing hidden.**  After every run, a `start`, `replace` or `diff`
element that is rendered and succeeds leaves its snippet without pending lines, if CRs stand only
before LFs.  All lines that a diff brings in, blank or not, stand behind plus signs in it, and its
hunks add them. -/
theorem pending_eq_nil_of_renderedEdit (htools : tools.patch = Patch.apply)
    (run : runFrom tools history .empty es = ⟨calls, .ok (r, ds)⟩)
    (hes : ∀ u ∈ es, u.kind.content.ReturnsPaired) {e : Element}
    (he : e.kind.content.ReturnsPaired) (hname : e.kind.renderedEdit? = some name)
    {history' more : List Call} {r' : Registry} {d : Rendered}
    (hstep : e.execute tools history' r = ⟨more, .ok (r', d)⟩) :
    ∃ s', r'.get? name = some s' ∧ s'.pending = [] ∧
      ∀ diff, e.kind = .diff name true diff → ∃ s hunks, r.get? name = some s ∧
        Patch.apply s.content diff = .ok s'.content ∧ Hunk.parse diff = .ok hunks ∧
        ∀ l ∈ Text.lines s'.content, l ∉ Text.lines s.content →
          '+' :: l ∈ Text.lines diff ∧ ∃ hunk ∈ hunks, HunkLine.added l ∈ hunk.lines := by
  have hrun := runFrom_eq_ok_iff.mp run
  have step := Element.execute_eq_ok_iff.mp hstep
  generalize e.kind = kind at step he hname
  cases step with
  | prose => cases hname
  | excerpt => cases hname
  | output => cases hname
  | @start n language content render hnone =>
    cases render with
    | false => cases hname
    | true =>
      obtain rfl := Option.some.inj hname
      refine ⟨_, Registry.get?_insert_self .., ?_, fun diff hd => ?_⟩
      · exact Snippet.pending_changed_eq_nil rfl fun l hl _ => hl
      · cases hd
  | @replace n content render s hs hp =>
    cases render with
    | false => cases hname
    | true =>
      obtain rfl := Option.some.inj hname
      refine ⟨_, Registry.get?_insert_self .., ?_, fun diff hd => ?_⟩
      · exact Snippet.pending_changed_eq_nil hp fun l hl _ => hl
      · cases hd
  | @diff n content patched render s hs hp ha =>
    cases render with
    | false => cases hname
    | true =>
      obtain rfl := Option.some.inj hname
      rw [htools] at ha
      obtain ⟨hunks, hparse, hadded⟩ := Patch.added_of_mem_lines_of_apply
        (hrun.returnsPaired_content htools hes hs) he ha
      have hmem : ∀ l ∈ Text.lines patched, l ∉ Text.lines s.content →
          l ∈ Hunk.addedLines content := by
        intro l hl hold
        obtain ⟨hunk, hhunk, hline⟩ := hadded l hl hold
        exact Hunk.mem_addedLines_of_parse hparse hhunk hline
      refine ⟨_, Registry.get?_insert_self .., Snippet.pending_changed_eq_nil hp hmem, ?_⟩
      intro diff hd
      obtain ⟨-, -, rfl⟩ := ElementKind.diff.inj hd
      rw [Snippet.content_changed]
      exact ⟨s, hunks, hs, ha, hparse, fun l hl hold =>
        ⟨Patch.mem_lines_of_mem_addedLines (hmem l hl hold), hadded l hl hold⟩⟩

/-- A hunk that says line 1 and goes to line 3, with a blank line and one that looks like a header
among those it adds. -/
theorem pending_eq_nil_of_renderedEdit_moved :
    let tools : Tools := ⟨fun _ _ => .ok [], Patch.apply, fun _ _ => []⟩
    let content := Text.ofString "a\r\nb\r\n\r\nc\r\n"
    let diff := Text.ofString "--- a\r\n+++ b\r\n@@ -1,2 +1,4 @@\r\n \r\n-c\r\n+++ d\r\n+\r\n+e\r\n"
    let patched := Text.ofString "a\nb\n\n++ d\n\ne\n"
    let first : Element := ⟨1, ⟨0, 9⟩, .start ['s'] ['c'] true content⟩
    let e : Element := ⟨11, ⟨9, 18⟩, .diff ['s'] true diff⟩
    let r : Registry := ⟨[(['s'], ⟨['c'], content, []⟩)]⟩
    let r' : Registry := ⟨[(['s'], ⟨['c'], patched, []⟩)]⟩
    tools.patch = Patch.apply ∧
      runFrom tools [] .empty [first] = ⟨[], .ok (r, [.code ['c'] content])⟩ ∧
      (∀ u ∈ [first], u.kind.content.ReturnsPaired) ∧ e.kind.content.ReturnsPaired ∧
      e.kind.renderedEdit? = some ['s'] ∧
      e.execute tools [] r = ⟨[], .ok (r', .literal diff)⟩ ∧
      ∃ s', r'.get? ['s'] = some s' ∧ s'.pending = [] ∧
        ∀ diff', e.kind = .diff ['s'] true diff' → ∃ s hunks, r.get? ['s'] = some s ∧
          Patch.apply s.content diff' = .ok s'.content ∧ Hunk.parse diff' = .ok hunks ∧
          ∀ l ∈ Text.lines s'.content, l ∉ Text.lines s.content →
            '+' :: l ∈ Text.lines diff' ∧ ∃ hunk ∈ hunks, HunkLine.added l ∈ hunk.lines := by
  intro tools content diff patched first e r r'
  have hrun : runFrom tools [] .empty [first] = ⟨[], .ok (r, [.code ['c'] content])⟩ := by rfl
  have hfirst : ∀ u ∈ [first], u.kind.content.ReturnsPaired := by decide +kernel
  have he : e.kind.content.ReturnsPaired := by decide +kernel
  have hstep : e.execute tools [] r = ⟨[], .ok (r', .literal diff)⟩ := by rfl
  exact ⟨rfl, hrun, hfirst, he, rfl, hstep,
    pending_eq_nil_of_renderedEdit rfl hrun hfirst he rfl hstep⟩

end Compile

end Literate
