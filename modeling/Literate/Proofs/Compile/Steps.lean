import Literate.Compile.Step
import Literate.Proofs.Snippet.Pending

/-!
# Steps

`Element.Step` says everything that an element can do when it is carried out: one rule for each kind
of element, with what the rule asks of the registry.  `execute_eq_ok_iff` says that `execute`
succeeds exactly by these rules, so that no other proof opens it.

* `calls_execute`: only an `output` element runs code, at most once, and only the whole content of
  a snippet without pending lines, also when it fails.
* `Step.get?_of_name_ne`: a step leaves the snippets alone that it does not name.
-/

namespace Literate

/-- The snippet after its content has changed.  If the change is rendered, `lines` have been shown
by it. -/
def Snippet.changed (s : Snippet) (content : Text) (render : Bool) (lines : List Text) : Snippet :=
  if render then (s.replaced content).shown lines else s.replaced content

/-- What the reader gets to see of an element that is rendered or not. -/
def Rendered.when (render : Bool) (d : Rendered) : Rendered :=
  if render then d else .nothing

@[simp] theorem Snippet.content_changed (s : Snippet) (content : Text) (render : Bool)
    (lines : List Text) : (s.changed content render lines).content = content := by
  cases render <;> rfl

@[simp] theorem Snippet.language_changed (s : Snippet) (content : Text) (render : Bool)
    (lines : List Text) : (s.changed content render lines).language = s.language := by
  cases render <;> rfl

/-- What is pending after a change of a snippet without pending lines. -/
theorem Snippet.pending_changed {s : Snippet} (h : s.pending = []) (content : Text) (render : Bool)
    (lines : List Text) : (s.changed content render lines).pending =
      (introduced s.content content).filter fun l => !(render && lines.contains l) := by
  cases render
  · rw [Snippet.changed, if_neg Bool.false_ne_true, pending_replaced_of_nil h]
    exact (List.filter_eq_self.mpr fun _ _ => rfl).symm
  · rw [Snippet.changed, if_pos rfl, pending_shown, pending_replaced_of_nil h]
    simp

theorem Registry.record_eq (r : Registry) (name : Text) (s : Snippet) (content : Text)
    (render : Bool) (lines : List Text) (d : Rendered) :
    r.record name (s.replaced content) render lines d =
      (r.insert name (s.changed content render lines), d.when render) := by
  cases render <;> rfl

theorem Registry.get?_insert_self (r : Registry) (name : Text) (s : Snippet) :
    (r.insert name s).get? name = some s := by
  rw [get?_insert, if_pos rfl]

theorem Registry.lookup_eq_ok_iff {r : Registry} {name : Text} {s : Snippet} :
    r.lookup name = .ok s ↔ r.get? name = some s := by
  unfold lookup
  cases r.get? name <;> simp

theorem Registry.lookupShown_eq_ok_iff {r : Registry} {name : Text} {operation : Operation}
    {s : Snippet} :
    r.lookupShown name operation = .ok s ↔ r.get? name = some s ∧ s.pending = [] := by
  unfold lookupShown lookup
  cases r.get? name with
  | none => simp
  | some t =>
    by_cases h : t.pending = []
    · simpa [Snippet.isFullyShown_iff.mpr h] using fun e : t = s => e ▸ h
    · have hf : ¬ t.isFullyShown = true := fun e => h (Snippet.isFullyShown_iff.mp e)
      simpa [hf] using fun e : t = s => e ▸ h

/-- **What holds a snippet back.**  A snippet that is there cannot be had exactly when lines of it
are pending, and then the fault names them. -/
theorem Registry.lookupShown_of_get? {r : Registry} {name : Text} {s : Snippet}
    (h : r.get? name = some s) (operation : Operation) :
    r.lookupShown name operation =
      if s.pending = [] then .ok s else .error (.pendingLines operation s.pending) := by
  unfold lookupShown lookup
  rw [h]
  simp only [Snippet.isFullyShown_iff]

namespace Element

/-- **The rules of a step.**  What an element of a kind does to the registry `r` when it is carried
out after the calls in `history`: the calls it makes, the registry after it, and what the reader
gets to see. -/
inductive Step (tools : Tools) (history : List Call) (r : Registry) :
    ElementKind → List Call → Registry → Rendered → Prop
  | prose (text : Text) : Step tools history r (.prose text) [] r (.prose text)
  | start {name language content : Text} {render : Bool} (h : r.get? name = none) :
      Step tools history r (.start name language render content) []
        (r.insert name ((Snippet.empty language).changed content render (Text.lines content)))
        ((Rendered.code language content).when render)
  | replace {name content : Text} {render : Bool} {s : Snippet} (h : r.get? name = some s)
      (hp : s.pending = []) :
      Step tools history r (.replace name render content) []
        (r.insert name (s.changed content render (Text.lines content)))
        ((Rendered.code s.language content).when render)
  | diff {name content patched : Text} {render : Bool} {s : Snippet} (h : r.get? name = some s)
      (hp : s.pending = []) (ha : tools.patch s.content content = .ok patched) :
      Step tools history r (.diff name render content) []
        (r.insert name (s.changed patched render (Hunk.addedLines content)))
        ((Rendered.literal content).when render)
  | excerpt {name content : Text} {s : Snippet} (h : r.get? name = some s)
      (hu : Snippet.firstUnknown? content s.content = none) :
      Step tools history r (.excerpt name content) []
        (r.insert name (s.shown (Text.lines content))) (.code s.language content)
  | output {name content : Text} {render : Bool} {s : Snippet} (h : r.get? name = some s)
      (hp : s.pending = [])
      (hc : check content (tools.run history ⟨s.language, s.content⟩) = .ok ()) :
      Step tools history r (.output name render content) [⟨s.language, s.content⟩] r
        ((Rendered.literal content).when render)

variable {tools : Tools} {history calls : List Call} {r r' : Registry} {d : Rendered}

theorem Step.of_effect {kind : ElementKind}
    (h : effect tools history r kind = ⟨calls, .ok (r', d)⟩) :
    Step tools history r kind calls r' d := by
  cases kind with
  | prose text =>
    obtain ⟨rfl, he⟩ := Traced.mk.inj h
    obtain ⟨rfl, rfl⟩ := Prod.mk.inj (Except.ok.inj he)
    exact .prose text
  | start name language render content =>
    obtain ⟨rfl, he⟩ := Traced.mk.inj h
    unfold Registry.start Registry.contains at he
    split at he
    · cases he
    · next hn =>
      rw [Registry.record_eq] at he
      obtain ⟨rfl, rfl⟩ := Prod.mk.inj (Except.ok.inj he)
      exact .start (by simpa using hn)
  | replace name render content =>
    obtain ⟨rfl, he⟩ := Traced.mk.inj h
    unfold Registry.replace at he
    split at he
    · cases he
    · next s hs =>
      obtain ⟨hg, hp⟩ := Registry.lookupShown_eq_ok_iff.mp hs
      rw [Registry.record_eq] at he
      obtain ⟨rfl, rfl⟩ := Prod.mk.inj (Except.ok.inj he)
      exact .replace hg hp
  | diff name render content =>
    obtain ⟨rfl, he⟩ := Traced.mk.inj h
    unfold Registry.patch at he
    split at he
    · cases he
    · next s hs =>
      obtain ⟨hg, hp⟩ := Registry.lookupShown_eq_ok_iff.mp hs
      split at he
      · cases he
      · next patched ha =>
        rw [Registry.record_eq] at he
        obtain ⟨rfl, rfl⟩ := Prod.mk.inj (Except.ok.inj he)
        exact .diff hg hp ha
  | excerpt name content =>
    obtain ⟨rfl, he⟩ := Traced.mk.inj h
    unfold Registry.excerpt at he
    split at he
    · cases he
    · next s hs =>
      split at he
      · cases he
      · next hu =>
        obtain ⟨rfl, rfl⟩ := Prod.mk.inj (Except.ok.inj he)
        exact .excerpt (Registry.lookup_eq_ok_iff.mp hs) hu
  | output name render content =>
    simp only [effect, verify] at h
    split at h
    · cases h
    · next s hs =>
      obtain ⟨hg, hp⟩ := Registry.lookupShown_eq_ok_iff.mp hs
      split at h
      · cases h
      · next hc =>
        obtain ⟨rfl, he⟩ := Traced.mk.inj h
        obtain ⟨rfl, rfl⟩ := Prod.mk.inj (Except.ok.inj he)
        exact .output hg hp hc

theorem Step.effect_eq {kind : ElementKind} (h : Step tools history r kind calls r' d) :
    effect tools history r kind = ⟨calls, .ok (r', d)⟩ := by
  cases h with
  | prose text => rfl
  | start h =>
    rw [effect, Registry.start, Registry.contains, h, Registry.record_eq]
    rfl
  | replace h hp =>
    rw [effect, Registry.replace, Registry.lookupShown_eq_ok_iff.mpr ⟨h, hp⟩]
    simp only [Registry.record_eq]
    rfl
  | diff h hp ha =>
    rw [effect, Registry.patch, Registry.lookupShown_eq_ok_iff.mpr ⟨h, hp⟩]
    simp only [ha, Registry.record_eq]
    rfl
  | excerpt h hu =>
    rw [effect, Registry.excerpt, Registry.lookup_eq_ok_iff.mpr h]
    simp only [hu]
    rfl
  | output h hp hc =>
    rw [effect, verify, Registry.lookupShown_eq_ok_iff.mpr ⟨h, hp⟩]
    simp only [hc]
    rfl

/-- **An element succeeds exactly by the rules.** -/
theorem execute_eq_ok_iff {element : Element} :
    element.execute tools history r = ⟨calls, .ok (r', d)⟩ ↔
      Step tools history r element.kind calls r' d := by
  constructor
  · intro h
    refine Step.of_effect ?_
    rw [execute] at h
    split at h
    · next he =>
      obtain ⟨hc, hr⟩ := Traced.mk.inj h
      rw [he, hc, Except.ok.inj hr]
    · cases h
  · intro h
    rw [execute, h.effect_eq]

/-! ### Calls -/

/-- **What an element runs**, whether it succeeds or fails: nothing, or the content of a snippet
without pending lines. -/
theorem calls_execute (tools : Tools) (history : List Call) (r : Registry) (element : Element) :
    (element.execute tools history r).calls = [] ∨
      ∃ (name : Text) (render : Bool) (content : Text) (s : Snippet),
        element.kind = .output name render content ∧ r.get? name = some s ∧ s.pending = [] ∧
          (element.execute tools history r).calls = [⟨s.language, s.content⟩] := by
  have he : (element.execute tools history r).calls =
      (effect tools history r element.kind).calls := by
    unfold execute
    split
    · next h => rw [h]
    · next h => rw [h]
  rw [he]
  cases element.kind with
  | output name render content =>
    simp only [effect, verify]
    split
    · exact Or.inl rfl
    · next s hs =>
      obtain ⟨hg, hp⟩ := Registry.lookupShown_eq_ok_iff.mp hs
      refine Or.inr ⟨name, render, content, s, rfl, hg, hp, ?_⟩
      split <;> rfl
  | _ => exact Or.inl rfl

/-- An `output` element of a snippet without pending lines runs it. -/
theorem calls_execute_output {element : Element} {name content : Text} {render : Bool} {s : Snippet}
    (hk : element.kind = .output name render content) (h : r.get? name = some s)
    (hp : s.pending = []) :
    (element.execute tools history r).calls = [⟨s.language, s.content⟩] := by
  rw [execute, hk, effect, verify, Registry.lookupShown_eq_ok_iff.mpr ⟨h, hp⟩]
  simp only
  rcases check content (tools.run history ⟨s.language, s.content⟩) with fault | ⟨⟩ <;> rfl

/-! ### Other snippets -/

/-- A step leaves the snippets alone that it does not name. -/
theorem Step.get?_of_name_ne {kind : ElementKind} (h : Step tools history r kind calls r' d)
    {name : Text} (hn : kind.name? ≠ some name) : r'.get? name = r.get? name := by
  cases h with
  | prose => rfl
  | output => rfl
  | _ => exact (Registry.get?_insert ..).trans (if_neg fun e => hn (congrArg some e))

end Element

end Literate
