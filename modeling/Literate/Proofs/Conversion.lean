import Literate.Conversion
import Literate.Proofs.Compile.History
import Literate.Proofs.Compile.Meaning
import Literate.Proofs.Compile.Plain
import Literate.Proofs.Patch.Generated

/-!
# A converted block means the same

A conversion puts an element of another kind in the place of one element (`exists_of_elements`).  A
diff brings in no lines but those it adds, so it shows what the new content would show
(`Snippet.changed_eq`), and the registry after the element is the same in both forms if the content
is.

From a diff to a new content it always is.  From a new content to a diff it is if the diff applies
back exactly: `FitsBack`.  `sameBut_iff_fitsBack` says that the converted document then means the
same whatever comes after the element, and only then.
-/

namespace Literate

@[simp] theorem Tools.patch_standard (run : Runner) : (Tools.standard run).patch = Patch.apply :=
  rfl

/-- **Added lines clear what the content would clear**, if the change brings in nothing else. -/
theorem Snippet.changed_eq {s : Snippet} (hp : s.pending = []) {content : Text}
    {added : List Text} (h : ∀ l ∈ Text.lines content, l ∈ Text.lines s.content ∨ l ∈ added)
    (render : Bool) :
    s.changed content render added = s.changed content render (Text.lines content) := by
  have hpending : (s.changed content render added).pending =
      (s.changed content render (Text.lines content)).pending := by
    rw [pending_changed hp, pending_changed hp]
    refine List.filter_congr fun l hl => ?_
    obtain ⟨hmem, -, hnew⟩ := mem_introduced.mp hl
    simp [hmem, (h l hmem).resolve_left hnew]
  have heq : ∀ t u : Snippet, t.language = u.language → t.content = u.content →
      t.pending = u.pending → t = u := by
    rintro ⟨⟩ ⟨⟩ rfl rfl rfl
    rfl
  exact heq _ _ (by simp) (by simp) hpending

namespace Conversion

open Compile

variable {tools : Tools} {run : Runner} {history calls : List Call} {r : Registry}
  {es before after converted : List Element} {target : Element} {line : Nat} {form : Form}
  {kind kind' : ElementKind}

/-! ### What a conversion does -/

/-- **The other form of an element** that is carried out on the registry `r`. -/
inductive Converts (tools : Tools) (r : Registry) : ElementKind → Form → ElementKind → Prop
  | replace {name diff content : Text} {render : Bool} {s : Snippet} (h : r.get? name = some s)
      (hp : s.pending = []) (ha : tools.patch s.content diff = .ok content) :
      Converts tools r (.diff name render diff) .replace (.replace name render content)
  | diff {name content : Text} {render : Bool} {s : Snippet} (h : r.get? name = some s)
      (hne : s.content ≠ content) :
      Converts tools r (.replace name render content) .diff
        (.diff name render (tools.diff s.content content))

/-- A list is cut at its first element that starts on the line. -/
theorem eq_of_split (h : split line es = some (before, target, after)) :
    es = before ++ target :: after ∧ target.line = line ∧ ∀ e ∈ before, e.line ≠ line := by
  induction es generalizing before with
  | nil => cases h
  | cons e rest ih =>
    rw [split] at h
    split at h
    · next he =>
      obtain ⟨rfl, hrest⟩ := Prod.mk.inj (Option.some.inj h)
      obtain ⟨rfl, rfl⟩ := Prod.mk.inj hrest
      exact ⟨rfl, he, fun e he => absurd he List.not_mem_nil⟩
    · next he =>
      obtain ⟨⟨before', target', after'⟩, hrest, hcons⟩ := Option.map_eq_some_iff.mp h
      obtain ⟨rfl, hpair⟩ := Prod.mk.inj hcons
      obtain ⟨rfl, rfl⟩ := Prod.mk.inj hpair
      obtain ⟨rfl, hline, hbefore⟩ := ih hrest
      exact ⟨rfl, hline, List.forall_mem_cons.mpr ⟨he, hbefore⟩⟩

theorem of_patchedContent {name content : Text}
    (h : patchedContent tools history before target name = ⟨calls, .ok content⟩) :
    ∃ earlier r more r' d s, replay tools history before = ⟨earlier, .ok r⟩ ∧
      target.execute tools (history ++ earlier) r = ⟨more, .ok (r', d)⟩ ∧
      r'.get? name = some s ∧ s.content = content := by
  unfold patchedContent at h
  split at h
  · cases h
  · next earlier r hreplay =>
    split at h
    · cases h
    · next more r' d hexecute =>
      split at h
      · next s hs =>
        obtain ⟨-, he⟩ := Traced.mk.inj h
        exact ⟨earlier, r, more, r', d, s, hreplay, hexecute, hs, Except.ok.inj he⟩
      · cases h

theorem of_writtenDiff {name content diff : Text}
    (h : writtenDiff tools history before line name content = ⟨calls, .ok diff⟩) :
    ∃ earlier r s, replay tools history before = ⟨earlier, .ok r⟩ ∧ r.get? name = some s ∧
      s.content ≠ content ∧ diff = tools.diff s.content content := by
  unfold writtenDiff at h
  split at h
  · cases h
  · next earlier r hreplay =>
    split at h
    · cases h
    · next s hs =>
      split at h
      · cases h
      · next hne =>
        obtain ⟨-, he⟩ := Traced.mk.inj h
        exact ⟨earlier, r, s, hreplay, hs, hne, (Except.ok.inj he).symm⟩

/-- **The kind of the converted element.** -/
theorem converts_of_kind (h : Conversion.kind tools history before target form =
    ⟨calls, .ok kind'⟩) :
    ∃ earlier r, replay tools history before = ⟨earlier, .ok r⟩ ∧
      Converts tools r target.kind form kind' := by
  unfold Conversion.kind at h
  split at h
  · next name render diff hk =>
    split at h
    · cases h
    · next content hcontent =>
      obtain ⟨-, he⟩ := Traced.mk.inj h
      obtain rfl := Except.ok.inj he
      obtain ⟨earlier, r, more, r', d, s, hreplay, hexecute, hs, rfl⟩ := of_patchedContent hcontent
      have step := Element.execute_eq_ok_iff.mp hexecute
      rw [hk] at step ⊢
      cases step with
      | diff hg hp ha =>
        rw [Registry.get?_insert_self] at hs
        obtain rfl := Option.some.inj hs
        refine ⟨earlier, r, hreplay, ?_⟩
        rw [Snippet.content_changed]
        exact .replace hg hp ha
  · next name render content hk =>
    split at h
    · cases h
    · next diff hdiff =>
      obtain ⟨-, he⟩ := Traced.mk.inj h
      obtain rfl := Except.ok.inj he
      obtain ⟨earlier, r, s, hreplay, hs, hne, rfl⟩ := of_writtenDiff hdiff
      rw [hk]
      exact ⟨earlier, r, hreplay, .diff hs hne⟩
  · cases h

/-- **What a conversion does**: one element, the first on its line, gets another kind. -/
theorem exists_of_elements
    (h : (Conversion.elements tools history es line form).result = .ok converted) :
    ∃ before target kind after earlier r, es = before ++ target :: after ∧
      converted = before ++ { target with kind } :: after ∧ target.line = line ∧
      (∀ e ∈ before, e.line ≠ line) ∧ replay tools history before = ⟨earlier, .ok r⟩ ∧
      Converts tools r target.kind form kind := by
  unfold Conversion.elements at h
  split at h
  · cases h
  · next before target after hsplit =>
    split at h
    · cases h
    · next kind hkind =>
      obtain rfl := Except.ok.inj h
      obtain ⟨rfl, hline, hbefore⟩ := eq_of_split hsplit
      obtain ⟨earlier, r, hreplay, hconverts⟩ := converts_of_kind hkind
      exact ⟨before, target, kind, after, earlier, r, rfl, rfl, hline, hbefore, hreplay,
        hconverts⟩

/-! ### The same after both forms -/

/-- **The diff for the element fits back.**  If the element gives a new content to a snippet of `r`
without pending lines, no hunk of the diff that does so slips. -/
def FitsBack (r : Registry) (kind : ElementKind) : Prop :=
  ∀ name render content s, kind = .replace name render content → r.get? name = some s →
    s.pending = [] → ∀ group ∈ Diff.textGroups s.content content,
      ¬ Diff.Slips (Text.lines s.content) (Text.lines content) group

/-- Both forms of a change leave the same registry. -/
theorem exchanges_of_apply {name diff content : Text} {render : Bool} {s : Snippet}
    (h : r.get? name = some s) (hp : s.pending = [])
    (ha : Patch.apply s.content diff = .ok content)
    (ho : s.content = [] ∨ Text.endsWithNewline s.content = true) (hr : '\r' ∉ content)
    {e u : Element} (he : e.kind = .diff name render diff)
    (hu : u.kind = .replace name render content) :
    Exchanges (Tools.standard run) history r e u := by
  have hmem := (Patch.isPlain_of_apply ho hr ha).2.1
  have hdiff : Element.Step (Tools.standard run) history r e.kind []
      (r.insert name (s.changed content render (Text.lines content)))
      ((Rendered.literal diff).when render) := by
    rw [he, ← Snippet.changed_eq hp hmem]
    rw [← Tools.patch_standard run] at ha
    exact .diff h hp ha
  have hreplace : Element.Step (Tools.standard run) history r u.kind []
      (r.insert name (s.changed content render (Text.lines content)))
      ((Rendered.code s.language content).when render) := by
    rw [hu]
    exact .replace h hp
  exact Or.inr ⟨_, _, _, Element.execute_eq_ok_iff.mpr hdiff,
    Element.execute_eq_ok_iff.mpr hreplace⟩

theorem execute_of_pending (tools : Tools) (history : List Call) {name : Text}
    {operation : Operation} {s : Snippet} {e : Element} (h : r.get? name = some s)
    (hp : s.pending ≠ []) (he : gate? e.kind = some (name, operation)) :
    ∃ err, e.execute tools history r = ⟨[], .error err⟩ := by
  rw [Element.execute, effect_of_pending_ne_nil h he hp]
  exact ⟨_, rfl⟩

/-- Pending lines hold both forms back. -/
theorem exchanges_of_pending {name diff content : Text} {render : Bool} {s : Snippet}
    (h : r.get? name = some s) (hp : s.pending ≠ []) {e u : Element}
    (he : e.kind = .diff name render diff) (hu : u.kind = .replace name render content) :
    Exchanges tools history r e u := by
  obtain ⟨err, herr⟩ := execute_of_pending tools history h hp
    (show gate? e.kind = some (name, .applyDiff) by rw [he]; rfl)
  obtain ⟨err', herr'⟩ := execute_of_pending tools history h hp
    (show gate? u.kind = some (name, .replace) by rw [hu]; rfl)
  exact Or.inl ⟨err, err', herr, herr'⟩

/-- **The two forms do the same**, if the diff fits back. -/
theorem exchanges_of_converts {bound : Nat} {run' : Runner} {history' : List Call}
    (h : Converts (Tools.standard run) r target.kind form kind') (hr : r.Plain bound)
    (hbound : bound < wordBound) (hk : target.kind.content.IsPlain)
    (hf : FitsBack r target.kind) :
    Exchanges (Tools.standard run') history' r target { target with kind := kind' } := by
  generalize hkind : target.kind = kind at h hk hf
  cases h with
  | replace h hp ha =>
    obtain ⟨hold, -⟩ := hr _ _ h
    have hret := Patch.return_not_mem_of_apply hold.noReturn hk.noReturn ha
    exact exchanges_of_apply h hp ha hold.ended hret hkind rfl
  | @diff name content render s h hne =>
    obtain ⟨hold, hlen⟩ := hr _ _ h
    refine Exchanges.symm ?_
    have hcontent : content.IsPlain := hk
    by_cases hp : s.pending = []
    · have hsize := Nat.lt_of_le_of_lt hlen hbound
      have happly := (Patch.apply_unified_of_plain hold hcontent hne hsize).2.mpr
        (hf name render content s rfl h hp)
      exact exchanges_of_apply h hp happly hold.ended hcontent.noReturn rfl hkind
    · exact exchanges_of_pending h hp rfl hkind

/-! ### Elements that tell contents apart -/

/-- Two elements: one shows lines of a snippet, and one runs it. -/
def probe (name lines : Text) : List Element :=
  [⟨0, ⟨0, 0⟩, .excerpt name lines⟩, ⟨0, ⟨0, 0⟩, .output name false []⟩]

/-- A snippet that is shown in full is run. -/
theorem calls_probe (tools : Tools) (history : List Call) {name : Text} {s : Snippet}
    (h : r.get? name = some s)
    (hp : ∀ l ∈ s.pending, l ∈ Text.lines s.content) :
    (runFrom tools history r (probe name s.content)).calls = [⟨s.language, s.content⟩] := by
  have hshown : (s.shown (Text.lines s.content)).pending = [] := by
    rw [Snippet.pending_shown, List.filter_eq_nil_iff]
    intro l hl
    simpa using hp l hl
  have step : Element.Step tools history r (.excerpt name s.content) [] _ _ :=
    .excerpt h (Snippet.firstUnknown?_eq_none_iff.mpr fun l hl _ => hl)
  rw [probe, calls_runFrom_cons_of_ok (Element.execute_eq_ok_iff.mpr step),
    calls_runFrom_singleton, Element.calls_execute_output rfl
      (Registry.get?_insert_self ..) hshown]
  rfl

/-- The content that a snippet has after a change is run. -/
theorem calls_probe_changed {name content : Text} {render : Bool} {lines : List Text} {s : Snippet}
    (hp : s.pending = []) :
    (runFrom tools history (r.insert name (s.changed content render lines))
      (probe name content)).calls = [⟨s.language, content⟩] := by
  have hget : (r.insert name (s.changed content render lines)).get? name =
      some (s.changed content render lines) := by
    rw [Registry.get?_insert_self]
  have hpending : ∀ l ∈ (s.changed content render lines).pending,
      l ∈ Text.lines (s.changed content render lines).content := by
    intro l hl
    rw [Snippet.pending_changed hp, List.mem_filter, Snippet.mem_introduced] at hl
    rw [Snippet.content_changed]
    exact hl.1.1
  have h := calls_probe tools history hget hpending
  rwa [Snippet.content_changed, Snippet.language_changed] at h

/-- Whatever lines are to be shown, nothing but the content of the snippet is run. -/
theorem code_of_mem_calls_probe {name lines : Text} {s : Snippet} {call : Call}
    (h : r.get? name = some s)
    (hc : call ∈ (runFrom tools history r (probe name lines)).calls) : call.code = s.content := by
  rcases he : Element.execute tools history r ⟨0, ⟨0, 0⟩, .excerpt name lines⟩ with
    ⟨calls, err | ⟨r', d⟩⟩
  · rw [probe, runFrom, he] at hc
    rcases Element.calls_execute tools history r ⟨0, ⟨0, 0⟩, .excerpt name lines⟩ with
      hnone | ⟨_, _, _, _, hk, -⟩
    · rw [he] at hnone
      rw [hnone] at hc
      cases hc
    · cases hk
  · rw [probe, calls_runFrom_cons_of_ok he, calls_runFrom_singleton] at hc
    cases Element.execute_eq_ok_iff.mp he with
    | excerpt hg hu =>
      obtain rfl := Option.some.inj (h.symm.trans hg)
      rcases Element.calls_execute tools (history ++ []) (r.insert name (s.shown _))
        ⟨0, ⟨0, 0⟩, .output name false []⟩ with hnone | ⟨_, _, _, t, hk, ht, -, hone⟩
      · rw [hnone] at hc
        cases hc
      · obtain ⟨rfl, -, -⟩ := ElementKind.output.inj hk
        rw [hone, List.nil_append, List.mem_singleton] at hc
        rw [Registry.get?_insert_self] at ht
        obtain rfl := Option.some.inj ht
        rw [hc]
        rfl

/-- **Forms that mean the same fit back**: the snippet has the same content after both. -/
theorem fitsBack_of_sameBut {bound : Nat} {earlier : List Call} {ds : List Rendered}
    (h : Converts (Tools.standard run) r target.kind form kind') (hr : r.Plain bound)
    (hbound : bound < wordBound) (hk : target.kind.content.IsPlain)
    (hrun : Runs (Tools.standard run) history .empty before earlier r ds)
    (hsame : ∀ more, SameBut (Tools.standard run) history before.length (before ++ target :: more)
      (before ++ { target with kind := kind' } :: more)) : FitsBack r target.kind := by
  intro name render content s hkind hg hp
  rw [hkind] at h hk
  have hcontent : content.IsPlain := hk
  cases h with
  | @diff _ _ _ t ht hne =>
    obtain rfl := Option.some.inj (hg.symm.trans ht)
    obtain ⟨hold, hlen⟩ := hr _ _ hg
    obtain ⟨⟨result, happly⟩, hiff⟩ :=
      Patch.apply_unified_of_plain hold hcontent hne (Nat.lt_of_le_of_lt hlen hbound)
    refine hiff.mp ?_
    have step : Element.Step (Tools.standard run) (history ++ earlier) r target.kind []
        (r.insert name (s.changed content render (Text.lines content)))
        ((Rendered.code s.language content).when render) := by
      rw [hkind]
      exact .replace hg hp
    have hpatch : (Tools.standard run).patch s.content (Diff.unified s.content content) =
        .ok result := by
      rw [Tools.patch_standard, happly]
    have step' : Element.Step (Tools.standard run) (history ++ earlier) r
        (.diff name render (Diff.unified s.content content)) [] _ _ := .diff hg hp hpatch
    have hcalls := (hsame (probe name result)).calls
    rw [calls_elements, calls_elements, calls_runFrom_append hrun, calls_runFrom_append hrun,
      calls_runFrom_cons_of_ok (Element.execute_eq_ok_iff.mpr step),
      calls_runFrom_cons_of_ok (Element.execute_eq_ok_iff.mpr step'), List.nil_append,
      List.nil_append, List.append_cancel_left_eq] at hcalls
    -- The probe runs the content after the diff, so it runs it after the new content too.
    rw [calls_probe_changed hp] at hcalls
    have hcode := code_of_mem_calls_probe (Registry.get?_insert_self ..)
      (hcalls ▸ List.mem_singleton_self _)
    rw [Snippet.content_changed] at hcode
    exact happly.trans (congrArg Except.ok hcode)

/-- **A converted block means the same if the diff fits back.**  The conversion of a block of a
document without CR that is empty or ends with LF gives another form to the first element on the
line.  Whatever is run, and whatever comes after the element, the document with the other form means
the same, if the diff written for the element fits back, and only then.  From a diff to a new
content nothing has to fit back. -/
theorem sameBut_iff_fitsBack {source : Text} (hr : '\r' ∉ source)
    (hs : source = [] ∨ Text.endsWithNewline source = true) (hsize : source.length < wordBound)
    (hload : Element.load source = .ok es)
    (h : (Conversion.elements (Tools.standard run) history es line form).result = .ok converted) :
    ∃ before target kind after earlier r, es = before ++ target :: after ∧
      converted = before ++ { target with kind } :: after ∧ target.line = line ∧
      (∀ e ∈ before, e.line ≠ line) ∧
      replay (Tools.standard run) history before = ⟨earlier, .ok r⟩ ∧
      ((∀ run' history' more, SameBut (Tools.standard run') history' before.length
          (before ++ target :: more) (before ++ { target with kind } :: more)) ↔
        FitsBack r target.kind) ∧
      (form = .replace → FitsBack r target.kind) := by
  obtain ⟨before, target, kind, after, earlier, r, rfl, rfl, hline, hbefore, hreplay, hconverts⟩ :=
    exists_of_elements h
  obtain ⟨ds, hrun⟩ := replay_eq_ok_iff.mp hreplay
  have hplain := plain_of_load rfl hr hs hload hrun
  have hbound : Text.newlineCount source < wordBound :=
    Nat.lt_of_le_of_lt List.count_le_length hsize
  have htarget := isPlain_of_load hr hs hload target
    (List.mem_append_right _ List.mem_cons_self)
  refine ⟨before, target, kind, after, earlier, r, rfl, rfl, hline, hbefore, hreplay,
    ⟨fun hsame => ?_, fun hfits run' history' more => ?_⟩, fun hform => ?_⟩
  · exact fitsBack_of_sameBut hconverts hplain hbound htarget hrun (hsame run history)
  · refine sameBut_of_exchanges (fun calls' r' ds' hrun' => ?_) more
    have hpatch : (Tools.standard run).patch = (Tools.standard run').patch := by
      rw [Tools.patch_standard, Tools.patch_standard]
    obtain ⟨-, rfl, -⟩ := hrun.unique hpatch hrun'
    exact exchanges_of_converts hconverts hplain hbound htarget hfits
  · subst hform
    intro name render content s hkind
    rw [hkind] at hconverts
    cases hconverts

/-- A diff in the middle of a document is written as the new content. -/
theorem sameBut_of_replace :
    let run : Runner := fun _ _ => .ok (Text.ofString "3")
    let source := Text.ofLines
      [".. diff-doc:: start a", "    :language: sh", "    :render: True", "", "    b",
        ".. diff-doc:: diff a", "    :render: False", "", "    @@ -1 +1,2 @@", "     b", "    +c",
        ".. diff-doc:: render a", "", "    c",
        ".. diff-doc:: output a", "    :render: True", "", "    3"]
    let es := (Element.load source).toOption.getD []
    let converted :=
      (Conversion.elements (Tools.standard run) [] es 6 .replace).result.toOption.getD []
    es.length = 4 ∧ Element.load source = .ok es ∧
      (Conversion.elements (Tools.standard run) [] es 6 .replace).result = .ok converted ∧
      ∃ i, ∀ run' history', SameBut (Tools.standard run') history' i es converted := by
  intro run source es converted
  have hlen : es.length = 4 := by decide +kernel
  have hr : '\r' ∉ source := by decide +kernel
  have hs : Text.endsWithNewline source = true := by decide +kernel
  have hsize : source.length < wordBound := by decide +kernel
  have hload : Element.load source = .ok es := by decide +kernel
  have h : (Conversion.elements (Tools.standard run) [] es 6 .replace).result = .ok converted := by
    decide +kernel
  obtain ⟨before, target, kind, after, earlier, r, hes, hconverted, -, -, -, hiff, hfits⟩ :=
    sameBut_iff_fitsBack hr (Or.inr hs) hsize hload h
  refine ⟨hlen, hload, h, before.length, fun run' history' => ?_⟩
  rw [hes, hconverted]
  exact hiff.mpr (hfits rfl) run' history' after

/-- **A conversion that changes the meaning.**  The snippet is run with its lines in another order,
so it prints another text. -/
theorem sameBut_slipped :
    let run : Runner := fun _ call => .ok call.code
    let source := Text.ofLines
      [".. diff-doc:: start a", "    :language: sh", "    :render: True", "", "    d", "    e",
        "    f", "    a", "    a", "    a", "    a", "    a", "    a", "    a",
        ".. diff-doc:: replace a", "    :render: True", "", "    a", "    a", "    a", "    a",
        "    a", "    a", "    a", "    a", "    a", "    b",
        ".. diff-doc:: output a", "    :render: False", "", "    a", "    a", "    a", "    a",
        "    a", "    a", "    a", "    a", "    a", "    b"]
    let es := (Element.load source).toOption.getD []
    let converted :=
      (Conversion.elements (Tools.standard run) [] es 15 .diff).result.toOption.getD []
    Element.load source = .ok es ∧
      (Conversion.elements (Tools.standard run) [] es 15 .diff).result = .ok converted ∧
      Compiles (Tools.standard run) [] es ∧ ¬ Compiles (Tools.standard run) [] converted := by
  intro run source es converted
  have hload : Element.load source = .ok es := by decide +kernel
  have h : (Conversion.elements (Tools.standard run) [] es 15 .diff).result = .ok converted := by
    decide +kernel
  have hbefore : (Compile.elements (Tools.standard run) [] es).result.isOk = true := by
    decide +kernel
  have hafter : ¬ (Compile.elements (Tools.standard run) [] converted).result.isOk = true := by
    decide +kernel
  exact ⟨hload, h, compiles_iff.mpr hbefore, fun hc => hafter (compiles_iff.mp hc)⟩

end Conversion

end Literate
