import Literate.Patch.Apply
import Literate.Proofs.Compile.Runs
import Literate.Proofs.Rendered

/-!
# Nothing is run before it was shown

`Disclosed es ds name s`: every line of the snippet `s`, blank ones apart, is pending, or one of the
elements `es` that name the snippet has shown it in its rendering among `ds`.  Every step keeps this
(`disclosed_step`), so it holds along every run (`Runs.disclosed`).  `Runs.started` goes with it: a
snippet has the language that its one `start` element gave it.

Code is run only when no line is pending.  `calls_shown` puts this together for a whole document:
whatever is run was shown before, line by line.
-/

namespace Literate.Compile

open Element

/-- An element of the kind brings the snippet `name` into being. -/
def Starts (name : Text) (kind : ElementKind) : Prop :=
  ∃ language render content, kind = .start name language render content

/-- **Every line is pending or was shown**, blank lines apart.  The elements `es` have the
renderings `ds`. -/
def Disclosed (es : List Element) (ds : List Rendered) (name : Text) (s : Snippet) : Prop :=
  ∀ l ∈ Text.lines s.content, Text.isBlank l = false →
    l ∈ s.pending ∨ ∃ p ∈ es.zip ds, p.1.kind.name? = some name ∧ p.2.Shows l

/-- The snippet has the language of the one element among `es` that starts it. -/
def Started (es : List Element) (name : Text) (s : Snippet) : Prop :=
  ∃ (before : List Element) (e : Element) (after : List Element) (render : Bool) (content : Text),
    es = before ++ e :: after ∧ e.kind = .start name s.language render content ∧
      ∀ u ∈ before ++ after, ¬ Starts name u.kind

variable {tools : Tools} {history calls : List Call} {r r' : Registry} {es : List Element}
  {ds : List Rendered}

/-! ### One step -/

/-- What a change leaves of the lines of its content: it is pending, the old content had it, or the
change has shown it. -/
theorem mem_pending_changed_or {s : Snippet} (render : Bool) (lines : List Text)
    (hp : s.pending = []) {content l : Text} (hl : l ∈ Text.lines content)
    (hb : Text.isBlank l = false) :
    l ∈ (s.changed content render lines).pending ∨ l ∈ Text.lines s.content ∨
      (render = true ∧ l ∈ lines) := by
  by_cases hold : l ∈ Text.lines s.content
  · exact Or.inr (Or.inl hold)
  · by_cases hshown : render = true ∧ l ∈ lines
    · exact Or.inr (Or.inr hshown)
    · refine Or.inl ?_
      rw [Snippet.pending_changed hp, List.mem_filter, Snippet.mem_introduced]
      refine ⟨⟨hl, hb, hold⟩, ?_⟩
      cases render
      · rfl
      · simpa using hshown

/-- A change of a snippet whose lines were all shown keeps the snippet disclosed, if what it shows
stands in its rendering. -/
theorem disclosed_changed {name content : Text} {s : Snippet} {render : Bool} {lines : List Text}
    {e : Element} {d : Rendered} (hlen : es.length = ds.length) (hp : s.pending = [])
    (hs : Disclosed es ds name s) (he : e.kind.name? = some name)
    (hd : ∀ l ∈ lines, Text.isBlank l = false → d.Shows l) :
    Disclosed (es ++ [e]) (ds ++ [d.when render]) name (s.changed content render lines) := by
  intro l hl hb
  rw [Snippet.content_changed] at hl
  rw [List.zip_append hlen]
  rcases mem_pending_changed_or render lines hp hl hb with
    h | h | ⟨rfl, h⟩
  · exact Or.inl h
  · rcases hs l h hb with h | ⟨p, hm, h⟩
    · rw [hp] at h
      exact absurd h List.not_mem_nil
    · exact Or.inr ⟨p, List.mem_append_left _ hm, h⟩
  · exact Or.inr ⟨(e, d), List.mem_append_right _ List.mem_cons_self, he, hd l h hb⟩

theorem Disclosed.snoc {name : Text} {s : Snippet} (h : Disclosed es ds name s)
    (hlen : es.length = ds.length) (e : Element) (d : Rendered) :
    Disclosed (es ++ [e]) (ds ++ [d]) name s := by
  intro l hl hb
  rw [List.zip_append hlen]
  rcases h l hl hb with h | ⟨p, hm, h⟩
  · exact Or.inl h
  · exact Or.inr ⟨p, List.mem_append_left _ hm, h⟩

/-- **A step keeps the snippets disclosed.** -/
theorem disclosed_step {e : Element} {more : List Call} {d : Rendered}
    (hlen : es.length = ds.length)
    (h : ∀ name s, r.get? name = some s → Disclosed es ds name s)
    (step : Step tools history r e.kind more r' d) {name : Text} {s : Snippet}
    (hs : r'.get? name = some s) : Disclosed (es ++ [e]) (ds ++ [d]) name s := by
  by_cases hn : e.kind.name? = some name
  · generalize hk : e.kind = kind at step
    rw [hk] at hn
    have he : e.kind.name? = some name := by rw [hk, hn]
    cases step with
    | prose text => cases hn
    | start hnone =>
      obtain rfl := Option.some.inj hn
      rw [Registry.get?_insert_self] at hs
      obtain rfl := Option.some.inj hs
      refine disclosed_changed hlen rfl ?_ he fun l hl hb => Rendered.shows_code _ hl hb
      intro l hl
      exact absurd hl List.not_mem_nil
    | replace hg hp =>
      obtain rfl := Option.some.inj hn
      rw [Registry.get?_insert_self] at hs
      obtain rfl := Option.some.inj hs
      exact disclosed_changed hlen hp (h _ _ hg) he fun l hl hb => Rendered.shows_code _ hl hb
    | diff hg hp ha =>
      obtain rfl := Option.some.inj hn
      rw [Registry.get?_insert_self] at hs
      obtain rfl := Option.some.inj hs
      exact disclosed_changed hlen hp (h _ _ hg) he fun l hl hb =>
        Rendered.shows_literal_added hl hb
    | @excerpt _ content t hg hu =>
      obtain rfl := Option.some.inj hn
      rw [Registry.get?_insert_self] at hs
      obtain rfl := Option.some.inj hs
      intro l hl hb
      -- A line that the excerpt takes off the pending lines stands in its rendering.
      by_cases hshown : l ∈ Text.lines content
      · refine Or.inr ⟨(e, .code t.language content), ?_, he, Rendered.shows_code _ hshown hb⟩
        rw [List.zip_append hlen]
        exact List.mem_append_right _ List.mem_cons_self
      · rcases (h _ _ hg).snoc hlen e (.code t.language content) l hl hb with hp | hp
        · refine Or.inl ?_
          rw [Snippet.pending_shown, List.mem_filter]
          exact ⟨hp, by simpa using hshown⟩
        · exact Or.inr hp
    | output hg hp hc => exact (h _ _ hs).snoc hlen e _
  · rw [step.get?_of_name_ne hn] at hs
    exact (h name s hs).snoc hlen e d

/-- A step that does not start a snippet leaves its language. -/
theorem language_eq_of_step {e : Element} {more : List Call} {d : Rendered}
    (step : Step tools history r e.kind more r' d) {name : Text} {s' : Snippet}
    (hs : r'.get? name = some s') (hn : ¬ Starts name e.kind) :
    ∃ s, r.get? name = some s ∧ s.language = s'.language := by
  generalize hk : e.kind = kind at step hn
  by_cases he : kind.name? = some name
  · cases step with
    | prose text => cases he
    | start hnone =>
      obtain rfl := Option.some.inj he
      exact absurd ⟨_, _, _, rfl⟩ hn
    | output hg hp hc => exact ⟨s', hs, rfl⟩
    | _ hg =>
      obtain rfl := Option.some.inj he
      rw [Registry.get?_insert_self] at hs
      obtain rfl := Option.some.inj hs
      exact ⟨_, hg, by simp⟩
  · rw [step.get?_of_name_ne he] at hs
    exact ⟨s', hs, rfl⟩

/-- A name without a snippet after a step has none before it, and the step does not start it. -/
theorem get?_eq_none_of_step {kind : ElementKind} {more : List Call} {d : Rendered}
    (step : Step tools history r kind more r' d) {name : Text} (h : r'.get? name = none) :
    r.get? name = none ∧ ¬ Starts name kind := by
  cases step with
  | prose text => exact ⟨h, fun ⟨_, _, _, hk⟩ => nomatch hk⟩
  | output hg hp hc => exact ⟨h, fun ⟨_, _, _, hk⟩ => nomatch hk⟩
  | start hnone =>
    rw [Registry.get?_insert] at h
    split at h
    · cases h
    · next hne =>
      refine ⟨h, ?_⟩
      rintro ⟨_, _, _, hk⟩
      cases hk
      exact hne rfl
  | _ hg =>
    rw [Registry.get?_insert] at h
    split at h
    · cases h
    · exact ⟨h, fun ⟨_, _, _, hk⟩ => nomatch hk⟩

/-! ### Whole runs -/

/-- **Along every run, every line is pending or was shown.** -/
theorem Runs.disclosed (run : Runs tools history .empty es calls r ds) {name : Text} {s : Snippet}
    (hs : r.get? name = some s) : Disclosed es ds name s := by
  induction run generalizing name s with
  | nil => cases hs
  | snoc run step ih => exact disclosed_step run.length_eq (fun _ _ => ih) step hs

/-- A name without a snippet has not been started. -/
theorem Runs.not_starts (run : Runs tools history .empty es calls r ds) {name : Text}
    (hs : r.get? name = none) : ∀ e ∈ es, ¬ Starts name e.kind := by
  induction run with
  | nil => intro e he; exact absurd he List.not_mem_nil
  | snoc run step ih =>
    obtain ⟨hr, hn⟩ := get?_eq_none_of_step step hs
    intro e he
    rcases List.mem_append.mp he with he | he
    · exact ih hr e he
    · rw [List.mem_singleton.mp he]
      exact hn

/-- **Along every run, a snippet has the language of the one element that started it.** -/
theorem Runs.started (run : Runs tools history .empty es calls r ds) {name : Text} {s : Snippet}
    (hs : r.get? name = some s) : Started es name s := by
  induction run generalizing s with
  | nil => cases hs
  | @snoc es _ _ r₁ _ _ e _ run step ih =>
    by_cases hn : Starts name e.kind
    · obtain ⟨language, render, content, hk⟩ := hn
      rw [hk] at step
      cases step with
      | start hnone =>
        rw [Registry.get?_insert_self] at hs
        obtain rfl := Option.some.inj hs
        refine ⟨es, e, [], render, content, rfl, by rw [hk, Snippet.language_changed]; rfl, ?_⟩
        rw [List.append_nil]
        exact run.not_starts hnone
    · obtain ⟨t, ht, hl⟩ := language_eq_of_step step hs hn
      obtain ⟨before, u, after, render, content, rfl, hk, hu⟩ := ih ht
      refine ⟨before, u, after ++ [e], render, content, by simp, by rw [← hl, hk], ?_⟩
      intro v hv
      rw [← List.append_assoc] at hv
      rcases List.mem_append.mp hv with hv | hv
      · exact hu v hv
      · rw [List.mem_singleton.mp hv]
        exact hn

/-! ### Documents -/

theorem calls_document (tools : Tools) (history : List Call) (source : Text) :
    (document tools history source).calls =
      match Element.load source with
      | .error _ => []
      | .ok es => (runFrom tools history .empty es).calls := by
  rw [document]
  cases Element.load source with
  | error e => rfl
  | ok es =>
    simp only [elements]
    rcases runFrom tools history .empty es with ⟨calls, _ | ⟨r, ds⟩⟩ <;> rfl

/-- The call `call`, made for a document after the calls `earlier`, is made by an `output` element
that the elements before it lead to.  Every line of its code that is not blank stands in the
rendering of one of those that names the same snippet, and its language is that of the only one
among them that starts the snippet. -/
def ShownBefore (tools : Tools) (history : List Call) (source : Text) (earlier : List Call)
    (call : Call) : Prop :=
  ∃ (before : List Element) (target : Element) (after : List Element) (r : Registry)
    (ds : List Rendered) (name : Text) (render : Bool) (content : Text),
    Element.load source = .ok (before ++ target :: after) ∧
    runFrom tools history .empty before = ⟨earlier, .ok (r, ds)⟩ ∧
    target.kind = .output name render content ∧
    (target.execute tools (history ++ earlier) r).calls = [call] ∧
    (∀ l ∈ Text.lines call.code, Text.isBlank l = false →
      ∃ p ∈ before.zip ds, p.1.kind.name? = some name ∧ p.2.Shows l) ∧
    ∃ (first : List Element) (e : Element) (rest : List Element) (render' : Bool)
      (content' : Text), before = first ++ e :: rest ∧
        e.kind = .start name call.language render' content' ∧
        ∀ u ∈ first ++ rest, ¬ Starts name u.kind

/-- **Nothing is run before it was shown**, in a document that compiles and in one that fails. -/
theorem calls_shown (tools : Tools) (history : List Call) (source : Text)
    {earlier later : List Call} {call : Call}
    (h : (document tools history source).calls = earlier ++ call :: later) :
    ShownBefore tools history source earlier call := by
  rw [calls_document] at h
  cases hl : Element.load source with
  | error e =>
    rw [hl] at h
    exact absurd h (by simp)
  | ok es =>
    rw [hl] at h
    obtain ⟨before, target, after, r, ds, rfl, run, hcall⟩ := exists_of_calls_runFrom h
    rcases Element.calls_execute tools (history ++ earlier) r target with
      hnone | ⟨name, render, content, s, hk, hs, hp, hc⟩
    · rw [hnone] at hcall
      exact absurd hcall (by simp)
    · rw [hc] at hcall
      obtain rfl : (⟨s.language, s.content⟩ : Call) = call := (List.cons.inj hcall).1
      refine ⟨before, target, after, r, ds, name, render, content, hl, run.runFrom_eq, hk, hc,
        ?_, run.started hs⟩
      intro l hmem hb
      rcases run.disclosed hs l hmem hb with hpend | hshown
      · rw [hp] at hpend
        exact absurd hpend List.not_mem_nil
      · exact hshown

/-- A snippet that a rendered diff has changed is run, and the document fails since nothing is
printed. -/
theorem calls_shown_after_diff :
    let tools : Tools := ⟨fun _ _ => .ok [], Patch.apply, fun _ _ => []⟩
    let source := Text.ofLines
      [".. diff-doc:: start a", "    :language: sh", "    :render: True", "", "    b",
        ".. diff-doc:: diff a", "    :render: True", "", "    @@ -1 +1,2 @@", "     b", "    +c",
        ".. diff-doc:: output a", "    :render: True", "", "    d"]
    (document tools [] source).calls =
        [] ++ ⟨Text.ofString "sh", Text.ofString "b\nc\n"⟩ :: [] ∧
      ShownBefore tools [] source [] ⟨Text.ofString "sh", Text.ofString "b\nc\n"⟩ := by
  intro tools source
  have h : (document tools [] source).calls =
      [] ++ ⟨Text.ofString "sh", Text.ofString "b\nc\n"⟩ :: [] := by
    decide +kernel
  exact ⟨h, calls_shown tools [] source h⟩

end Literate.Compile
