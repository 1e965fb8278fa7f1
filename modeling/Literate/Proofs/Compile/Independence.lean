import Literate.Patch.Apply
import Literate.Proofs.Compile.Meaning

/-!
# Snippets do not interfere

An element reads and changes one snippet, the one it names, and no other.  So a document is put
together from the documents of its snippets: `naming name es` are the elements of `es` that name a
snippet, and `renderingsOf name es ds` is what the reader gets to see of them.

Answers are taken not to depend on the calls made before (`Runner.IsPure`).  Then the elements
compile exactly if those of each snippet do, and they look the same
(`result_elements_eq_ok_iff_composed`).  If they do not, the fault is that of the snippet whose
elements fail first (`result_elements_eq_error_iff`).  `elements_independent` puts this together,
with what follows for two neighbours that change places.
-/

namespace Literate

/-- Answers do not depend on the calls made before. -/
def Runner.IsPure (run : Runner) : Prop :=
  ∀ history history' call, run history call = run history' call

namespace Traced

variable {ε : Type} {name : Text} {t : Traced ε (Registry × Rendered)} {calls : List Call}

/-- What work on a registry comes to for the snippet `name`: its calls, and a fault, or the snippet
and the rendering. -/
def view (name : Text) (t : Traced ε (Registry × Rendered)) :
    List Call × Except ε (Option Snippet × Rendered) :=
  (t.calls, t.result.map fun p => (p.1.get? name, p.2))

theorem view_eq_ok {s : Option Snippet} {d : Rendered} (h : t.view name = (calls, .ok (s, d))) :
    ∃ r, t = ⟨calls, .ok (r, d)⟩ ∧ r.get? name = s := by
  obtain ⟨calls', e | ⟨r, d'⟩⟩ := t
  · cases (Prod.mk.inj h).2
  · obtain ⟨rfl, hr⟩ := Prod.mk.inj h
    obtain ⟨hs, rfl⟩ := Prod.mk.inj (Except.ok.inj hr)
    exact ⟨r, rfl, hs⟩

theorem view_eq_error {e : ε} (h : t.view name = (calls, .error e)) : t = ⟨calls, .error e⟩ := by
  obtain ⟨calls', e' | ⟨r, d'⟩⟩ := t
  · obtain ⟨rfl, hr⟩ := Prod.mk.inj h
    rw [Except.error.inj hr]
  · cases (Prod.mk.inj h).2

end Traced

theorem Registry.get?_record (r : Registry) (name : Text) (s : Snippet) (render : Bool)
    (lines : List Text) (d : Rendered) :
    (r.record name s render lines d).1.get? name = some (if render then s.shown lines else s) ∧
      (r.record name s render lines d).2 = d.when render := by
  cases render
  · exact ⟨get?_insert_self .., rfl⟩
  · exact ⟨get?_insert_self .., rfl⟩

variable {tools : Tools} {history history' calls : List Call} {r r' r₁ : Registry} {name : Text}

namespace Element

/-- **An element depends on the snippet it names** and on nothing else in the registry. -/
theorem view_effect_congr (history history' : List Call) (hpure : tools.run.IsPure)
    {kind : ElementKind} (hn : kind.name? = some name) (h : r.get? name = r'.get? name) :
    (effect tools history r kind).view name = (effect tools history' r' kind).view name := by
  have hc : r.contains name = r'.contains name := by rw [Registry.contains, h, Registry.contains]
  have hl : r.lookup name = r'.lookup name := by rw [Registry.lookup, h, Registry.lookup]
  have hs : ∀ operation, r.lookupShown name operation = r'.lookupShown name operation :=
    fun operation => by rw [Registry.lookupShown, hl, Registry.lookupShown]
  cases kind with
  | prose text => cases hn
  | start name language render content =>
    obtain rfl := Option.some.inj hn
    simp only [effect, Registry.start, hc]
    by_cases hstarted : r'.contains name = true
    · simp only [if_pos hstarted]
    · simp only [if_neg hstarted]
      simp [Traced.view, Traced.pure, Except.map, Registry.get?_record]
  | replace name render content =>
    obtain rfl := Option.some.inj hn
    simp only [effect, Registry.replace, hs]
    split
    · rfl
    · simp [Traced.view, Traced.pure, Except.map, Registry.get?_record]
  | diff name render content =>
    obtain rfl := Option.some.inj hn
    simp only [effect, Registry.patch, hs]
    split
    · rfl
    · split
      · rfl
      · simp [Traced.view, Traced.pure, Except.map, Registry.get?_record]
  | excerpt name content =>
    obtain rfl := Option.some.inj hn
    simp only [effect, Registry.excerpt, hl]
    split
    · rfl
    · split
      · rfl
      · simp [Traced.view, Traced.pure, Except.map, Registry.get?_insert_self]
  | output name render content =>
    obtain rfl := Option.some.inj hn
    simp only [effect, verify, hs]
    split
    · rfl
    · rw [hpure history history']
      split
      · rfl
      · simp only [Traced.view, Except.map, h]

theorem view_execute_congr (history history' : List Call) (hpure : tools.run.IsPure)
    {element : Element} (hn : element.kind.name? = some name) (h : r.get? name = r'.get? name) :
    (element.execute tools history r).view name =
      (element.execute tools history' r').view name := by
  have heffect := view_effect_congr history history' hpure hn h
  rw [execute, execute]
  rcases hr : effect tools history r element.kind with ⟨calls, fault | ⟨r₁, d⟩⟩
  · rw [hr] at heffect
    rw [Traced.view_eq_error heffect.symm]
  · rw [hr] at heffect
    obtain ⟨r₁', hr', hs⟩ := Traced.view_eq_ok heffect.symm
    rw [hr']
    simp only [Traced.view, Except.map, hs]

/-- A step goes the same way for the snippet it names, whatever the other snippets are. -/
theorem Step.exists_of_get?_eq (history' : List Call) (hpure : tools.run.IsPure)
    {element : Element} {d : Rendered} (hn : element.kind.name? = some name)
    (h : r.get? name = r'.get? name)
    (step : Step tools history r element.kind calls r₁ d) :
    ∃ r₁', Step tools history' r' element.kind calls r₁' d ∧ r₁.get? name = r₁'.get? name := by
  have hview := view_execute_congr history history' hpure hn h
  rw [execute_eq_ok_iff.mpr step] at hview
  obtain ⟨r₁', he, hs⟩ := Traced.view_eq_ok hview.symm
  exact ⟨r₁', execute_eq_ok_iff.mp he, hs.symm⟩

/-- It fails the same way too. -/
theorem execute_eq_error_of_get?_eq (hpure : tools.run.IsPure) {element : Element}
    {err : CompileError} (hn : element.kind.name? = some name) (h : r.get? name = r'.get? name)
    (he : element.execute tools history r = ⟨calls, .error err⟩) :
    element.execute tools history' r' = ⟨calls, .error err⟩ := by
  have hview := view_execute_congr history history' hpure hn h
  rw [he] at hview
  exact Traced.view_eq_error hview.symm

/-- An element without a name is always carried out. -/
theorem Step.exists_of_name?_eq_none {element : Element} (hn : element.kind.name? = none) :
    ∃ d, Step tools history r element.kind [] r d := by
  obtain ⟨line, span, kind⟩ := element
  cases kind with
  | prose text => exact ⟨.prose text, .prose text⟩
  | _ => cases hn

/-- Prose does not fail. -/
theorem exists_name_of_execute_error {element : Element} {err : CompileError}
    (he : element.execute tools history r = ⟨calls, .error err⟩) :
    ∃ name, element.kind.name? = some name := by
  obtain ⟨line, span, kind⟩ := element
  cases kind with
  | prose text => cases he
  | _ => exact ⟨_, rfl⟩

/-- If answers do not depend on earlier calls, neither does what an element does. -/
theorem effect_of_isPure (hpure : tools.run.IsPure) (history history' : List Call) (r : Registry)
    (kind : ElementKind) : effect tools history r kind = effect tools history' r kind := by
  cases kind with
  | output name render content =>
    simp only [effect, verify, hpure history history']
  | _ => rfl

theorem execute_of_isPure (hpure : tools.run.IsPure) (history history' : List Call) (r : Registry)
    (element : Element) : element.execute tools history r = element.execute tools history' r := by
  rw [execute, effect_of_isPure hpure history history', ← execute]

end Element

namespace Compile

variable {es us as bs before after : List Element} {e a b target : Element} {ds ds' : List Rendered}
  {err : CompileError}

/-! ### Earlier calls -/

theorem runFrom_of_isPure (hpure : tools.run.IsPure) (history history' : List Call) (r : Registry)
    (es : List Element) : runFrom tools history r es = runFrom tools history' r es := by
  induction es generalizing history history' r with
  | nil => rfl
  | cons e es ih =>
    rw [runFrom, runFrom, Element.execute_of_isPure hpure history history']
    rcases e.execute tools history' r with ⟨calls, err | ⟨r₁, d⟩⟩
    · rfl
    · simp only
      rw [ih (history ++ calls) (history' ++ calls)]

/-- **A document compiles in the same way after any calls**, if answers do not depend on them. -/
theorem document_of_isPure (hpure : tools.run.IsPure) (history history' : List Call)
    (source : Text) : document tools history source = document tools history' source := by
  unfold document elements
  simp only [runFrom_of_isPure hpure history history']

/-! ### The elements of a snippet -/

/-- The elements that name the snippet `name`. -/
def naming (name : Text) (es : List Element) : List Element :=
  es.filter fun e => e.kind.name? = some name

/-- What the reader gets to see of the elements that name the snippet; the elements `es` have the
renderings `ds`. -/
def renderingsOf (name : Text) (es : List Element) (ds : List Rendered) : List Rendered :=
  ((es.zip ds).filter fun p => p.1.kind.name? = some name).map Prod.snd

theorem naming_append (name : Text) (as bs : List Element) :
    naming name (as ++ bs) = naming name as ++ naming name bs :=
  List.filter_append ..

theorem naming_cons_of_eq (h : e.kind.name? = some name) (es : List Element) :
    naming name (e :: es) = e :: naming name es :=
  List.filter_cons_of_pos (by simpa using h)

theorem naming_cons_of_ne (h : e.kind.name? ≠ some name) (es : List Element) :
    naming name (e :: es) = naming name es :=
  List.filter_cons_of_neg (by simpa using h)

theorem renderingsOf_append (name : Text) (h : as.length = ds.length) (bs : List Element)
    (ds' : List Rendered) :
    renderingsOf name (as ++ bs) (ds ++ ds') =
      renderingsOf name as ds ++ renderingsOf name bs ds' := by
  rw [renderingsOf, List.zip_append h, List.filter_append, List.map_append]
  rfl

theorem renderingsOf_cons_of_eq (h : e.kind.name? = some name) (es : List Element) (d : Rendered)
    (ds : List Rendered) :
    renderingsOf name (e :: es) (d :: ds) = d :: renderingsOf name es ds := by
  rw [renderingsOf, List.zip_cons_cons, List.filter_cons_of_pos (by simpa using h)]
  rfl

theorem renderingsOf_cons_of_ne (h : e.kind.name? ≠ some name) (es : List Element) (d : Rendered)
    (ds : List Rendered) : renderingsOf name (e :: es) (d :: ds) = renderingsOf name es ds := by
  rw [renderingsOf, List.zip_cons_cons, List.filter_cons_of_neg (by simpa using h)]
  rfl

/-! ### Runs -/

theorem result_elements_eq_ok_iff_runs :
    (elements tools history es).result = .ok ds ↔
      ∃ calls r, Runs tools history .empty es calls r ds := by
  simp only [← elements_eq_ok_iff]
  rcases elements tools history es with ⟨calls, err | ds'⟩ <;> simp

theorem compiles_iff_runs : Compiles tools history es ↔
    ∃ calls r ds, Runs tools history .empty es calls r ds := by
  simp only [Compiles, result_elements_eq_ok_iff_runs]
  constructor
  · rintro ⟨ds, calls, r, run⟩
    exact ⟨calls, r, ds, run⟩
  · rintro ⟨calls, r, ds, run⟩
    exact ⟨ds, calls, r, run⟩

theorem Compiles.of_append (h : Compiles tools history (as ++ bs)) : Compiles tools history as := by
  induction bs using List.reverseRecOn with
  | nil => rwa [List.append_nil] at h
  | append_singleton bs b ih =>
    rw [← List.append_assoc] at h
    obtain ⟨calls, r, ds, run⟩ := compiles_iff_runs.mp h
    obtain ⟨calls₁, r₁, ds₁, more, d, -, -, run₁, -⟩ := run.exists_of_concat
    exact ih (compiles_iff_runs.mpr ⟨calls₁, r₁, ds₁, run₁⟩)

/-- **A run is followed by a run of the elements of each snippet.**  The snippet is the same after
both, and its elements look the same. -/
theorem Runs.exists_naming (hpure : tools.run.IsPure)
    (run : Runs tools history .empty es calls r ds) (name : Text) :
    ∃ calls' r', Runs tools history .empty (naming name es) calls' r' (renderingsOf name es ds) ∧
      r.get? name = r'.get? name := by
  induction run with
  | nil => exact ⟨[], .empty, .nil, rfl⟩
  | @snoc es calls more r₁ r₂ ds e d run step ih =>
    obtain ⟨calls', r', run', hr'⟩ := ih
    rw [naming_append, renderingsOf_append name run.length_eq]
    by_cases hn : e.kind.name? = some name
    · obtain ⟨r₂', step', hr₂'⟩ :=
        step.exists_of_get?_eq (history ++ calls') hpure hn hr'
      rw [naming_cons_of_eq hn, renderingsOf_cons_of_eq hn]
      exact ⟨_, r₂', run'.snoc step', hr₂'⟩
    · rw [naming_cons_of_ne hn, renderingsOf_cons_of_ne hn]
      refine ⟨calls', r', ?_, (step.get?_of_name_ne hn).trans hr'⟩
      show Runs tools history .empty (naming name es ++ []) calls' r'
        (renderingsOf name es ds ++ [])
      rwa [List.append_nil, List.append_nil]

theorem Runs.prose (run : Runs tools history .empty es calls r ds) :
    ∀ p ∈ es.zip ds, ∀ text, p.1.kind = .prose text → p.2 = .prose text := by
  induction run with
  | nil => exact fun p hp => absurd hp List.not_mem_nil
  | snoc run step ih =>
    rw [List.zip_append run.length_eq]
    intro p hp text hk
    rcases List.mem_append.mp hp with hp | hp
    · exact ih p hp text hk
    · rw [List.zip_cons_cons, List.zip_nil_left, List.mem_singleton] at hp
      subst hp
      rw [show _ = ElementKind.prose text from hk] at step
      cases step
      rfl

/-- One more element compiles if it does so behind the elements of its snippet. -/
theorem Compiles.snoc (hpure : tools.run.IsPure) (h : Compiles tools history es)
    (hn : ∀ name, e.kind.name? = some name → Compiles tools history (naming name (es ++ [e]))) :
    Compiles tools history (es ++ [e]) := by
  obtain ⟨calls, r, ds, run⟩ := compiles_iff_runs.mp h
  cases hname : e.kind.name? with
  | none =>
    obtain ⟨d, step⟩ := Element.Step.exists_of_name?_eq_none hname
    exact compiles_iff_runs.mpr ⟨_, _, _, run.snoc step⟩
  | some name =>
    have hnaming := hn name hname
    rw [naming_append, naming_cons_of_eq hname] at hnaming
    obtain ⟨calls₂, r₂, ds₂, run₂⟩ := compiles_iff_runs.mp hnaming
    obtain ⟨calls₁, r₁, ds₁, more, d, -, -, run₁, step⟩ := run₂.exists_of_concat
    -- The elements of the snippet go the one way that the whole run leads them.
    obtain ⟨calls', r', run', hr'⟩ := run.exists_naming hpure name
    obtain ⟨-, rfl, -⟩ := run₁.unique rfl run'
    obtain ⟨r₃, step', -⟩ := step.exists_of_get?_eq (history ++ calls) hpure hname hr'.symm
    exact compiles_iff_runs.mpr ⟨_, _, _, run.snoc step'⟩

/-- **Elements compile exactly if those of each snippet do.** -/
theorem compiles_iff_forall_naming (hpure : tools.run.IsPure) :
    Compiles tools history es ↔ ∀ name, Compiles tools history (naming name es) := by
  constructor
  · intro h name
    obtain ⟨calls, r, ds, run⟩ := compiles_iff_runs.mp h
    obtain ⟨calls', r', run', -⟩ := run.exists_naming hpure name
    exact compiles_iff_runs.mpr ⟨calls', r', _, run'⟩
  · intro h
    induction es using List.reverseRecOn with
    | nil => exact compiles_iff_runs.mpr ⟨[], .empty, [], .nil⟩
    | append_singleton es e ih =>
      have hes : Compiles tools history es := ih fun name => by
        have hname := h name
        rw [naming_append] at hname
        exact hname.of_append
      exact hes.snoc hpure fun name _ => h name

/-! ### Renderings -/

/-- **The renderings are put together** from those of each snippet, and from prose. -/
structure Composed (tools : Tools) (history : List Call) (es : List Element)
    (ds : List Rendered) : Prop where
  length_eq : es.length = ds.length
  prose : ∀ p ∈ es.zip ds, ∀ text, p.1.kind = .prose text → p.2 = .prose text
  named : ∀ name, (elements tools history (naming name es)).result = .ok (renderingsOf name es ds)

/-- Renderings are told apart by those of each snippet. -/
theorem eq_of_renderingsOf_eq (h : es.length = ds.length) (h' : es.length = ds'.length)
    (hprose : ∀ p ∈ es.zip ds, ∀ text, p.1.kind = .prose text → p.2 = .prose text)
    (hprose' : ∀ p ∈ es.zip ds', ∀ text, p.1.kind = .prose text → p.2 = .prose text)
    (hnamed : ∀ name, renderingsOf name es ds = renderingsOf name es ds') : ds = ds' := by
  induction es generalizing ds ds' with
  | nil => rw [List.length_eq_zero_iff.mp h.symm, List.length_eq_zero_iff.mp h'.symm]
  | cons e es ih =>
    obtain ⟨d, ds, rfl⟩ := List.exists_cons_of_length_eq_add_one h.symm
    obtain ⟨d', ds', rfl⟩ := List.exists_cons_of_length_eq_add_one h'.symm
    rw [List.zip_cons_cons] at hprose hprose'
    obtain ⟨hd, hprose⟩ := List.forall_mem_cons.mp hprose
    obtain ⟨hd', hprose'⟩ := List.forall_mem_cons.mp hprose'
    have hrest : ∀ name, renderingsOf name es ds = renderingsOf name es ds' := by
      intro name
      have hname := hnamed name
      by_cases hn : e.kind.name? = some name
      · rw [renderingsOf_cons_of_eq hn, renderingsOf_cons_of_eq hn] at hname
        exact (List.cons.inj hname).2
      · rwa [renderingsOf_cons_of_ne hn, renderingsOf_cons_of_ne hn] at hname
    have hfirst : d = d' := by
      cases hk : e.kind with
      | prose text => exact (hd text hk).trans (hd' text hk).symm
      | _ name =>
        have hn : e.kind.name? = some name := by rw [hk]; rfl
        have hname := hnamed name
        rw [renderingsOf_cons_of_eq hn, renderingsOf_cons_of_eq hn] at hname
        exact (List.cons.inj hname).1
    rw [hfirst, ih (Nat.succ.inj h) (Nat.succ.inj h') hprose hprose' hrest]

/-- **What the reader gets to see** is what there is to see of each snippet, and the prose. -/
theorem result_elements_eq_ok_iff_composed (hpure : tools.run.IsPure) :
    (elements tools history es).result = .ok ds ↔ Composed tools history es ds := by
  have hcomposed : ∀ {ds}, (elements tools history es).result = .ok ds →
      Composed tools history es ds := by
    intro ds h
    obtain ⟨calls, r, run⟩ := result_elements_eq_ok_iff_runs.mp h
    refine ⟨run.length_eq, run.prose, fun name => ?_⟩
    obtain ⟨calls', r', run', -⟩ := run.exists_naming hpure name
    exact result_elements_eq_ok_iff_runs.mpr ⟨calls', r', run'⟩
  refine ⟨hcomposed, fun h => ?_⟩
  obtain ⟨ds', hds'⟩ := (compiles_iff_forall_naming hpure).mpr fun name => ⟨_, h.named name⟩
  have h' := hcomposed hds'
  rw [hds', eq_of_renderingsOf_eq h'.length_eq h.length_eq h'.prose h.prose fun name =>
    Except.ok.inj ((h'.named name).symm.trans (h.named name))]

/-! ### The first fault -/

/-- **The elements of the snippet `name` fail first**, with `err`: up to the element of the document
at which they fail, the elements of every snippet go well. -/
def FailsFirst (tools : Tools) (history : List Call) (es : List Element) (name : Text)
    (err : CompileError) : Prop :=
  ∃ before target after, es = before ++ target :: after ∧ target.kind.name? = some name ∧
    (∀ other, Compiles tools history (naming other before)) ∧
    ¬ Compiles tools history (naming name (before ++ [target])) ∧
    (elements tools history (naming name es)).result = .error err

theorem not_compiles_of_result (h : (elements tools history es).result = .error err) :
    ¬ Compiles tools history es := by
  rintro ⟨ds, hds⟩
  rw [hds] at h
  cases h

theorem result_elements_of_execute_error (run : Runs tools history .empty before calls r ds)
    {last : List Call} (h : target.execute tools (history ++ calls) r = ⟨last, .error err⟩)
    (after : List Element) :
    (elements tools history (before ++ target :: after)).result = .error err := by
  rw [elements_eq_error_iff.mpr (run.runFrom_eq_error h after)]

/-- A fault stays what it is, whatever follows. -/
theorem result_elements_append_of_error (h : (elements tools history es).result = .error err)
    (more : List Element) : (elements tools history (es ++ more)).result = .error err := by
  rcases he : elements tools history es with ⟨calls, err' | ds⟩
  · rw [he] at h
    obtain rfl := Except.error.inj h
    obtain ⟨before, target, after, earlier, last, r, ds, rfl, run, htarget, -⟩ :=
      exists_of_runFrom_error (elements_eq_error_iff.mp he)
    rw [List.append_assoc, List.cons_append]
    exact result_elements_of_execute_error run htarget (after ++ more)
  · rw [he] at h
    cases h

/-- What does not compile has the fault of its part in front, if that does not compile either. -/
theorem result_elements_append_of_not_compiles (h : ¬ Compiles tools history es)
    (more : List Element) :
    (elements tools history (es ++ more)).result = (elements tools history es).result := by
  cases he : (elements tools history es).result with
  | error err => exact result_elements_append_of_error he more
  | ok ds => exact absurd ⟨ds, he⟩ h

/-- Where an element fails, the elements of its snippet fail with the same fault. -/
theorem result_naming_of_execute_error (hpure : tools.run.IsPure)
    (run : Runs tools history .empty before calls r ds) {last : List Call}
    (h : target.execute tools (history ++ calls) r = ⟨last, .error err⟩)
    (hn : target.kind.name? = some name) (after : List Element) :
    (elements tools history (naming name (before ++ target :: after))).result = .error err := by
  obtain ⟨calls', r', run', hr'⟩ := run.exists_naming hpure name
  rw [naming_append, naming_cons_of_eq hn]
  exact result_elements_of_execute_error run'
    (Element.execute_eq_error_of_get?_eq hpure hn hr' h) _

/-- **The fault of a document** is that of the snippet whose elements fail first. -/
theorem result_elements_eq_error_iff (hpure : tools.run.IsPure) :
    (elements tools history es).result = .error err ↔
      ∃ name, FailsFirst tools history es name err := by
  constructor
  · intro h
    obtain ⟨calls, hcalls⟩ : ∃ calls, elements tools history es = ⟨calls, .error err⟩ :=
      ⟨_, by rw [← h]⟩
    obtain ⟨before, target, after, earlier, last, r, ds, rfl, run, htarget, -⟩ :=
      exists_of_runFrom_error (elements_eq_error_iff.mp hcalls)
    obtain ⟨name, hn⟩ := Element.exists_name_of_execute_error htarget
    have hbefore : Compiles tools history before := compiles_iff_runs.mpr ⟨_, _, _, run⟩
    exact ⟨name, before, target, after, rfl, hn, (compiles_iff_forall_naming hpure).mp hbefore,
      not_compiles_of_result (result_naming_of_execute_error hpure run htarget hn []),
      result_naming_of_execute_error hpure run htarget hn after⟩
  · rintro ⟨name, before, target, after, rfl, hn, hbefore, htarget, herr⟩
    obtain ⟨calls, r, ds, run⟩ :=
      compiles_iff_runs.mp ((compiles_iff_forall_naming hpure).mpr hbefore)
    rcases he : target.execute tools (history ++ calls) r with ⟨last, err' | ⟨r', d⟩⟩
    · rw [result_naming_of_execute_error hpure run he hn] at herr
      rw [result_elements_of_execute_error run he, Except.error.inj herr]
    · have hsnoc := run.snoc (Element.execute_eq_ok_iff.mp he)
      have hcompiles := (compiles_iff_forall_naming hpure).mp
        (compiles_iff_runs.mpr ⟨_, _, _, hsnoc⟩) name
      exact absurd hcompiles htarget

/-! ### Neighbours that change places -/

/-- The elements do not name the same snippet. -/
def Apart (a b : Element) : Prop :=
  ∀ name, a.kind.name? = some name → b.kind.name? ≠ some name

theorem Apart.symm (h : Apart a b) : Apart b a :=
  fun name hb ha => h name ha hb

theorem filter_exchange {α : Type} {p : α → Bool} {x y : α} (h : p x = true → p y = false)
    (xs ys : List α) : (xs ++ x :: y :: ys).filter p = (xs ++ y :: x :: ys).filter p := by
  simp only [List.filter_append, List.append_cancel_left_eq]
  cases hx : p x with
  | false => simp [List.filter_cons, hx]
  | true => simp [hx, h hx]

theorem naming_exchange (h : Apart a b) (name : Text) (before after : List Element) :
    naming name (before ++ a :: b :: after) = naming name (before ++ b :: a :: after) := by
  refine filter_exchange (fun ha => ?_) before after
  simpa using h name (by simpa using ha)

/-- Neighbours that are apart change places with their renderings. -/
theorem Composed.exchange {ds₁ ds₂ : List Rendered} {d d' : Rendered} (h : Apart a b)
    (hlen : before.length = ds₁.length)
    (hc : Composed tools history (before ++ a :: b :: after) (ds₁ ++ d :: d' :: ds₂)) :
    Composed tools history (before ++ b :: a :: after) (ds₁ ++ d' :: d :: ds₂) := by
  obtain ⟨hlength, hprose, hnamed⟩ := hc
  rw [List.zip_append hlen, List.zip_cons_cons, List.zip_cons_cons] at hprose
  refine ⟨by simpa using hlength, fun p hp => hprose p ?_, fun name => ?_⟩
  · rw [List.zip_append hlen, List.zip_cons_cons, List.zip_cons_cons] at hp
    simp only [List.mem_append, List.mem_cons] at hp ⊢
    exact hp.imp_right or_left_comm.mp
  · have hrenderings : renderingsOf name (before ++ b :: a :: after) (ds₁ ++ d' :: d :: ds₂) =
        renderingsOf name (before ++ a :: b :: after) (ds₁ ++ d :: d' :: ds₂) := by
      rw [renderingsOf, renderingsOf, List.zip_append hlen, List.zip_append hlen]
      refine congrArg (List.map Prod.snd) (filter_exchange (fun hb => ?_) _ _)
      simpa using h.symm name (by simpa using hb)
    rw [← naming_exchange h, hnamed name, hrenderings]

/-- Where a member of a list stands, seen from two neighbours in it. -/
theorem place_of_append_eq {α : Type} {xs ys front rest : List α} {x y t : α}
    (h : xs ++ x :: y :: ys = front ++ t :: rest) :
    (∃ zs, xs = front ++ t :: zs ∧ rest = zs ++ x :: y :: ys) ∨
      (front = xs ∧ t = x ∧ rest = y :: ys) ∨ (front = xs ++ [x] ∧ t = y ∧ rest = ys) ∨
      ∃ zs, front = xs ++ x :: y :: zs ∧ ys = zs ++ t :: rest := by
  rcases List.append_eq_append_iff.mp h with ⟨zs, rfl, hzs⟩ | ⟨zs, rfl, hzs⟩
  · rcases zs with _ | ⟨u, _ | ⟨v, zs⟩⟩
    · obtain ⟨rfl, rfl⟩ := List.cons.inj hzs
      exact Or.inr (Or.inl ⟨List.append_nil _, rfl, rfl⟩)
    · simp only [List.cons_append, List.nil_append, List.cons.injEq] at hzs
      obtain ⟨rfl, rfl, rfl⟩ := hzs
      exact Or.inr (Or.inr (Or.inl ⟨rfl, rfl, rfl⟩))
    · simp only [List.cons_append, List.cons.injEq] at hzs
      obtain ⟨rfl, rfl, rfl⟩ := hzs
      exact Or.inr (Or.inr (Or.inr ⟨zs, rfl, rfl⟩))
  · rcases zs with _ | ⟨u, zs⟩
    · obtain ⟨rfl, rfl⟩ := List.cons.inj hzs
      exact Or.inr (Or.inl ⟨(List.append_nil _).symm, rfl, rfl⟩)
    · obtain ⟨rfl, rfl⟩ := List.cons.inj hzs
      exact Or.inl ⟨zs, rfl, rfl⟩

/-- **The fault of a document** is the same after neighbours that are apart have changed places,
unless both of them fail there. -/
theorem FailsFirst.exchange (hpure : tools.run.IsPure) (h : Apart a b)
    (hf : FailsFirst tools history (before ++ a :: b :: after) name err) :
    FailsFirst tools history (before ++ b :: a :: after) name err ∨
      Compiles tools history before ∧ ¬ Compiles tools history (before ++ [a]) ∧
        ¬ Compiles tools history (before ++ [b]) := by
  obtain ⟨front, target, rest, hes, hn, hfront, htarget, herr⟩ := hf
  rw [naming_exchange h] at herr
  rcases place_of_append_eq hes with
    ⟨zs, rfl, rfl⟩ | ⟨rfl, rfl, rfl⟩ | ⟨rfl, rfl, rfl⟩ | ⟨zs, rfl, rfl⟩
  · exact Or.inl ⟨front, target, zs ++ b :: a :: after, by simp, hn, hfront, htarget, herr⟩
  · -- The one in front fails, and does so behind the other one, if that does not fail.
    by_cases hb : Compiles tools history (front ++ [b])
    · refine Or.inl ⟨front ++ [b], target, after, by simp, hn,
        (compiles_iff_forall_naming hpure).mp hb, fun hc => htarget ?_, herr⟩
      rw [List.append_assoc, List.singleton_append, ← naming_exchange h, List.append_cons,
        naming_append] at hc
      exact hc.of_append
    · exact Or.inr ⟨(compiles_iff_forall_naming hpure).mpr hfront,
        fun hc => htarget ((compiles_iff_forall_naming hpure).mp hc name), hb⟩
  · -- The one behind fails, and does so in front of the other one.
    refine Or.inl ⟨before, target, a :: rest, rfl, hn, fun other => ?_, fun hc => htarget ?_, herr⟩
    · have hother := hfront other
      rw [naming_append] at hother
      exact hother.of_append
    · rw [List.append_assoc, List.singleton_append, naming_exchange h, List.append_cons,
        naming_append, naming_cons_of_ne fun ha => h name ha hn]
      rwa [show naming name [] = [] from rfl, List.append_nil]
  · refine Or.inl ⟨before ++ b :: a :: zs, target, rest, by simp, hn, fun other => ?_, ?_, herr⟩
    · rw [← naming_exchange h]
      exact hfront other
    · rw [List.append_assoc, List.cons_append, List.cons_append] at htarget ⊢
      rwa [← naming_exchange h]

/-- **Snippets do not interfere.**  A document compiles exactly if the elements of each snippet do,
and it looks as they do.  If it does not compile, its fault is that of the snippet whose elements
fail first.  So two neighbours that do not name the same snippet may change places: they take their
renderings with them, and nothing else changes, unless both of them fail there; then the fault is
that of the one now in front. -/
theorem elements_independent (hpure : tools.run.IsPure) (history : List Call) (es : List Element) :
    (Compiles tools history es ↔ ∀ name, Compiles tools history (naming name es)) ∧
    (∀ ds, (elements tools history es).result = .ok ds ↔ Composed tools history es ds) ∧
    (∀ err, (elements tools history es).result = .error err ↔
      ∃ name, FailsFirst tools history es name err) ∧
    ∀ before a b after, es = before ++ a :: b :: after → Apart a b →
      (∀ ds₁ d d' ds₂, before.length = ds₁.length →
        ((elements tools history es).result = .ok (ds₁ ++ d :: d' :: ds₂) ↔
          (elements tools history (before ++ b :: a :: after)).result =
            .ok (ds₁ ++ d' :: d :: ds₂))) ∧
      ∀ err, (elements tools history es).result = .error err →
        (elements tools history (before ++ b :: a :: after)).result = .error err ∨
          Compiles tools history before ∧ ¬ Compiles tools history (before ++ [a]) ∧
            ¬ Compiles tools history (before ++ [b]) ∧
            (elements tools history (before ++ b :: a :: after)).result =
              (elements tools history (before ++ [b])).result := by
  refine ⟨compiles_iff_forall_naming hpure, fun ds => result_elements_eq_ok_iff_composed hpure,
    fun err => result_elements_eq_error_iff hpure, ?_⟩
  rintro before a b after rfl h
  refine ⟨fun ds₁ d d' ds₂ hlen => ?_, fun err herr => ?_⟩
  · rw [result_elements_eq_ok_iff_composed hpure, result_elements_eq_ok_iff_composed hpure]
    exact ⟨fun hc => hc.exchange h hlen, fun hc => hc.exchange h.symm hlen⟩
  · obtain ⟨name, hf⟩ := (result_elements_eq_error_iff hpure).mp herr
    rcases hf.exchange hpure h with hf' | ⟨hbefore, ha, hb⟩
    · exact Or.inl ((result_elements_eq_error_iff hpure).mpr ⟨name, hf'⟩)
    · refine Or.inr ⟨hbefore, ha, hb, ?_⟩
      rw [List.append_cons]
      exact result_elements_append_of_not_compiles hb (a :: after)

/-- Two snippets built up in turn, one of them by a diff.  The last two elements change places. -/
theorem elements_independent_interleaved :
    let tools : Tools := ⟨fun _ call => .ok call.code, Patch.apply, fun _ _ => []⟩
    let b := Text.ofString "b\n"
    let c := Text.ofString "c\n"
    let es : List Element :=
      [⟨1, ⟨0, 9⟩, .start ['s'] ['x'] true b⟩, ⟨5, ⟨9, 18⟩, .start ['t'] ['y'] true c⟩,
        ⟨9, ⟨18, 27⟩, .diff ['s'] true (Text.ofString "@@ -1 +1,2 @@\n b\n+c\n")⟩,
        ⟨14, ⟨27, 28⟩, .prose ['\n']⟩]
    let last : Element := ⟨15, ⟨28, 37⟩, .output ['s'] true (b ++ c)⟩
    let other : Element := ⟨20, ⟨37, 46⟩, .output ['t'] false c⟩
    tools.run.IsPure ∧ Compiles tools [] (naming ['s'] (es ++ [last, other])) ∧
      ∃ ds, (elements tools [] (es ++ [last, other])).result =
          .ok (ds ++ [.literal (b ++ c), .nothing]) ∧
        (elements tools [] (es ++ [other, last])).result =
          .ok (ds ++ [.nothing, .literal (b ++ c)]) := by
  intro tools b c es last other
  have hpure : tools.run.IsPure := fun _ _ _ => rfl
  obtain ⟨hcompiles, -, -, hexchange⟩ := elements_independent hpure [] (es ++ [last, other])
  have happart : Apart last other := by
    intro name hs ht
    exact absurd (Option.some.inj (hs.trans ht.symm)) (by decide)
  have hresult : (elements tools [] (es ++ [last, other])).result =
      .ok ([.code ['x'] b, .code ['y'] c, .literal (Text.ofString "@@ -1 +1,2 @@\n b\n+c\n"),
        .prose ['\n']] ++ [.literal (b ++ c), .nothing]) := by
    decide +kernel
  exact ⟨hpure, hcompiles.mp ⟨_, hresult⟩ ['s'], _, hresult,
    ((hexchange es last other [] rfl happart).1 _ _ _ [] rfl).mp hresult⟩

end Compile

end Literate
