import Literate.Patch.Apply
import Literate.Proofs.Compile.Runs

/-!
# Pending lines and the history of a snippet

A run passes through a list of registries; `passages` records them, one passage for each element.  A
passage introduces a line into a snippet if it changes the snippet and only the new content has the
line (`Passage.Introduces`), and it displays a line if the reader gets to see the line with it
(`Displays`).  `NotYetShown ps name l` looks back from the end of the passages to the last one that
introduced `l`: none from there on has displayed it.

`Runs.pending_eq` says that the pending lines of a snippet are just the lines of its content that
are not yet shown, so they stand in the order of the content (`Runs.pending_sublist`), and
`pending_iff_notYetShown` adds what they hold back.  It is proved passage by passage: the last
passage that mentions a line decides (`notYetShown_snoc`), and a snippet whose lines are all shown
has none that is not yet shown, so a change leaves pending what it introduces and does not display
(`pending_changed_eq`).
-/

namespace Literate

/-- The lines of the content of a snippet; none if the name has no snippet. -/
def Registry.linesOf (r : Registry) (name : Text) : List Text :=
  match r.get? name with
  | some s => Text.lines s.content
  | none => []

theorem Registry.linesOf_of_get? {r : Registry} {name : Text} {s : Snippet}
    (h : r.get? name = some s) : r.linesOf name = Text.lines s.content := by
  rw [linesOf, h]

theorem Registry.linesOf_of_get?_eq_none {r : Registry} {name : Text} (h : r.get? name = none) :
    r.linesOf name = [] := by
  rw [linesOf, h]

theorem Registry.linesOf_congr {r r' : Registry} {name : Text} (h : r.get? name = r'.get? name) :
    r.linesOf name = r'.linesOf name := by
  rw [linesOf, h, linesOf]

/-- The diff has a line that is `l` behind a plus sign, at its first hunk header or after it. -/
def Hunk.Adds (diff l : Text) : Prop :=
  ∃ (before : List Text) (header : Text) (after : List Text),
    Text.lines diff = before ++ header :: after ∧
      Text.beginsWith (Text.ofString "@@") header = true ∧ '+' :: l ∈ header :: after

theorem Hunk.mem_addedLines_iff {diff l : Text} : l ∈ addedLines diff ↔ Adds diff l := by
  rw [addedLines, List.mem_filterMap]
  constructor
  · rintro ⟨line, hline, hl⟩
    obtain rfl : line = '+' :: l := Text.after?_eq_some_iff.mp hl
    cases hd : (Text.lines diff).dropWhile
        fun line => !Text.beginsWith (Text.ofString "@@") line with
    | nil =>
      rw [hd] at hline
      exact absurd hline List.not_mem_nil
    | cons header after =>
      rw [hd] at hline
      refine ⟨(Text.lines diff).takeWhile fun line => !Text.beginsWith (Text.ofString "@@") line,
        header, after, ?_, ?_, hline⟩
      · rw [← hd, List.takeWhile_append_dropWhile]
      · have hh := List.head?_dropWhile_not
          (fun line => !Text.beginsWith (Text.ofString "@@") line) (Text.lines diff)
        rw [hd] at hh
        simpa using hh
  · rintro ⟨before, header, after, he, hh, hline⟩
    refine ⟨'+' :: l, ?_, Text.after?_eq_some_iff.mpr rfl⟩
    rw [he, List.dropWhile_append]
    split
    · rw [List.dropWhile_cons_of_neg (by simp [hh])]
      exact hline
    · exact List.mem_append_right _ hline

namespace Compile

/-- The element changes the content of the snippet `name`. -/
def Changes (name : Text) : ElementKind → Prop
  | .start n _ _ _ | .replace n _ _ | .diff n _ _ => n = name
  | .prose _ | .excerpt _ _ | .output _ _ _ => False

/-- The reader gets to see the line `l` of the snippet `name` with the element. -/
def Displays (name l : Text) : ElementKind → Prop
  | .start n _ render content | .replace n render content =>
    n = name ∧ render = true ∧ l ∈ Text.lines content
  | .diff n render content => n = name ∧ render = true ∧ Hunk.Adds content l
  | .excerpt n content => n = name ∧ l ∈ Text.lines content
  | .prose _ | .output _ _ _ => False

/-- An element with the registries before and after it. -/
structure Passage where
  element : Element
  before : Registry
  after : Registry

/-- The passage changes the snippet `name`, and only the new content has the line `l`. -/
def Passage.Introduces (name l : Text) (p : Passage) : Prop :=
  Changes name p.element.kind ∧ l ∈ p.after.linesOf name ∧ l ∉ p.before.linesOf name

/-- What a run passes through, up to the first element that fails. -/
def passages (tools : Tools) (history : List Call) (r : Registry) : List Element → List Passage
  | [] => []
  | e :: rest =>
    match e.execute tools history r with
    | ⟨_, .error _⟩ => []
    | ⟨calls, .ok (next, _)⟩ => ⟨e, r, next⟩ :: passages tools (history ++ calls) next rest

/-- **The line `l` of the snippet `name` is not yet shown**: no passage from the last one on that
introduced it displays it. -/
def NotYetShown (ps : List Passage) (name l : Text) : Prop :=
  ∃ (earlier : List Passage) (p : Passage) (later : List Passage), ps = earlier ++ p :: later ∧
    p.Introduces name l ∧ (∀ q ∈ later, ¬ q.Introduces name l) ∧
      ∀ q ∈ p :: later, ¬ Displays name l q.element.kind

variable {tools : Tools} {history calls : List Call} {r r' : Registry} {es : List Element}
  {ds : List Rendered} {ps : List Passage} {p : Passage} {name l : Text}

/-! ### Passages -/

theorem passages_append {as : List Element} (h : runFrom tools history r as = ⟨calls, .ok (r', ds)⟩)
    (bs : List Element) : passages tools history r (as ++ bs) =
      passages tools history r as ++ passages tools (history ++ calls) r' bs := by
  induction as generalizing history r calls ds with
  | nil =>
    obtain ⟨rfl, he⟩ := Traced.mk.inj h
    obtain ⟨rfl, rfl⟩ := Prod.mk.inj (Except.ok.inj he)
    simp [passages]
  | cons a as ih =>
    rw [runFrom] at h
    rw [List.cons_append, passages, passages]
    rcases ha : a.execute tools history r with ⟨calls₁, _ | ⟨r₁, d⟩⟩
    · rw [ha] at h
      cases h
    · rw [ha] at h
      simp only at h ⊢
      rcases hr : runFrom tools (history ++ calls₁) r₁ as with ⟨calls₂, _ | ⟨r₂, ds₂⟩⟩
      · rw [hr] at h
        cases h
      · rw [hr] at h
        obtain ⟨rfl, he⟩ := Traced.mk.inj h
        obtain ⟨rfl, rfl⟩ := Prod.mk.inj (Except.ok.inj he)
        rw [ih hr, List.append_assoc]
        rfl

theorem Runs.passages_snoc {e : Element} {more : List Call} {d : Rendered} {r₁ : Registry}
    (run : Runs tools history r es calls r₁ ds)
    (step : Element.Step tools (history ++ calls) r₁ e.kind more r' d) :
    passages tools history r (es ++ [e]) = passages tools history r es ++ [⟨e, r₁, r'⟩] := by
  rw [passages_append run.runFrom_eq, passages, Element.execute_eq_ok_iff.mpr step]
  rfl

/-! ### Looking back -/

/-- **The last passage that mentions a line decides** whether it is not yet shown. -/
theorem notYetShown_snoc : NotYetShown (ps ++ [p]) name l ↔
    ¬ Displays name l p.element.kind ∧ (p.Introduces name l ∨ NotYetShown ps name l) := by
  constructor
  · rintro ⟨earlier, q, later, he, hq, hlater, hd⟩
    rcases List.eq_nil_or_concat later with rfl | ⟨later', p', rfl⟩
    · obtain ⟨-, hp⟩ := List.append_inj' he rfl
      obtain ⟨rfl, -⟩ := List.cons.inj hp
      exact ⟨hd p List.mem_cons_self, Or.inl hq⟩
    · rw [List.concat_eq_append, ← List.cons_append, ← List.append_assoc] at he
      rw [List.concat_eq_append] at hlater hd
      obtain ⟨rfl, hp⟩ := List.append_inj' he rfl
      obtain ⟨rfl, -⟩ := List.cons.inj hp
      refine ⟨hd p (by simp), Or.inr ⟨earlier, q, later', rfl, hq, ?_, ?_⟩⟩
      · exact fun u hu => hlater u (List.mem_append_left _ hu)
      · intro u hu
        refine hd u ?_
        rw [← List.cons_append]
        exact List.mem_append_left _ hu
  · rintro ⟨hd, h⟩
    by_cases hp : p.Introduces name l
    · refine ⟨ps, p, [], rfl, hp, fun u hu => absurd hu List.not_mem_nil, fun u hu => ?_⟩
      rwa [List.mem_singleton.mp hu]
    · obtain ⟨earlier, q, later, rfl, hq, hlater, hshown⟩ := h.resolve_left hp
      refine ⟨earlier, q, later ++ [p], by simp, hq, ?_, ?_⟩
      · intro u hu
        rcases List.mem_append.mp hu with hu | hu
        · exact hlater u hu
        · rwa [List.mem_singleton.mp hu]
      · intro u hu
        rw [← List.cons_append] at hu
        rcases List.mem_append.mp hu with hu | hu
        · exact hshown u hu
        · rwa [List.mem_singleton.mp hu]

/-- A passage that neither introduces nor displays a line leaves it as it was. -/
theorem notYetShown_snoc_of_not (hi : ¬ p.Introduces name l)
    (hd : ¬ Displays name l p.element.kind) :
    NotYetShown (ps ++ [p]) name l ↔ NotYetShown ps name l := by
  rw [notYetShown_snoc]
  exact ⟨fun h => h.2.resolve_left hi, fun h => ⟨hd, Or.inr h⟩⟩

theorem name?_of_displays {kind : ElementKind} (h : Displays name l kind) :
    kind.name? = some name := by
  cases kind with
  | prose => exact h.elim
  | output => exact h.elim
  | _ => exact congrArg some h.1

theorem not_introduces_of_get?_eq (h : p.after.get? name = p.before.get? name) :
    ¬ p.Introduces name l := by
  rintro ⟨-, ha, hb⟩
  rw [Registry.linesOf_congr h] at ha
  exact hb ha

/-! ### Pending lines -/

open Classical in
/-- **What a change leaves pending** is not yet shown after it, and nothing else is: the lines that
the old content had are all shown. -/
theorem pending_changed_eq {s : Snippet} {content : Text} {render : Bool} {lines : List Text}
    (hp : s.pending = []) (hold : ∀ l ∈ Snippet.candidates s.content, ¬ NotYetShown ps name l)
    (hi : ∀ l, p.Introduces name l ↔ l ∈ Text.lines content ∧ l ∉ Text.lines s.content)
    (hd : ∀ l, Displays name l p.element.kind ↔ render = true ∧ l ∈ lines) :
    (s.changed content render lines).pending =
      (Snippet.candidates content).filter fun l => decide (NotYetShown (ps ++ [p]) name l) := by
  rw [Snippet.pending_changed hp, Snippet.introduced_eq, List.filter_filter]
  refine List.filter_congr fun l hl => ?_
  rw [Bool.eq_iff_iff, decide_eq_true_iff, notYetShown_snoc, hi, hd]
  obtain ⟨hl, hb⟩ := Snippet.mem_candidates.mp hl
  by_cases hmem : l ∈ Text.lines s.content
  · have := hold l (Snippet.mem_candidates.mpr ⟨hmem, hb⟩)
    simp [hmem, this]
  · cases render <;> simp [hmem, hl]

open Classical in
/-- **Pending lines are just the lines not yet shown**, along every run. -/
theorem Runs.pending_eq (run : Runs tools history .empty es calls r ds) {name : Text} {s : Snippet}
    (hs : r.get? name = some s) : s.pending = (Snippet.candidates s.content).filter fun l =>
      decide (NotYetShown (passages tools history .empty es) name l) := by
  induction run generalizing name s with
  | nil => cases hs
  | @snoc es _ _ r₁ r₂ _ e _ run step ih =>
    rw [run.passages_snoc step]
    have hold : ∀ t : Snippet, r₁.get? name = some t → t.pending = [] →
        ∀ l ∈ Snippet.candidates t.content,
          ¬ NotYetShown (passages tools history .empty es) name l := by
      intro t ht hp l hl hn
      have hmem : l ∈ (Snippet.candidates t.content).filter fun l =>
          decide (NotYetShown (passages tools history .empty es) name l) :=
        List.mem_filter.mpr ⟨hl, decide_eq_true hn⟩
      rw [← ih ht, hp] at hmem
      exact List.not_mem_nil hmem
    by_cases hn : e.kind.name? = some name
    · generalize hk : e.kind = kind at step
      rw [hk] at hn
      cases step with
      | prose text => cases hn
      | start hnone =>
        obtain rfl := Option.some.inj hn
        have hafter := hs
        rw [Registry.get?_insert_self] at hs
        obtain rfl := Option.some.inj hs
        rw [Snippet.content_changed]
        refine pending_changed_eq rfl (fun l hl => absurd hl List.not_mem_nil) (fun l => ?_) ?_
        · rw [Passage.Introduces, hk, Registry.linesOf_of_get? hafter,
            Registry.linesOf_of_get?_eq_none hnone, Snippet.content_changed]
          exact ⟨fun h => h.2, fun h => ⟨rfl, h⟩⟩
        · intro l
          simp [hk, Displays]
      | replace hg hp =>
        obtain rfl := Option.some.inj hn
        have hafter := hs
        rw [Registry.get?_insert_self] at hs
        obtain rfl := Option.some.inj hs
        rw [Snippet.content_changed]
        refine pending_changed_eq hp (hold _ hg hp) (fun l => ?_) fun l => ?_
        · simp only [Passage.Introduces, hk, Changes, Registry.linesOf_of_get? hafter,
            Registry.linesOf_of_get? hg, Snippet.content_changed, true_and]
        · simp [hk, Displays]
      | diff hg hp ha =>
        obtain rfl := Option.some.inj hn
        have hafter := hs
        rw [Registry.get?_insert_self] at hs
        obtain rfl := Option.some.inj hs
        rw [Snippet.content_changed]
        refine pending_changed_eq hp (hold _ hg hp) (fun l => ?_) fun l => ?_
        · simp only [Passage.Introduces, hk, Changes, Registry.linesOf_of_get? hafter,
            Registry.linesOf_of_get? hg, Snippet.content_changed, true_and]
        · simp [hk, Displays, Hunk.mem_addedLines_iff]
      | @excerpt _ content t hg hu =>
        obtain rfl := Option.some.inj hn
        rw [Registry.get?_insert_self] at hs
        obtain rfl := Option.some.inj hs
        rw [Snippet.pending_shown, Snippet.content_shown, ih hg, List.filter_filter]
        refine List.filter_congr fun l _ => ?_
        rw [Bool.eq_iff_iff, decide_eq_true_iff, notYetShown_snoc]
        simp [hk, Displays, Passage.Introduces, Changes]
      | output hg hp hc =>
        rw [ih hs]
        refine List.filter_congr fun l _ => decide_eq_decide.mpr ?_
        refine (notYetShown_snoc_of_not (not_introduces_of_get?_eq rfl) ?_).symm
        rw [hk]
        exact id
    · rw [step.get?_of_name_ne hn] at hs
      rw [ih hs]
      refine List.filter_congr fun l _ => decide_eq_decide.mpr ?_
      refine (notYetShown_snoc_of_not ?_ fun hd => hn (name?_of_displays hd)).symm
      exact not_introduces_of_get?_eq (step.get?_of_name_ne hn)

open Classical in
/-- **Along every run, pending lines stand in the order of the content**, each where it comes first:
content changes only where nothing is pending. -/
theorem Runs.pending_sublist (run : Runs tools history .empty es calls r ds) {s : Snippet}
    (hs : r.get? name = some s) : s.pending.Sublist (Snippet.candidates s.content) := by
  rw [run.pending_eq hs]
  exact List.filter_sublist

/-! ### What pending lines hold back -/

/-- The name and the operation of a kind of element that pending lines hold back. -/
def gate? : ElementKind → Option (Text × Operation)
  | .replace name _ _ => some (name, .replace)
  | .diff name _ _ => some (name, .applyDiff)
  | .output name _ _ => some (name, .renderOutput)
  | .prose _ | .start _ _ _ _ | .excerpt _ _ => none

/-- Pending lines hold an element back before anything else. -/
theorem effect_of_pending_ne_nil {s : Snippet} {kind : ElementKind} {operation : Operation}
    (hs : r.get? name = some s) (hk : gate? kind = some (name, operation)) (hp : s.pending ≠ []) :
    Element.effect tools history r kind =
      ⟨[], .error (.pendingLines operation s.pending)⟩ := by
  have hl := Registry.lookupShown_of_get? hs operation
  rw [if_neg hp] at hl
  cases kind with
  | prose => cases hk
  | start => cases hk
  | excerpt => cases hk
  | replace name' render content =>
    obtain ⟨rfl, rfl⟩ := Prod.mk.inj (Option.some.inj hk)
    rw [Element.effect, Registry.replace, hl]
    rfl
  | diff name' render content =>
    obtain ⟨rfl, rfl⟩ := Prod.mk.inj (Option.some.inj hk)
    rw [Element.effect, Registry.patch, hl]
    rfl
  | output name' render content =>
    obtain ⟨rfl, rfl⟩ := Prod.mk.inj (Option.some.inj hk)
    rw [Element.effect, Element.verify, hl]
    rfl

theorem check_ne_pendingLines {content : Text} {answer : Except RunError Text}
    {operation : Operation} {lines : List Text} :
    Element.check content answer ≠ .error (.pendingLines operation lines) := by
  intro h
  unfold Element.check at h
  split at h
  · cases h
  · split at h
    · cases h
    · cases h

/-- An element on a snippet without pending lines does not fail for pending lines. -/
theorem effect_ne_pendingLines {s : Snippet} {kind : ElementKind}
    {operation operation' : Operation} {lines : List Text} (hs : r.get? name = some s)
    (hk : gate? kind = some (name, operation)) (hp : s.pending = []) :
    (Element.effect tools history r kind).result ≠ .error (.pendingLines operation' lines) := by
  have hl := Registry.lookupShown_of_get? hs operation
  rw [if_pos hp] at hl
  intro h
  cases kind with
  | prose => cases hk
  | start => cases hk
  | excerpt => cases hk
  | replace name' render content =>
    obtain ⟨rfl, rfl⟩ := Prod.mk.inj (Option.some.inj hk)
    rw [Element.effect, Registry.replace, hl] at h
    cases h
  | diff name' render content =>
    obtain ⟨rfl, rfl⟩ := Prod.mk.inj (Option.some.inj hk)
    rw [Element.effect, Registry.patch, hl] at h
    simp only [Traced.pure] at h
    split at h
    · cases h
    · cases h
  | output name' render content =>
    obtain ⟨rfl, rfl⟩ := Prod.mk.inj (Option.some.inj hk)
    rw [Element.effect, Element.verify, hl] at h
    simp only at h
    split at h
    · next fault hf =>
      obtain rfl := Except.error.inj h
      exact check_ne_pendingLines hf
    · cases h

/-- An element fails with a fault that is its own line, its own name and the fault of its effect. -/
theorem result_execute_eq_error_iff {e : Element} {err : CompileError} :
    (e.execute tools history r).result = .error err ↔
      (Element.effect tools history r e.kind).result = .error err.fault ∧
        err.line = e.line ∧ err.name = e.kind.name?.getD [] := by
  obtain ⟨line, n, fault⟩ := err
  unfold Element.execute
  split
  · next h =>
    rw [h]
    simp
  · next h =>
    rw [h]
    simp only [Except.error.injEq, CompileError.mk.injEq]
    exact ⟨fun ⟨hl, hn, hf⟩ => ⟨hf, hl.symm, hn.symm⟩, fun ⟨hf, hl, hn⟩ => ⟨hl.symm, hn.symm, hf⟩⟩

/-- **A held back element fails with the pending lines**, and only if there are any. -/
theorem result_execute_eq_pendingLines_iff {s : Snippet} {operation operation' : Operation}
    {e : Element} {line : Nat} {n : Text} {lines : List Text} (hs : r.get? name = some s)
    (he : gate? e.kind = some (name, operation)) :
    (e.execute tools history r).result = .error ⟨line, n, .pendingLines operation' lines⟩ ↔
      s.pending ≠ [] ∧ line = e.line ∧ n = name ∧ operation' = operation ∧ lines = s.pending := by
  have hname : e.kind.name?.getD [] = name := by
    generalize e.kind = kind at he
    cases kind <;> cases he <;> rfl
  rw [result_execute_eq_error_iff, hname]
  constructor
  · rintro ⟨hf, hl, hn⟩
    have hp : s.pending ≠ [] := fun hp => effect_ne_pendingLines hs he hp hf
    rw [effect_of_pending_ne_nil hs he hp] at hf
    obtain ⟨rfl, rfl⟩ := CompileFault.pendingLines.inj (Except.error.inj hf)
    exact ⟨hp, hl, hn, rfl, rfl⟩
  · rintro ⟨hp, hl, hn, rfl, rfl⟩
    rw [effect_of_pending_ne_nil hs he hp]
    exact ⟨rfl, hl, hn⟩

open Classical in
/-- **Pending lines are exactly the lines not yet shown**, after every run: the candidates of the
content, in their order, that no element has displayed since the last one that introduced them.
They are what holds back the next `replace`, `diff` or `output` element of the snippet, and the
error that it fails with names them. -/
theorem pending_iff_notYetShown
    (run : runFrom tools history .empty es = ⟨calls, .ok (r, ds)⟩) {s : Snippet}
    (hs : r.get? name = some s) :
    let unseen := (Snippet.candidates s.content).filter fun l =>
      decide (NotYetShown (passages tools history .empty es) name l)
    s.pending = unseen ∧
      ∀ (tools' : Tools) (history' : List Call) (e : Element) (operation : Operation),
        gate? e.kind = some (name, operation) →
          ∀ (line : Nat) (n : Text) (operation' : Operation) (lines : List Text),
            (e.execute tools' history' r).result =
                .error ⟨line, n, .pendingLines operation' lines⟩ ↔
              unseen ≠ [] ∧ line = e.line ∧ n = name ∧ operation' = operation ∧
                lines = unseen := by
  intro unseen
  have hp : s.pending = unseen := (runFrom_eq_ok_iff.mp run).pending_eq hs
  refine ⟨hp, fun tools' history' e operation he line n operation' lines => ?_⟩
  rw [result_execute_eq_pendingLines_iff hs he, hp]

open Classical in
/-- Of two lines of a snippet that is not rendered, an excerpt has displayed the first one. -/
theorem pending_after_excerpt :
    let tools : Tools := ⟨fun _ _ => .ok [], Patch.apply, fun _ _ => []⟩
    let es : List Element :=
      [⟨1, ⟨0, 9⟩, .start ['s'] ['c'] false ['a', '\n', 'b', '\n']⟩,
        ⟨6, ⟨9, 18⟩, .excerpt ['s'] ['a', '\n']⟩]
    let s : Snippet := ⟨['c'], ['a', '\n', 'b', '\n'], [['b']]⟩
    let r : Registry := ⟨[(['s'], s)]⟩
    runFrom tools [] .empty es = ⟨[], .ok (r, [.nothing, .code ['c'] ['a', '\n']])⟩ ∧
      r.get? ['s'] = some s ∧
      [['b']] = (Snippet.candidates s.content).filter fun l =>
        decide (NotYetShown (passages tools [] .empty es) ['s'] l) := by
  intro tools es s r
  have run : runFrom tools [] .empty es =
      ⟨[], .ok (r, [.nothing, .code ['c'] ['a', '\n']])⟩ := rfl
  have hs : r.get? ['s'] = some s := rfl
  exact ⟨run, hs, (pending_iff_notYetShown run hs).1⟩

end Compile

end Literate
