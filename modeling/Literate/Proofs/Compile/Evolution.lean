import Literate.Proofs.Compile.Meaning

/-!
# Every output is verified

What a document builds up of a snippet can be told from its elements alone, without pending lines
and renderings: `evolution patch name es`.  A registry that a run leads to holds just that
(`Runs.evolution_eq`).

`Verified tools history es calls`: for each `output` element of `es`, in order, `calls` has one call
of what the snippet has come to there, and the answer is the one that the element expects.
`elements_verified` says that a document that compiles is verified, and one that fails is verified
up to the element that fails.
-/

namespace Literate

/-- The call that runs a snippet. -/
def Snippet.call (s : Snippet) : Call :=
  ⟨s.language, s.content⟩

@[simp] theorem Snippet.call_changed (s : Snippet) (content : Text) (render : Bool)
    (lines : List Text) : (s.changed content render lines).call = ⟨s.language, content⟩ := by
  rw [call, language_changed, content_changed]

@[simp] theorem Snippet.call_shown (s : Snippet) (lines : List Text) :
    (s.shown lines).call = s.call :=
  rfl

/-- A call prints what an element expects, but for white space at the ends. -/
theorem Element.check_eq_ok_iff {content : Text} {answer : Except RunError Text} :
    check content answer = .ok () ↔
      ∃ printed, answer = .ok printed ∧ Text.trim printed = Text.trim content := by
  cases answer with
  | error cause => simp [check]
  | ok printed => by_cases h : Text.trim printed = Text.trim content <;> simp [check, h]

namespace Compile

open Element

/-- What an element makes of the snippet `name`: its language and its content, if it has been
started. -/
def evolve (patch : Text → Text → Except PatchError Text) (name : Text) (code : Option Call) :
    ElementKind → Option Call
  | .start n language _ content => if n = name then some ⟨language, content⟩ else code
  | .replace n _ content =>
    if n = name then code.map fun c => { c with code := content } else code
  | .diff n _ diff =>
    if n = name then
      code.bind fun c => (patch c.code diff).toOption.map fun patched => { c with code := patched }
    else
      code
  | .prose _ | .excerpt _ _ | .output _ _ _ => code

/-- **What elements build up** of the snippet `name`, one after the other. -/
def evolution (patch : Text → Text → Except PatchError Text) (name : Text) (es : List Element) :
    Option Call :=
  es.foldl (fun code e => evolve patch name code e.kind) none

/-- **The calls verify the elements**: there is one for each `output` element, in order.  It runs
what the elements before have built up of the snippet, and prints what the element expects. -/
inductive Verified (tools : Tools) (history : List Call) : List Element → List Call → Prop
  | nil : Verified tools history [] []
  | other {es : List Element} {calls : List Call} {e : Element}
      (h : Verified tools history es calls)
      (hk : ∀ name render content, e.kind ≠ .output name render content) :
      Verified tools history (es ++ [e]) calls
  | output {es : List Element} {calls : List Call} {e : Element} {name content printed : Text}
      {render : Bool} {call : Call} (h : Verified tools history es calls)
      (hk : e.kind = .output name render content)
      (hcode : evolution tools.patch name es = some call)
      (hrun : tools.run (history ++ calls) call = .ok printed)
      (hprinted : Text.trim printed = Text.trim content) :
      Verified tools history (es ++ [e]) (calls ++ [call])

variable {tools : Tools} {history calls : List Call} {r r' : Registry} {es : List Element}
  {ds : List Rendered}

/-! ### What a registry holds -/

theorem evolution_concat (patch : Text → Text → Except PatchError Text) (name : Text)
    (es : List Element) (e : Element) :
    evolution patch name (es ++ [e]) = evolve patch name (evolution patch name es) e.kind := by
  rw [evolution, List.foldl_append]
  rfl

/-- An element that does not name a snippet makes nothing of it. -/
theorem evolve_of_name_ne (patch : Text → Text → Except PatchError Text) {name : Text}
    (code : Option Call) {kind : ElementKind} (hn : kind.name? ≠ some name) :
    evolve patch name code kind = code := by
  cases kind with
  | prose => rfl
  | excerpt => rfl
  | output => rfl
  | _ => exact if_neg fun he => hn (congrArg some he)

/-- **A step makes of a snippet what its element says**, whatever is pending or rendered. -/
theorem call_of_step {kind : ElementKind} {d : Rendered}
    (step : Step tools history r kind calls r' d) (name : Text) :
    (r'.get? name).map Snippet.call =
      evolve tools.patch name ((r.get? name).map Snippet.call) kind := by
  by_cases hn : kind.name? = some name
  · cases step with
    | prose => cases hn
    | start h =>
      obtain rfl := Option.some.inj hn
      rw [Registry.get?_insert_self, Option.map_some, Snippet.call_changed, evolve, if_pos rfl]
      rfl
    | replace h hp =>
      obtain rfl := Option.some.inj hn
      rw [Registry.get?_insert_self, Option.map_some, Snippet.call_changed, evolve, if_pos rfl, h]
      rfl
    | @diff _ content patched render s h hp ha =>
      obtain rfl := Option.some.inj hn
      have ha' : tools.patch s.call.code content = .ok patched := ha
      rw [Registry.get?_insert_self, Option.map_some, Snippet.call_changed, evolve, if_pos rfl, h,
        Option.map_some, Option.bind_some, ha']
      rfl
    | excerpt h hu =>
      obtain rfl := Option.some.inj hn
      rw [Registry.get?_insert_self, Option.map_some, Snippet.call_shown, evolve, h]
      rfl
    | output h hp hc => rfl
  · rw [step.get?_of_name_ne hn, evolve_of_name_ne _ _ hn]

/-- **Along every run, a registry holds what the elements have built up.** -/
theorem Runs.evolution_eq (run : Runs tools history .empty es calls r ds) (name : Text) :
    (r.get? name).map Snippet.call = evolution tools.patch name es := by
  induction run with
  | nil => rfl
  | snoc run step ih => rw [evolution_concat, call_of_step step, ih]

/-- **Along every run, the calls verify the elements.** -/
theorem Runs.verified (run : Runs tools history .empty es calls r ds) :
    Verified tools history es calls := by
  induction run with
  | nil => exact .nil
  | @snoc es calls more r₁ _ _ e d run step ih =>
    generalize hk : e.kind = kind at step
    cases step with
    | output h hp hc =>
      obtain ⟨printed, hrun, hprinted⟩ := check_eq_ok_iff.mp hc
      refine .output ih hk ?_ hrun hprinted
      rw [← run.evolution_eq, h]
      rfl
    | _ =>
      rw [List.append_nil]
      refine .other ih fun name render content he => ?_
      rw [hk] at he
      cases he

/-! ### Documents -/

/-- The element is an `output` element of the snippet `name`, which is there and has no pending
lines. -/
def Ready (r : Registry) (name : Text) (kind : ElementKind) : Prop :=
  ∃ render content s, kind = .output name render content ∧ r.get? name = some s ∧ s.pending = []

/-- **An element that is ready runs what has been built up**, whether it succeeds or fails. -/
theorem calls_execute_of_ready (run : Runs tools history .empty es calls r ds) {target : Element}
    {name : Text} (h : Ready r name target.kind) :
    ∃ call, (target.execute tools (history ++ calls) r).calls = [call] ∧
      evolution tools.patch name es = some call := by
  obtain ⟨render, content, s, hk, hs, hp⟩ := h
  refine ⟨s.call, calls_execute_output hk hs hp, ?_⟩
  rw [← run.evolution_eq, hs]
  rfl

/-- No other element runs anything. -/
theorem calls_execute_of_not_ready {target : Element} (h : ∀ name, ¬ Ready r name target.kind) :
    (target.execute tools history r).calls = [] := by
  rcases calls_execute tools history r target with
    hnone | ⟨name, render, content, s, hk, hs, hp, -⟩
  · exact hnone
  · exact absurd ⟨render, content, s, hk, hs, hp⟩ (h name)

/-- **Every output is verified.**  If a document compiles, its calls verify its elements.  If it
stops at an element, the calls are those that verify the elements before it, and one more exactly if
it is an `output` element of a snippet that is there and has no pending lines.  A snippet is there
exactly if the elements before have built it up, and it holds what they have made of it. -/
theorem elements_verified (tools : Tools) (history : List Call) (es : List Element) :
    match elements tools history es with
    | ⟨calls, .ok _⟩ => Verified tools history es calls
    | ⟨calls, .error err⟩ => ∃ before target after earlier last r ds,
        es = before ++ target :: after ∧
        runFrom tools history .empty before = ⟨earlier, .ok (r, ds)⟩ ∧
        (∀ name, (r.get? name).map Snippet.call = evolution tools.patch name before) ∧
        target.execute tools (history ++ earlier) r = ⟨last, .error err⟩ ∧
        calls = earlier ++ last ∧ Verified tools history before earlier ∧
        (∀ name, Ready r name target.kind →
          ∃ call, last = [call] ∧ evolution tools.patch name before = some call) ∧
        ((∀ name, ¬ Ready r name target.kind) → last = []) := by
  rcases he : elements tools history es with ⟨calls, err | ds⟩
  · obtain ⟨before, target, after, earlier, last, r, ds, rfl, run, htarget, rfl⟩ :=
      exists_of_runFrom_error (elements_eq_error_iff.mp he)
    refine ⟨before, target, after, earlier, last, r, ds, rfl, run.runFrom_eq, run.evolution_eq,
      htarget, rfl, run.verified, fun name hready => ?_, fun hready => ?_⟩
    · have hcalls := calls_execute_of_ready run hready
      rwa [htarget] at hcalls
    · have hcalls : (target.execute tools (history ++ earlier) r).calls = [] :=
        calls_execute_of_not_ready hready
      rwa [htarget] at hcalls
  · obtain ⟨r, run⟩ := elements_eq_ok_iff.mp he
    exact run.verified

/-- The first output runs what is started, the second one what replaces it.  The third one fails
without a call, for the change before it has not been shown. -/
example :
    let tools : Tools :=
      ⟨fun _ call => .ok (call.code ++ ['\n']), fun _ new => .ok new, fun _ new => new⟩
    let es : List Element :=
      [⟨1, ⟨0, 9⟩, .start ['s'] ['x'] true ['a']⟩, ⟨4, ⟨9, 18⟩, .output ['s'] false ['a']⟩,
        ⟨7, ⟨18, 27⟩, .replace ['s'] true ['b']⟩, ⟨10, ⟨27, 36⟩, .output ['s'] true ['b']⟩]
    let hidden : List Element :=
      [⟨13, ⟨36, 45⟩, .diff ['s'] false ['c']⟩, ⟨16, ⟨45, 54⟩, .output ['s'] true ['c']⟩]
    (elements tools [] es).calls = [⟨['x'], ['a']⟩, ⟨['x'], ['b']⟩] ∧
      (elements tools [] es).result =
        .ok [.code ['x'] ['a'], .nothing, .code ['x'] ['b'], .literal ['b']] ∧
      (elements tools [] (es ++ hidden)).calls = [⟨['x'], ['a']⟩, ⟨['x'], ['b']⟩] ∧
      (elements tools [] (es ++ hidden)).result =
        .error ⟨16, ['s'], .pendingLines .renderOutput [['c']]⟩ ∧
      evolution tools.patch ['s'] (es ++ hidden) = some ⟨['x'], ['c']⟩ := by
  decide +kernel

end Compile

end Literate
