import Literate.Proofs.Compile.Runs

/-!
# Documents with the same meaning

`SameBut tools history i es us`: the elements `es` and `us` compile together or stop at the same
element, ask for the same calls, and look the same but for the element at place `i`.

What a run that succeeds does to the registry does not depend on what code prints (`Runs.unique`).
So one element may stand for another in every document that begins with `before` if it does so after
the one registry that `before` leads to: `sameBut_of_exchanges`.
-/

namespace Literate

variable {tools tools' : Tools} {history history' calls calls' : List Call} {r r₁ r₂ : Registry}

namespace Element

/-- **A successful step** is up to the registry and the way diffs are applied. -/
theorem Step.unique {kind : ElementKind} {d₁ d₂ : Rendered} (ht : tools.patch = tools'.patch)
    (h₁ : Step tools history r kind calls r₁ d₁) (h₂ : Step tools' history' r kind calls' r₂ d₂) :
    calls = calls' ∧ r₁ = r₂ ∧ d₁ = d₂ := by
  cases h₁ with
  | prose text =>
    cases h₂
    exact ⟨rfl, rfl, rfl⟩
  | start h =>
    cases h₂
    exact ⟨rfl, rfl, rfl⟩
  | replace h hp =>
    cases h₂ with
    | replace h' =>
      obtain rfl := Option.some.inj (h.symm.trans h')
      exact ⟨rfl, rfl, rfl⟩
  | diff h hp ha =>
    cases h₂ with
    | diff h' hp' ha' =>
      obtain rfl := Option.some.inj (h.symm.trans h')
      rw [ht] at ha
      obtain rfl := Except.ok.inj (ha.symm.trans ha')
      exact ⟨rfl, rfl, rfl⟩
  | excerpt h hu =>
    cases h₂ with
    | excerpt h' =>
      obtain rfl := Option.some.inj (h.symm.trans h')
      exact ⟨rfl, rfl, rfl⟩
  | output h hp hc =>
    cases h₂ with
    | output h' =>
      obtain rfl := Option.some.inj (h.symm.trans h')
      exact ⟨rfl, rfl, rfl⟩

end Element

namespace Compile

variable {es us before : List Element} {ds ds' : List Rendered} {i : Nat}

/-- **A successful run** is up to the registry and the way diffs are applied. -/
theorem Runs.unique (ht : tools.patch = tools'.patch) (h₁ : Runs tools history r es calls r₁ ds)
    (h₂ : Runs tools' history' r es calls' r₂ ds') : calls = calls' ∧ r₁ = r₂ ∧ ds = ds' := by
  induction h₁ generalizing calls' r₂ ds' with
  | nil =>
    generalize hes : ([] : List Element) = es at h₂
    cases h₂ with
    | nil => exact ⟨rfl, rfl, rfl⟩
    | snoc => exact absurd hes (by simp)
  | @snoc es _ _ _ _ _ e _ run step ih =>
    generalize hes : es ++ [e] = es' at h₂
    cases h₂ with
    | nil => exact absurd hes (by simp)
    | snoc run' step' =>
      obtain ⟨rfl, he⟩ := List.append_inj' hes rfl
      obtain rfl := (List.cons.inj he).1
      obtain ⟨rfl, rfl, rfl⟩ := ih run'
      obtain ⟨rfl, rfl, rfl⟩ := step.unique ht step'
      exact ⟨rfl, rfl, rfl⟩

/-! ### The meaning of a document -/

/-- The elements compile. -/
def Compiles (tools : Tools) (history : List Call) (es : List Element) : Prop :=
  ∃ ds, (elements tools history es).result = .ok ds

/-- **The same meaning**, but for what the reader gets to see of the element at place `i`.  The
documents compile together, and if they do not, they stop at the same element. -/
structure SameBut (tools : Tools) (history : List Call) (i : Nat) (es us : List Element) :
    Prop where
  compiles : Compiles tools history es ↔ Compiles tools history us
  stops : ∀ k, Compiles tools history (es.take k) ↔ Compiles tools history (us.take k)
  calls : (elements tools history es).calls = (elements tools history us).calls
  renderings : ∀ ds ds', (elements tools history es).result = .ok ds →
    (elements tools history us).result = .ok ds' →
      ds.length = ds'.length ∧ ∀ n, n ≠ i → ds[n]? = ds'[n]?

theorem calls_elements (tools : Tools) (history : List Call) (es : List Element) :
    (elements tools history es).calls = (runFrom tools history .empty es).calls := by
  rw [elements]
  rcases runFrom tools history .empty es with ⟨calls, _ | ⟨r, ds⟩⟩ <;> rfl

theorem result_elements_eq_ok_iff :
    (elements tools history es).result = .ok ds ↔
      ∃ r, (runFrom tools history .empty es).result = .ok (r, ds) := by
  rw [elements]
  rcases runFrom tools history .empty es with ⟨calls, _ | ⟨r, ds⟩⟩ <;> simp

/-- **Elements compile exactly if there is a run of them**, and then they look as in the run. -/
theorem elements_eq_ok_iff :
    elements tools history es = ⟨calls, .ok ds⟩ ↔ ∃ r, Runs tools history .empty es calls r ds := by
  simp only [← runFrom_eq_ok_iff]
  rw [elements]
  rcases runFrom tools history .empty es with ⟨calls', _ | ⟨r, ds'⟩⟩ <;> simp

theorem elements_eq_error_iff {err : CompileError} :
    elements tools history es = ⟨calls, .error err⟩ ↔
      runFrom tools history .empty es = ⟨calls, .error err⟩ := by
  rw [elements]
  rcases runFrom tools history .empty es with ⟨calls', _ | ⟨r, ds⟩⟩ <;> simp

/-- A document is compiled as its elements are. -/
theorem document_of_load {source : Text} (h : Element.load source = .ok es) :
    document tools history source = ⟨(elements tools history es).calls,
      ((elements tools history es).result.map Rendered.document).mapError .compile⟩ := by
  rw [document, h]
  simp only
  rcases elements tools history es with ⟨calls, err | ds⟩ <;> rfl

theorem compiles_iff :
    Compiles tools history es ↔ (elements tools history es).result.isOk = true := by
  rw [Compiles]
  rcases (elements tools history es).result with err | ds
  · exact ⟨fun ⟨_, h⟩ => (nomatch h), fun h => (nomatch h)⟩
  · exact ⟨fun _ => rfl, fun _ => ⟨ds, rfl⟩⟩

/-- A run goes on where a run of the elements before it has stopped. -/
theorem calls_runFrom_append (run : Runs tools history r before calls r₁ ds) (es : List Element) :
    (runFrom tools history r (before ++ es)).calls =
      calls ++ (runFrom tools (history ++ calls) r₁ es).calls := by
  rw [runFrom_append, run.runFrom_eq]
  simp only
  rcases runFrom tools (history ++ calls) r₁ es with ⟨later, _ | ⟨r₂, ds'⟩⟩ <;> rfl

/-! ### One element for another -/

/-- One element does the same as another, but for its rendering: both fail, or both leave the same
registry.  None of them runs code. -/
def Exchanges (tools : Tools) (history : List Call) (r : Registry) (e u : Element) : Prop :=
  (∃ err err', e.execute tools history r = ⟨[], .error err⟩ ∧
      u.execute tools history r = ⟨[], .error err'⟩) ∨
    ∃ r' d d', e.execute tools history r = ⟨[], .ok (r', d)⟩ ∧
      u.execute tools history r = ⟨[], .ok (r', d')⟩

theorem Exchanges.symm {e u : Element} (h : Exchanges tools history r e u) :
    Exchanges tools history r u e :=
  h.imp (fun ⟨err, err', he, hu⟩ => ⟨err', err, hu, he⟩)
    fun ⟨r', d, d', he, hu⟩ => ⟨r', d', d, hu, he⟩

/-- Two runs agree: in their calls, in whether they succeed, in the registry they leave, and in all
renderings but the one at place `i`. -/
def Agree (i : Nat) (t u : Traced CompileError (Registry × List Rendered)) : Prop :=
  t.calls = u.calls ∧
    ((∃ err err', t.result = .error err ∧ u.result = .error err') ∨
      ∃ r ds ds', t.result = .ok (r, ds) ∧ u.result = .ok (r, ds') ∧ ds.length = ds'.length ∧
        ∀ n, n ≠ i → ds[n]? = ds'[n]?)

theorem Agree.refl (t : Traced CompileError (Registry × List Rendered)) : Agree i t t := by
  refine ⟨rfl, ?_⟩
  obtain ⟨calls, err | ⟨r, ds⟩⟩ := t
  · exact Or.inl ⟨err, err, rfl, rfl⟩
  · exact Or.inr ⟨r, ds, ds, rfl, rfl, rfl, fun _ _ => rfl⟩

theorem getElem?_append_cons_of_ne (ds later : List Rendered) (d d' : Rendered) {n : Nat}
    (hn : n ≠ ds.length) : (ds ++ d :: later)[n]? = (ds ++ d' :: later)[n]? := by
  by_cases hlt : n < ds.length
  · rw [List.getElem?_append_left hlt, List.getElem?_append_left hlt]
  · obtain ⟨m, hm⟩ := Nat.exists_eq_add_of_lt (show ds.length < n by omega)
    have hsub : n - ds.length = m + 1 := by omega
    rw [List.getElem?_append_right (by omega), List.getElem?_append_right (by omega), hsub]
    rfl

/-- **Runs agree** if they go over elements that exchange. -/
theorem agree_runFrom {e u : Element}
    (h : ∀ calls r ds, Runs tools history .empty before calls r ds →
      Exchanges tools (history ++ calls) r e u) (after : List Element) :
    Agree before.length (runFrom tools history .empty (before ++ e :: after))
      (runFrom tools history .empty (before ++ u :: after)) := by
  rw [runFrom_append, runFrom_append]
  rcases hb : runFrom tools history .empty before with ⟨calls, err | ⟨r, ds⟩⟩
  · exact Agree.refl _
  · have run := runFrom_eq_ok_iff.mp hb
    simp only [runFrom]
    rcases h calls r ds run with ⟨err, err', he, hu⟩ | ⟨r', d, d', he, hu⟩
    · rw [he, hu]
      exact ⟨rfl, Or.inl ⟨err, err', rfl, rfl⟩⟩
    · rw [he, hu]
      simp only
      rcases runFrom tools (history ++ calls ++ []) r' after with ⟨later, err | ⟨r'', ds'⟩⟩
      · exact ⟨rfl, Or.inl ⟨err, err, rfl, rfl⟩⟩
      · refine ⟨rfl, Or.inr ⟨r'', _, _, rfl, rfl, by simp, fun n hn => ?_⟩⟩
        rw [run.length_eq] at hn
        exact getElem?_append_cons_of_ne ds ds' d d' hn

theorem Agree.compiles_iff (h : Agree i (runFrom tools history .empty es)
    (runFrom tools history .empty us)) : Compiles tools history es ↔ Compiles tools history us := by
  simp only [Compiles, result_elements_eq_ok_iff]
  obtain ⟨-, ⟨err, err', he, hu⟩ | ⟨r, ds, ds', he, hu, -⟩⟩ := h
  · constructor
    · rintro ⟨ds, r, hrun⟩
      rw [hrun] at he
      cases he
    · rintro ⟨ds, r, hrun⟩
      rw [hrun] at hu
      cases hu
  · exact ⟨fun _ => ⟨ds', r, hu⟩, fun _ => ⟨ds, r, he⟩⟩

/-- **One element for another.**  If elements exchange wherever the elements before them lead to,
they may stand for each other in front of all others. -/
theorem sameBut_of_exchanges {e u : Element}
    (h : ∀ calls r ds, Runs tools history .empty before calls r ds →
      Exchanges tools (history ++ calls) r e u) (after : List Element) :
    SameBut tools history before.length (before ++ e :: after) (before ++ u :: after) := by
  have hagree := agree_runFrom h
  refine ⟨(hagree after).compiles_iff, fun k => ?_, ?_, fun ds ds' he hu => ?_⟩
  · by_cases hk : k ≤ before.length
    · rw [List.take_append_of_le_length hk, List.take_append_of_le_length hk]
    · obtain ⟨m, hm⟩ := Nat.exists_eq_add_of_lt (show before.length < k by omega)
      have htake : ∀ a : Element,
          (before ++ a :: after).take k = before ++ a :: after.take m := fun a => by
        rw [hm, Nat.add_assoc, List.take_length_add_append, List.take_succ_cons]
      rw [htake, htake]
      exact (hagree (after.take m)).compiles_iff
  · rw [calls_elements, calls_elements]
    exact (hagree after).1
  · obtain ⟨r, he⟩ := result_elements_eq_ok_iff.mp he
    obtain ⟨r', hu⟩ := result_elements_eq_ok_iff.mp hu
    obtain ⟨-, ⟨err, err', he', -⟩ | ⟨r₁, ds₁, ds₁', he', hu', hlen, hsame⟩⟩ := hagree after
    · cases he.symm.trans he'
    · obtain ⟨rfl, rfl⟩ := Prod.mk.inj (Except.ok.inj (he.symm.trans he'))
      obtain ⟨rfl, rfl⟩ := Prod.mk.inj (Except.ok.inj (hu.symm.trans hu'))
      exact ⟨hlen, hsame⟩

end Compile

end Literate
