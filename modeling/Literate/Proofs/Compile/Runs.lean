import Literate.Compile.Document
import Literate.Proofs.Compile.Steps
import Mathlib.Data.List.Induction

/-!
# Runs

`Runs tools history r es calls r' ds`: the elements `es`, carried out in order on the registry `r`
after the calls in `history`, all succeed; they make `calls`, leave the registry `r'`, and the
reader gets to see `ds`.  `runFrom_eq_ok_iff` says that `runFrom` succeeds exactly then.

* `runFrom_append`: a run of two lists of elements is a run of the first and then of the second.
* `exists_of_runFrom_error`: elements that are not all carried out stop at one of them.
* `exists_of_calls_runFrom`: a call of a run belongs to one element, which is reached by a run of
  the elements before it that makes the earlier calls.
-/

namespace Literate.Compile

variable {tools : Tools} {history : List Call} {r : Registry}

/-- **A run**, as a chain of steps. -/
inductive Runs (tools : Tools) (history : List Call) (r : Registry) :
    List Element → List Call → Registry → List Rendered → Prop
  | nil : Runs tools history r [] [] r []
  | snoc {es : List Element} {calls more : List Call} {r₁ r₂ : Registry} {ds : List Rendered}
      {e : Element} {d : Rendered} (run : Runs tools history r es calls r₁ ds)
      (step : Element.Step tools (history ++ calls) r₁ e.kind more r₂ d) :
      Runs tools history r (es ++ [e]) (calls ++ more) r₂ (ds ++ [d])

theorem runFrom_append (tools : Tools) (history : List Call) (r : Registry) (as bs : List Element) :
    runFrom tools history r (as ++ bs) =
      match runFrom tools history r as with
      | ⟨calls, .error e⟩ => ⟨calls, .error e⟩
      | ⟨calls, .ok (r', ds)⟩ =>
        match runFrom tools (history ++ calls) r' bs with
        | ⟨later, .error e⟩ => ⟨calls ++ later, .error e⟩
        | ⟨later, .ok (r'', ds')⟩ => ⟨calls ++ later, .ok (r'', ds ++ ds')⟩ := by
  induction as generalizing history r with
  | nil =>
    simp only [List.nil_append, runFrom, Traced.pure, List.append_nil]
    rcases runFrom tools history r bs with ⟨calls, _ | ⟨r', ds⟩⟩ <;> rfl
  | cons a as ih =>
    rw [List.cons_append, runFrom, runFrom]
    rcases a.execute tools history r with ⟨calls, _ | ⟨r', d⟩⟩
    · rfl
    · simp only [ih]
      rcases runFrom tools (history ++ calls) r' as with ⟨later, _ | ⟨r'', ds⟩⟩
      · rfl
      · simp only [← List.append_assoc]
        rcases runFrom tools (history ++ calls ++ later) r'' bs with ⟨last, _ | ⟨r₃, ds'⟩⟩
        · simp
        · simp

theorem runFrom_singleton (tools : Tools) (history : List Call) (r : Registry) (e : Element) :
    runFrom tools history r [e] =
      match e.execute tools history r with
      | ⟨calls, .error err⟩ => ⟨calls, .error err⟩
      | ⟨calls, .ok (r', d)⟩ => ⟨calls, .ok (r', [d])⟩ := by
  rw [runFrom]
  rcases e.execute tools history r with ⟨calls, _ | ⟨r', d⟩⟩
  · rfl
  · simp [runFrom, Traced.pure]

theorem Runs.runFrom_eq {es : List Element} {calls : List Call} {r' : Registry}
    {ds : List Rendered} (h : Runs tools history r es calls r' ds) :
    runFrom tools history r es = ⟨calls, .ok (r', ds)⟩ := by
  induction h with
  | nil => rfl
  | snoc _ step ih =>
    rw [runFrom_append, ih]
    simp only [runFrom_singleton, Element.execute_eq_ok_iff.mpr step]

/-- **`runFrom` succeeds exactly on runs.** -/
theorem runFrom_eq_ok_iff {es : List Element} {calls : List Call} {r' : Registry}
    {ds : List Rendered} :
    runFrom tools history r es = ⟨calls, .ok (r', ds)⟩ ↔ Runs tools history r es calls r' ds := by
  refine ⟨fun h => ?_, Runs.runFrom_eq⟩
  induction es using List.reverseRecOn generalizing calls r' ds with
  | nil =>
    obtain ⟨rfl, he⟩ := Traced.mk.inj h
    obtain ⟨rfl, rfl⟩ := Prod.mk.inj (Except.ok.inj he)
    exact .nil
  | append_singleton es e ih =>
    rw [runFrom_append] at h
    rcases hr : runFrom tools history r es with ⟨calls₁, _ | ⟨r₁, ds₁⟩⟩
    · rw [hr] at h
      cases h
    · rw [hr] at h
      simp only [runFrom_singleton] at h
      rcases hs : e.execute tools (history ++ calls₁) r₁ with ⟨calls₂, _ | ⟨r₂, d⟩⟩
      · rw [hs] at h
        cases h
      · rw [hs] at h
        obtain ⟨rfl, he⟩ := Traced.mk.inj h
        obtain ⟨rfl, rfl⟩ := Prod.mk.inj (Except.ok.inj he)
        exact .snoc (ih hr) (Element.execute_eq_ok_iff.mp hs)

/-- `replay` succeeds exactly on runs from nothing. -/
theorem replay_eq_ok_iff {es : List Element} {calls : List Call} {r : Registry} :
    replay tools history es = ⟨calls, .ok r⟩ ↔ ∃ ds, Runs tools history .empty es calls r ds := by
  simp only [← runFrom_eq_ok_iff]
  rw [replay]
  rcases runFrom tools history .empty es with ⟨calls', _ | ⟨r', ds⟩⟩ <;> simp

/-- A run of a list with a last element is a run of the others and a step. -/
theorem Runs.exists_of_concat {es : List Element} {e : Element} {calls : List Call} {r₂ : Registry}
    {ds : List Rendered} (h : Runs tools history r (es ++ [e]) calls r₂ ds) :
    ∃ calls₁ r₁ ds₁ more d, calls = calls₁ ++ more ∧ ds = ds₁ ++ [d] ∧
      Runs tools history r es calls₁ r₁ ds₁ ∧
      Element.Step tools (history ++ calls₁) r₁ e.kind more r₂ d := by
  generalize hes : es ++ [e] = es' at h
  cases h with
  | nil => exact absurd hes (by simp)
  | snoc run step =>
    obtain ⟨rfl, he⟩ := List.append_inj' hes rfl
    obtain rfl := (List.cons.inj he).1
    exact ⟨_, _, _, _, _, rfl, rfl, run, step⟩

theorem Runs.length_eq {es : List Element} {calls : List Call} {r' : Registry}
    {ds : List Rendered} (h : Runs tools history r es calls r' ds) : es.length = ds.length := by
  induction h with
  | nil => rfl
  | snoc _ _ ih => simp [ih]

/-! ### The element that fails -/

/-- **Elements that are not all carried out** stop at one of them.  Those before it have succeeded,
and the calls are theirs and its own. -/
theorem exists_of_runFrom_error {es : List Element} {calls : List Call} {err : CompileError}
    (h : runFrom tools history r es = ⟨calls, .error err⟩) :
    ∃ (before : List Element) (target : Element) (after : List Element) (earlier last : List Call)
      (r' : Registry) (ds : List Rendered), es = before ++ target :: after ∧
        Runs tools history r before earlier r' ds ∧
        target.execute tools (history ++ earlier) r' = ⟨last, .error err⟩ ∧
        calls = earlier ++ last := by
  induction es using List.reverseRecOn generalizing calls with
  | nil => cases h
  | append_singleton es e ih =>
    rw [runFrom_append] at h
    rcases hr : runFrom tools history r es with ⟨calls₁, err₁ | ⟨r₁, ds⟩⟩
    · rw [hr] at h
      obtain ⟨rfl, herr⟩ := Traced.mk.inj h
      rw [Except.error.inj herr] at hr
      obtain ⟨before, target, after, earlier, last, r', ds, rfl, hrest⟩ := ih hr
      exact ⟨before, target, after ++ [e], earlier, last, r', ds, by simp, hrest⟩
    · rw [hr] at h
      simp only [runFrom_singleton] at h
      rcases he : e.execute tools (history ++ calls₁) r₁ with ⟨calls₂, err₂ | ⟨r₂, d⟩⟩
      · rw [he] at h
        obtain ⟨rfl, herr⟩ := Traced.mk.inj h
        obtain rfl := Except.error.inj herr
        exact ⟨es, e, [], calls₁, calls₂, r₁, ds, rfl, runFrom_eq_ok_iff.mp hr, he, rfl⟩
      · rw [he] at h
        cases h

/-- Elements stop where one fails that the elements before it lead to. -/
theorem Runs.runFrom_eq_error {before : List Element} {target : Element} {earlier last : List Call}
    {r' : Registry} {ds : List Rendered} {err : CompileError}
    (run : Runs tools history r before earlier r' ds)
    (h : target.execute tools (history ++ earlier) r' = ⟨last, .error err⟩)
    (after : List Element) :
    runFrom tools history r (before ++ target :: after) = ⟨earlier ++ last, .error err⟩ := by
  rw [runFrom_append, run.runFrom_eq]
  simp only [runFrom, h]

/-! ### The element of a call -/

theorem calls_runFrom_singleton (tools : Tools) (history : List Call) (r : Registry) (e : Element) :
    (runFrom tools history r [e]).calls = (e.execute tools history r).calls := by
  rw [runFrom_singleton]
  rcases e.execute tools history r with ⟨calls, _ | ⟨r', d⟩⟩ <;> rfl

theorem calls_runFrom_cons_of_ok {e : Element} {rest : List Element} {calls : List Call}
    {r' : Registry} {d : Rendered} (h : e.execute tools history r = ⟨calls, .ok (r', d)⟩) :
    (runFrom tools history r (e :: rest)).calls =
      calls ++ (runFrom tools (history ++ calls) r' rest).calls := by
  rw [runFrom, h]
  simp only
  rcases runFrom tools (history ++ calls) r' rest with ⟨later, _ | ⟨r'', ds⟩⟩ <;> rfl

theorem runFrom_cons_of_ok {e : Element} {rest : List Element} {calls later : List Call}
    {r₁ r₂ : Registry} {d : Rendered} {ds : List Rendered}
    (h : e.execute tools history r = ⟨calls, .ok (r₁, d)⟩)
    (hr : runFrom tools (history ++ calls) r₁ rest = ⟨later, .ok (r₂, ds)⟩) :
    runFrom tools history r (e :: rest) = ⟨calls ++ later, .ok (r₂, d :: ds)⟩ := by
  rw [runFrom, h]
  simp only [hr]

/-- **Every call belongs to one element.**  The elements before it have succeeded and made the calls
before it, and the element makes this call alone. -/
theorem exists_of_calls_runFrom {es : List Element} {earlier later : List Call} {call : Call}
    (h : (runFrom tools history r es).calls = earlier ++ call :: later) :
    ∃ (before : List Element) (target : Element) (after : List Element) (r' : Registry)
      (ds : List Rendered), es = before ++ target :: after ∧
        Runs tools history r before earlier r' ds ∧
        (target.execute tools (history ++ earlier) r').calls = [call] := by
  induction es generalizing history r earlier with
  | nil => exact absurd h (by simp [runFrom, Traced.pure])
  | cons e rest ih =>
    have hone : (e.execute tools history r).calls = [] ∨
        ∃ c, (e.execute tools history r).calls = [c] := by
      rcases Element.calls_execute tools history r e with hc | ⟨_, _, _, s, _, _, _, hc⟩
      · exact Or.inl hc
      · exact Or.inr ⟨_, hc⟩
    rcases he : e.execute tools history r with ⟨calls, err | ⟨r₁, d⟩⟩
    · rw [runFrom, he] at h
      rw [he] at hone
      simp only at h hone
      rcases hone with hc | ⟨c, hc⟩
      · rw [hc] at h
        exact absurd h (by simp)
      · rw [hc, List.singleton_eq_append_iff] at h
        rcases h with ⟨rfl, hcall⟩ | ⟨_, hcall⟩
        · refine ⟨[], e, rest, r, [], rfl, .nil, ?_⟩
          rw [List.append_nil, he, hc]
          obtain ⟨rfl, -⟩ := List.cons.inj hcall
          rfl
        · exact absurd hcall (by simp)
    · rw [calls_runFrom_cons_of_ok he] at h
      rw [he] at hone
      simp only at hone
      have hrest : ∀ earlier', earlier = calls ++ earlier' →
          (runFrom tools (history ++ calls) r₁ rest).calls = earlier' ++ call :: later →
          ∃ (before : List Element) (target : Element) (after : List Element) (r' : Registry)
            (ds : List Rendered), e :: rest = before ++ target :: after ∧
              Runs tools history r before earlier r' ds ∧
              (target.execute tools (history ++ earlier) r').calls = [call] := by
        rintro earlier' rfl hcalls
        obtain ⟨before, target, after, r', ds, rfl, hrun, ht⟩ := ih hcalls
        refine ⟨e :: before, target, after, r', d :: ds, rfl, ?_, ?_⟩
        · exact runFrom_eq_ok_iff.mp (runFrom_cons_of_ok he (runFrom_eq_ok_iff.mpr hrun))
        · rwa [← List.append_assoc]
      rcases hone with rfl | ⟨c, rfl⟩
      · exact hrest earlier rfl h
      · cases earlier with
        | nil =>
          refine ⟨[], e, rest, r, [], rfl, .nil, ?_⟩
          rw [List.append_nil, he]
          obtain ⟨rfl, -⟩ := List.cons.inj h
          rfl
        | cons first earlier' =>
          obtain ⟨rfl, hcalls⟩ := List.cons.inj h
          exact hrest earlier' rfl hcalls

end Literate.Compile
