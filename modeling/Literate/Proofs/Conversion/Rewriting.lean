import Literate.Proofs.Conversion
import Literate.Proofs.Document.Carried
import Literate.Proofs.Document.Splice

/-!
# A converted document

What a conversion makes of a source (`exists_of_document`): the block on the line has the converted
kind with the content that a block carries, and the elements before it are what they were.
`upTo line es` are the elements up to and including the first one on the line.
-/

namespace Literate.Conversion

open Compile

variable {tools : Tools} {run : Runner} {history calls : List Call} {r : Registry}
  {es before after : List Element} {target : Element} {line : Nat} {form : Form}
  {kind : ElementKind} {source converted : Text}

/-! ### Up to a line -/

/-- The elements up to and including the first one that starts on the line; all of them if none
does. -/
def upTo (line : Nat) (es : List Element) : List Element :=
  match split line es with
  | some (before, target, _) => before ++ [target]
  | none => es

theorem split_append (hline : target.line = line) (hbefore : ∀ e ∈ before, e.line ≠ line)
    (after : List Element) :
    split line (before ++ target :: after) = some (before, target, after) := by
  induction before with
  | nil => rw [List.nil_append, split, if_pos hline]
  | cons e before ih =>
    obtain ⟨he, hbefore⟩ := List.forall_mem_cons.mp hbefore
    rw [List.cons_append, split, if_neg he, ih hbefore]
    rfl

theorem upTo_append (hline : target.line = line) (hbefore : ∀ e ∈ before, e.line ≠ line)
    (after : List Element) : upTo line (before ++ target :: after) = before ++ [target] := by
  rw [upTo, split_append hline hbefore]

/-- A run goes on with one more element where the elements before it have led. -/
theorem replay_concat_eq_ok_iff {e : Element} {r₁ : Registry} {earlier : List Call}
    {ds : List Rendered} (hrun : Runs tools history .empty before earlier r ds) :
    replay tools history (before ++ [e]) = ⟨calls, .ok r₁⟩ ↔
      ∃ more d, calls = earlier ++ more ∧
        Element.Step tools (history ++ earlier) r e.kind more r₁ d := by
  rw [replay_eq_ok_iff]
  constructor
  · rintro ⟨ds', run⟩
    obtain ⟨calls', r', ds₁, more, d, rfl, rfl, run', step⟩ := run.exists_of_concat
    obtain ⟨rfl, rfl, -⟩ := hrun.unique rfl run'
    exact ⟨more, d, rfl, step⟩
  · rintro ⟨more, d, rfl, step⟩
    exact ⟨_, hrun.snoc step⟩

/-- Whatever is run, elements that are carried out lead to the same registry. -/
theorem exists_runs_of_replay_concat {e : Element} {r₁ : Registry} {run' : Runner}
    {earlier history' : List Call} {ds : List Rendered}
    (hrun : Runs (Tools.standard run) history .empty before earlier r ds)
    (h : replay (Tools.standard run') history' (before ++ [e]) = ⟨calls, .ok r₁⟩) :
    ∃ ds', Runs (Tools.standard run') history' .empty before earlier r ds' := by
  obtain ⟨ds', run₁⟩ := replay_eq_ok_iff.mp h
  obtain ⟨calls', r', ds₁, more, d, -, -, run₂, -⟩ := run₁.exists_of_concat
  obtain ⟨rfl, rfl, rfl⟩ := hrun.unique
    (by rw [Tools.patch_standard, Tools.patch_standard]) run₂
  exact ⟨ds, run₂⟩

/-- **One element in the place of another.**  The other leads from the registry `r` to `rOld`, and
the one to `rNew`, without a call.  So the elements up to the one lead to `rNew` wherever those up
to the other are carried out. -/
theorem replay_upTo_of_steps {new : Element} {rest : List Element} {rOld rNew r₁ : Registry}
    {dOld dNew : Rendered} {run' : Runner} {earlier history' : List Call} {ds : List Rendered}
    (hrun : Runs (Tools.standard run) history .empty before earlier r ds)
    (hbefore : ∀ e ∈ before, e.line ≠ line) (hline : target.line = line) (hnew : new.line = line)
    (hOld : ∀ history', Element.Step (Tools.standard run') history' r target.kind [] rOld dOld)
    (hNew : ∀ history', Element.Step (Tools.standard run') history' r new.kind [] rNew dNew)
    (h : replay (Tools.standard run') history' (upTo line (before ++ target :: after)) =
      ⟨calls, .ok r₁⟩) :
    r₁ = rOld ∧ replay (Tools.standard run') history' (upTo line (before ++ new :: rest)) =
      ⟨calls, .ok rNew⟩ := by
  rw [upTo_append hline hbefore] at h
  obtain ⟨ds', hrun'⟩ := exists_runs_of_replay_concat hrun h
  obtain ⟨more, d, rfl, step⟩ := (replay_concat_eq_ok_iff hrun').mp h
  obtain ⟨rfl, rfl, -⟩ := step.unique rfl (hOld (history' ++ earlier))
  rw [upTo_append hnew hbefore]
  exact ⟨rfl, (replay_concat_eq_ok_iff hrun').mpr ⟨[], _, rfl, hNew _⟩⟩

/-- **Both forms of a change leave the same registry** if the content is the same, and only then. -/
theorem insert_changed_eq_iff {name diff patched content : Text} {s : Snippet} {render : Bool}
    (hold : s.content.IsPlain) (hp : s.pending = []) (hr : '\r' ∉ diff)
    (h : Patch.apply s.content diff = .ok patched) :
    r.insert name (s.changed patched render (Hunk.addedLines diff)) =
      r.insert name (s.changed content render (Text.lines content)) ↔ patched = content := by
  have hreturn := Patch.return_not_mem_of_apply hold.noReturn hr h
  rw [Snippet.changed_eq hp (Patch.isPlain_of_apply hold.ended hreturn h).2.1]
  refine ⟨fun he => ?_, fun he => by rw [he]⟩
  have hget := congrArg (fun r => r.get? name) he
  simp only [Registry.get?_insert_self, Option.some.injEq] at hget
  have hcontent := congrArg Snippet.content hget
  rwa [Snippet.content_changed, Snippet.content_changed] at hcontent

/-! ### The converted source -/

theorem Converts.name? {kind' : ElementKind} (h : Converts tools r kind form kind') :
    ∃ name, kind.name? = some name ∧ kind'.name? = some name := by
  cases h with
  | replace => exact ⟨_, rfl, rfl⟩
  | diff => exact ⟨_, rfl, rfl⟩

/-- Both forms can be written if the name is a word. -/
theorem Converts.isWritable {kind' : ElementKind} {name : Text}
    (h : Converts tools r kind form kind') (hname : kind.name? = some name) (hword : name.IsWord) :
    kind'.IsWritable name := by
  have hoption := ElementKind.isOption_render
  cases h with
  | replace => exact ⟨hname, hword, List.forall_mem_singleton.mpr (hoption _)⟩
  | diff => exact ⟨hname, hword, List.forall_mem_singleton.mpr (hoption _)⟩

/-- A source that is read, with an element of another kind in the place of one. -/
theorem exists_load_splice (hload : Element.load source = .ok (before ++ target :: after))
    (hconverts : Converts tools r target.kind form kind) :
    ∃ new rest, Element.load ({ target with kind }.splice source) = .ok (before ++ new :: rest) ∧
      new.line = target.line ∧ new.kind = kind.withContent (Text.carried kind.content) := by
  obtain ⟨name, hname, -⟩ := hconverts.name?
  obtain ⟨-, -, -, -, -, -, -, -, -, -, hword⟩ := Element.exists_of_load hload hname
  obtain ⟨stop, number, offset, number', offset', blanks, later, -, hconverted, -, -⟩ :=
    Element.load_splice hload hname (hconverts.isWritable hname hword)
  exact ⟨_, _, hconverted, rfl, rfl⟩

/-- The converted source is the source with the first element on the line rewritten. -/
theorem result_document (hload : Element.load source = .ok es) (hline : target.line = line)
    (hbefore : ∀ e ∈ before, e.line ≠ line)
    (h : (Conversion.elements tools history es line form).result =
      .ok (before ++ { target with kind } :: after)) :
    (Conversion.document tools history source line form).result =
      .ok ({ target with kind }.splice source) := by
  obtain ⟨calls, result, hes⟩ : ∃ calls result,
      Conversion.elements tools history es line form = ⟨calls, result⟩ := ⟨_, _, rfl⟩
  rw [hes] at h
  obtain rfl : result = .ok (before ++ { target with kind } :: after) := h
  have hfind : (before ++ { target with kind } :: after).find?
      (fun element => decide (element.line = line)) = some { target with kind } := by
    have hnone : before.find? (fun element => decide (element.line = line)) = none :=
      List.find?_eq_none.mpr fun e he => by simpa using hbefore e he
    rw [List.find?_append, hnone, Option.none_or, List.find?_cons_of_pos (by simpa using hline)]
  rw [Conversion.document, hload]
  simp only [hes, hfind]

/-- **What a conversion makes of a source.** -/
theorem exists_of_document
    (h : (Conversion.document tools history source line form).result = .ok converted) :
    ∃ before target kind after earlier r new rest,
      Element.load source = .ok (before ++ target :: after) ∧ target.line = line ∧
      (∀ e ∈ before, e.line ≠ line) ∧ replay tools history before = ⟨earlier, .ok r⟩ ∧
      Converts tools r target.kind form kind ∧
      Element.load converted = .ok (before ++ new :: rest) ∧ new.line = line ∧
      new.kind = kind.withContent (Text.carried kind.content) := by
  cases hload : Element.load source with
  | error e =>
    rw [Conversion.document, hload] at h
    cases h
  | ok es =>
    cases helements : (Conversion.elements tools history es line form).result with
    | error e =>
      rw [Conversion.document, hload] at h
      obtain ⟨calls, result, hes⟩ : ∃ calls result,
        Conversion.elements tools history es line form = ⟨calls, result⟩ := ⟨_, _, rfl⟩
      rw [hes] at helements
      obtain rfl : result = .error e := helements
      simp only [hes] at h
      cases h
    | ok us =>
      obtain ⟨before, target, kind, after, earlier, r, rfl, rfl, hline, hbefore, hreplay,
        hconverts⟩ := exists_of_elements helements
      rw [result_document hload hline hbefore helements] at h
      obtain rfl := Except.ok.inj h
      obtain ⟨new, rest, hnew, hnewLine, hnewKind⟩ := exists_load_splice hload hconverts
      exact ⟨before, target, kind, after, earlier, r, new, rest, rfl, hline, hbefore, hreplay,
        hconverts, hnew, hnewLine.trans hline, hnewKind⟩

/-- The other form of an element is found if there is one. -/
theorem exists_kind_of_converts {kind' : ElementKind} {earlier : List Call}
    (hreplay : replay tools history before = ⟨earlier, .ok r⟩)
    (h : Converts tools r target.kind form kind') :
    ∃ calls, Conversion.kind tools history before target form = ⟨calls, .ok kind'⟩ := by
  generalize hkind : target.kind = kind at h
  cases h with
  | @replace name diff content render s hg hp ha =>
    have hstep : Element.Step tools (history ++ earlier) r target.kind []
        (r.insert name (s.changed content render (Hunk.addedLines diff)))
        ((Rendered.literal diff).when render) := by
      rw [hkind]
      exact .diff hg hp ha
    refine ⟨earlier ++ [], ?_⟩
    simp only [Conversion.kind, hkind, patchedContent, hreplay,
      Element.execute_eq_ok_iff.mpr hstep, Registry.get?_insert_self, Snippet.content_changed]
  | @diff name content render s hg hne =>
    refine ⟨earlier, ?_⟩
    simp only [Conversion.kind, hkind, writtenDiff, hreplay, hg, if_neg hne]

/-- **A block that has another form is converted.** -/
theorem exists_document {earlier : List Call}
    (hload : Element.load source = .ok (before ++ target :: after)) (hline : target.line = line)
    (hbefore : ∀ e ∈ before, e.line ≠ line)
    (hreplay : replay tools history before = ⟨earlier, .ok r⟩)
    (h : Converts tools r target.kind form kind) :
    ∃ converted new rest,
      (Conversion.document tools history source line form).result = .ok converted ∧
      Element.load converted = .ok (before ++ new :: rest) ∧ new.line = line ∧
      new.kind = kind.withContent (Text.carried kind.content) := by
  obtain ⟨calls, hkind⟩ := exists_kind_of_converts hreplay h
  have helements :
      (Conversion.elements tools history (before ++ target :: after) line form).result =
        .ok (before ++ { target with kind } :: after) := by
    rw [Conversion.elements, split_append hline hbefore]
    simp only [hkind]
  obtain ⟨new, rest, hnew, hnewLine, hnewKind⟩ := exists_load_splice hload h
  exact ⟨_, new, rest, result_document hload hline hbefore helements, hnew, hnewLine.trans hline,
    hnewKind⟩

end Literate.Conversion
