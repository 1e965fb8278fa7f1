import Literate.Proofs.Conversion.Rewriting

/-!
# A diff written as the new content

A block that is converted from a diff to the new content of its snippet is read back with the
content that a block can carry.  So the snippet is the same after the converted block if the content
that the diff gives it is tidy, and only then (`replay_replaced_iff_isTidy`): a blank line at the
beginning or at the end is lost, and white space on a blank line too (`replay_replaced_untidy`).
-/

namespace Literate.Conversion

open Compile

variable {run : Runner} {history : List Call} {line : Nat} {source converted : Text}

/-- **A diff converted to the new content keeps the snippet if the content is tidy, and only then.**
The source has no CR and ends with LF.  The converted source is read, and its elements up to the
block are carried out wherever those of the source are.  The registry is the same after both if the
content that the diff gives to its snippet is tidy, and only then. -/
theorem replay_replaced_iff_isTidy (hr : '\r' ∉ source)
    (hs : Text.endsWithNewline source = true)
    (h : (Conversion.document (Tools.standard run) history source line .replace).result =
      .ok converted) :
    ∃ es us before target name render diff calls r s,
      Element.load source = .ok es ∧ Element.load converted = .ok us ∧
      upTo line es = before ++ [target] ∧ target.kind = .diff name render diff ∧
      replay (Tools.standard run) history (upTo line es) = ⟨calls, .ok r⟩ ∧
      r.get? name = some s ∧
      ∀ run' history' calls₁ r₁,
        replay (Tools.standard run') history' (upTo line es) = ⟨calls₁, .ok r₁⟩ →
        ∃ r₂, replay (Tools.standard run') history' (upTo line us) = ⟨calls₁, .ok r₂⟩ ∧
          (r₂ = r₁ ↔ s.content.IsTidy) := by
  obtain ⟨before, target, kind, after, earlier, r, new, rest, hload, hline, hbefore, hreplay,
    hconverts, hconverted, hnew, hnewKind⟩ := exists_of_document h
  obtain ⟨ds, hrun⟩ := replay_eq_ok_iff.mp hreplay
  have hplain := plain_of_load rfl hr (Or.inr hs) hload hrun
  have htarget := isPlain_of_load hr (Or.inr hs) hload target
    (List.mem_append_right _ List.mem_cons_self)
  generalize hkind : target.kind = targetKind at hconverts htarget
  cases hconverts with
  | @replace name diff content render s hg hp ha =>
    obtain ⟨hold, -⟩ := hplain name s hg
    replace htarget : diff.IsPlain := htarget
    have hreturn := Patch.return_not_mem_of_apply hold.noReturn htarget.noReturn ha
    obtain ⟨hpatched, -, -⟩ := Patch.isPlain_of_apply hold.ended hreturn ha
    have hstep : ∀ run' history', Element.Step (Tools.standard run') history' r target.kind []
        (r.insert name (s.changed content render (Hunk.addedLines diff)))
        ((Rendered.literal diff).when render) := fun run' history' => by
      rw [hkind]
      exact .diff hg hp ha
    have hstepNew : ∀ run' history', Element.Step (Tools.standard run') history' r new.kind []
        (r.insert name (s.changed (Text.carried content) render
          (Text.lines (Text.carried content))))
        ((Rendered.code s.language (Text.carried content)).when render) := fun run' history' => by
      rw [hnewKind]
      exact .replace hg hp
    have hupTo := upTo_append hline hbefore after
    refine ⟨_, _, before, target, name, render, diff, earlier,
      r.insert name (s.changed content render (Hunk.addedLines diff)),
      s.changed content render (Hunk.addedLines diff), hload, hconverted, hupTo, hkind, ?_,
      Registry.get?_insert_self .., fun run' history' calls₁ r₁ h₁ => ?_⟩
    · rw [hupTo]
      exact (replay_concat_eq_ok_iff hrun).mpr
        ⟨[], _, (List.append_nil earlier).symm, hstep run (history ++ earlier)⟩
    · obtain ⟨rfl, hreplayNew⟩ :=
        replay_upTo_of_steps hrun hbefore hline hnew (hstep run') (hstepNew run') h₁
      refine ⟨_, hreplayNew, ?_⟩
      rw [Snippet.content_changed, ← Text.carried_eq_self_iff hreturn hpatched.ended, eq_comm,
        insert_changed_eq_iff hold hp htarget.noReturn ha, eq_comm]

/-- A diff that adds a line is written as the new content. -/
theorem replay_replaced_tidy :
    let run : Runner := fun _ call => .ok call.code
    let source := Text.ofLines
      [".. diff-doc:: start a", "    :language: sh", "    :render: True", "", "    b",
        ".. diff-doc:: diff a", "    :render: False", "", "    @@ -1 +1,2 @@", "     b", "    +c"]
    let converted :=
      (Conversion.document (Tools.standard run) [] source 6 .replace).result.toOption.getD []
    '\r' ∉ source ∧ Text.endsWithNewline source = true ∧
      (Conversion.document (Tools.standard run) [] source 6 .replace).result = .ok converted ∧
      ∃ es us name s r, Element.load source = .ok es ∧ Element.load converted = .ok us ∧
        r.get? name = some s ∧ s.content.IsTidy ∧
        replay (Tools.standard run) [] (upTo 6 es) = ⟨[], .ok r⟩ ∧
        replay (Tools.standard run) [] (upTo 6 us) = ⟨[], .ok r⟩ := by
  intro run source converted
  have hr : '\r' ∉ source := by decide +kernel
  have hs : Text.endsWithNewline source = true := by decide +kernel
  have h : (Conversion.document (Tools.standard run) [] source 6 .replace).result =
      .ok converted := by
    decide +kernel
  obtain ⟨es, us, before, target, name, render, diff, calls, r, s, hes, hus, -, -, hreplay, hget,
    hsame⟩ := replay_replaced_iff_isTidy hr hs h
  obtain ⟨r₂, hreplay₂, hiff⟩ := hsame run [] calls r hreplay
  have hes' : es = (Element.load source).toOption.getD [] := by rw [hes]; rfl
  have hus' : us = (Element.load converted).toOption.getD [] := by rw [hus]; rfl
  -- Both sources are carried out to the registry where the snippet has both lines.
  have hboth : (replay (Tools.standard run) [] (upTo 6 es)).result =
      (replay (Tools.standard run) [] (upTo 6 us)).result := by
    rw [hes', hus']
    decide +kernel
  have hcalls : (replay (Tools.standard run) [] (upTo 6 es)).calls = [] := by
    rw [hes']
    decide +kernel
  rw [hreplay, hreplay₂] at hboth
  rw [hreplay] at hcalls
  obtain rfl := Except.ok.inj hboth
  obtain rfl : calls = [] := hcalls
  exact ⟨hr, hs, h, es, us, name, s, r, hes, hus, hget, hiff.mp rfl, hreplay, hreplay₂⟩

/-- **A blank line that is lost.**  The first diff adds an empty line at the end, and the second one
goes on from it.  With the new content in place of the first diff the empty line is not there. -/
theorem replay_replaced_untidy :
    let run : Runner := fun _ call => .ok call.code
    let source := Text.ofLines
      [".. diff-doc:: start a", "    :language: sh", "    :render: True", "", "    a",
        ".. diff-doc:: diff a", "    :render: True", "", "    @@ -1 +1,2 @@", "     a", "    +",
        ".. diff-doc:: diff a", "    :render: True", "", "    @@ -2 +2,2 @@", "", "    +b"]
    let converted :=
      (Conversion.document (Tools.standard run) [] source 6 .replace).result.toOption.getD []
    let es := (Element.load source).toOption.getD []
    let us := (Element.load converted).toOption.getD []
    '\r' ∉ source ∧ Text.endsWithNewline source = true ∧
      (Conversion.document (Tools.standard run) [] source 6 .replace).result = .ok converted ∧
      Element.load source = .ok es ∧ Element.load converted = .ok us ∧
      ((replay (Tools.standard run) [] (upTo 6 es)).result.toOption.bind
        fun r => (r.get? ['a']).map Snippet.content) = some (Text.ofString "a\n\n") ∧
      ((replay (Tools.standard run) [] (upTo 6 us)).result.toOption.bind
        fun r => (r.get? ['a']).map Snippet.content) = some (Text.ofString "a\n") := by
  refine ⟨by decide +kernel, by decide +kernel, by decide +kernel, by decide +kernel,
    by decide +kernel, by decide +kernel, by decide +kernel⟩

end Literate.Conversion
