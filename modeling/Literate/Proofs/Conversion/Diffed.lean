import Literate.Proofs.Conversion.Rewriting
import Literate.Proofs.Document.Tidy
import Literate.Proofs.Patch.Carried

/-!
# A new content written as a diff

A block that is converted from the new content of its snippet to a diff is read back with the diff
that a block can carry.  That diff always applies.  The snippet is the same after the converted
block if the diff survives, and only then (`replay_diffed_iff_survives`), and then the block is what
it was when it is converted back.  A hunk may slip, whether it stands in a block or not, and one
that adds lines at the very beginning may sink (`replay_diffed_sunk`).
-/

namespace Literate.Conversion

open Compile

variable {run : Runner} {history : List Call} {line : Nat} {source converted : Text}

/-- **A diff is converted back** to the new content, if a block carries that as it is. -/
theorem exists_restored {tools : Tools} {earlier : List Call} {r : Registry} {s : Snippet}
    {before rest : List Element} {new : Element} {name diff content : Text} {render : Bool}
    (hload : Element.load converted = .ok (before ++ new :: rest)) (hline : new.line = line)
    (hbefore : ∀ e ∈ before, e.line ≠ line)
    (hreplay : replay tools history before = ⟨earlier, .ok r⟩) (hg : r.get? name = some s)
    (hp : s.pending = []) (hkind : new.kind = .diff name render diff)
    (ha : tools.patch s.content diff = .ok content) (hcontent : Text.carried content = content) :
    ∃ restored vs e,
      (Conversion.document tools history converted line .replace).result = .ok restored ∧
      Element.load restored = .ok vs ∧ upTo line vs = before ++ [e] ∧
      e.kind = .replace name render content := by
  have hback : Converts tools r new.kind .replace (.replace name render content) := by
    rw [hkind]
    exact .replace hg hp ha
  obtain ⟨restored, e, later, hdocument, hrestored, he, heKind⟩ :=
    exists_document hload hline hbefore hreplay hback
  refine ⟨restored, _, e, hdocument, hrestored, upTo_append he hbefore later, ?_⟩
  rw [heKind]
  show ElementKind.replace name render (Text.carried content) = _
  rw [hcontent]

/-- **A new content converted to a diff keeps the snippet if the diff survives, and only then.**
The source has no CR and ends with LF.  The converted source is read, and its elements up to the
block are carried out wherever those of the source are.  The registry is the same after both if the
diff between the contents survives, and only then.  If it is, the block gets its first kind back
when it is converted again. -/
theorem replay_diffed_iff_survives (hr : '\r' ∉ source)
    (hs : Text.endsWithNewline source = true) (hsize : source.length < wordBound)
    (h : (Conversion.document (Tools.standard run) history source line .diff).result =
      .ok converted) :
    ∃ es us before target name render content calls r s,
      Element.load source = .ok es ∧ Element.load converted = .ok us ∧
      upTo line es = before ++ [target] ∧ target.kind = .replace name render content ∧
      replay (Tools.standard run) history before = ⟨calls, .ok r⟩ ∧ r.get? name = some s ∧
      ∀ run' history' calls₁ r₁,
        replay (Tools.standard run') history' (upTo line es) = ⟨calls₁, .ok r₁⟩ →
        ∃ r₂, replay (Tools.standard run') history' (upTo line us) = ⟨calls₁, .ok r₂⟩ ∧
          (r₂ = r₁ ↔ Diff.Survives s.content content) ∧
          (r₂ = r₁ → ∃ restored vs e,
            (Conversion.document (Tools.standard run') history' converted line .replace).result =
              .ok restored ∧
            Element.load restored = .ok vs ∧ upTo line vs = before ++ [e] ∧
            e.kind = target.kind) := by
  obtain ⟨before, target, kind, after, earlier, r, new, rest, hload, hline, hbefore, hreplay,
    hconverts, hconverted, hnew, hnewKind⟩ := exists_of_document h
  obtain ⟨ds, hrun⟩ := replay_eq_ok_iff.mp hreplay
  have hmem : target ∈ before ++ target :: after := List.mem_append_right _ List.mem_cons_self
  have hplain := plain_of_load rfl hr (Or.inr hs) hload hrun
  have hcontent := isPlain_of_load hr (Or.inr hs) hload target hmem
  obtain ⟨name, hname, -⟩ := hconverts.name?
  have htidy := Element.isTidy_of_load hr hs hload hmem hname
  generalize hkind : target.kind = targetKind at hconverts hcontent htidy
  cases hconverts with
  | @diff name content render s hg hne =>
    obtain ⟨hold, hlen⟩ := hplain name s hg
    replace hcontent : content.IsPlain := hcontent
    replace htidy : content.IsTidy := htidy
    have hlength : (Text.lines s.content).length < wordBound :=
      Nat.lt_of_le_of_lt hlen (Nat.lt_of_le_of_lt List.count_le_length hsize)
    obtain ⟨⟨result, happly⟩, hsurvives⟩ :=
      Patch.apply_carried_unified_iff hold hcontent hne htidy hlength
    rw [happly, Except.ok.injEq] at hsurvives
    replace hnewKind : new.kind =
        .diff name render (Text.carried (Diff.unified s.content content)) := hnewKind
    have hdiff : '\r' ∉ Text.carried (Diff.unified s.content content) :=
      (Text.isPlain_carried
        (Diff.return_not_mem_unified hold.noReturn hcontent.noReturn)).noReturn
    generalize Text.carried (Diff.unified s.content content) = diff
      at happly hsurvives hnewKind hdiff
    have happly' : ∀ run', (Tools.standard run').patch s.content diff = .ok result := fun run' => by
      rw [Tools.patch_standard, happly]
    refine ⟨_, _, before, target, name, render, content, earlier, r, s, hload, hconverted,
      upTo_append hline hbefore after, hkind, hreplay, hg, fun run' history' calls₁ r₁ h₁ => ?_⟩
    have hp : s.pending = [] := by
      rw [upTo_append hline hbefore] at h₁
      obtain ⟨ds', hrun'⟩ := exists_runs_of_replay_concat hrun h₁
      obtain ⟨more, d, -, step⟩ := (replay_concat_eq_ok_iff hrun').mp h₁
      rw [hkind] at step
      cases step with
      | replace hg' hp => exact Option.some.inj (hg'.symm.trans hg) ▸ hp
    have hstep : ∀ history', Element.Step (Tools.standard run') history' r target.kind []
        (r.insert name (s.changed content render (Text.lines content)))
        ((Rendered.code s.language content).when render) := fun history' => by
      rw [hkind]
      exact .replace hg hp
    have hstepNew : ∀ history', Element.Step (Tools.standard run') history' r new.kind []
        (r.insert name (s.changed result render (Hunk.addedLines diff)))
        ((Rendered.literal diff).when render) := fun history' => by
      rw [hnewKind]
      exact .diff hg hp (happly' run')
    obtain ⟨rfl, hreplayNew⟩ :=
      replay_upTo_of_steps hrun hbefore hline hnew hstep hstepNew h₁
    have hsame : r.insert name (s.changed result render (Hunk.addedLines diff)) =
        r.insert name (s.changed content render (Text.lines content)) ↔ result = content :=
      insert_changed_eq_iff hold hp hdiff happly
    refine ⟨_, hreplayNew, hsame.trans hsurvives, fun heq => ?_⟩
    rw [upTo_append hline hbefore] at h₁
    obtain ⟨ds', hrun'⟩ := exists_runs_of_replay_concat hrun h₁
    rw [hkind]
    exact exists_restored hconverted hnew hbefore (replay_eq_ok_iff.mpr ⟨ds', hrun'⟩) hg hp hnewKind
      (by rw [happly', hsame.mp heq])
      ((Text.carried_eq_self_iff hcontent.noReturn hcontent.ended).mpr htidy)

/-- A new content with one more line is written as a diff. -/
theorem replay_diffed_survives :
    let run : Runner := fun _ call => .ok call.code
    let source := Text.ofLines
      [".. diff-doc:: start a", "    :language: sh", "    :render: True", "", "    b",
        ".. diff-doc:: replace a", "    :render: True", "", "    b", "    c"]
    let converted :=
      (Conversion.document (Tools.standard run) [] source 6 .diff).result.toOption.getD []
    '\r' ∉ source ∧ Text.endsWithNewline source = true ∧ source.length < wordBound ∧
      (Conversion.document (Tools.standard run) [] source 6 .diff).result = .ok converted ∧
      ∃ es us r, Element.load source = .ok es ∧ Element.load converted = .ok us ∧
        replay (Tools.standard run) [] (upTo 6 es) = ⟨[], .ok r⟩ ∧
        replay (Tools.standard run) [] (upTo 6 us) = ⟨[], .ok r⟩ ∧
        ∃ restored, (Conversion.document (Tools.standard run) [] converted 6 .replace).result =
          .ok restored := by
  intro run source converted
  have hr : '\r' ∉ source := by decide +kernel
  have hs : Text.endsWithNewline source = true := by decide +kernel
  have hsize : source.length < wordBound := by decide +kernel
  have h : (Conversion.document (Tools.standard run) [] source 6 .diff).result = .ok converted := by
    decide +kernel
  obtain ⟨es, us, _, _, _, _, _, _, _, _, hes, hus, -, -, -, -, hsame⟩ :=
    replay_diffed_iff_survives hr hs hsize h
  have hes' : es = (Element.load source).toOption.getD [] := by rw [hes]; rfl
  have hus' : us = (Element.load converted).toOption.getD [] := by rw [hus]; rfl
  obtain ⟨calls, result, hreplay⟩ : ∃ calls result,
      replay (Tools.standard run) [] (upTo 6 es) = ⟨calls, result⟩ := ⟨_, _, rfl⟩
  have hcalls : (replay (Tools.standard run) [] (upTo 6 es)).calls = [] := by
    rw [hes']
    decide +kernel
  have hok : (replay (Tools.standard run) [] (upTo 6 es)).result.isOk = true := by
    rw [hes']
    decide +kernel
  -- Both sources are carried out to the registry where the snippet has both lines.
  have hboth : (replay (Tools.standard run) [] (upTo 6 us)).result =
      (replay (Tools.standard run) [] (upTo 6 es)).result := by
    rw [hes', hus']
    decide +kernel
  rw [hreplay] at hcalls hok hboth
  obtain rfl : calls = [] := hcalls
  cases result with
  | error e => cases hok
  | ok r =>
    obtain ⟨r₂, hreplay₂, -, hrestored⟩ := hsame run [] [] r hreplay
    rw [hreplay₂] at hboth
    obtain rfl := Except.ok.inj hboth
    obtain ⟨restored, -, -, hdocument, -⟩ := hrestored rfl
    exact ⟨hr, hs, hsize, h, es, us, r₂, hes, hus, hreplay, hreplay₂, restored, hdocument⟩

/-- **A hunk that sinks.**  A line is added in front of three empty ones.  The block does not carry
these, and the number in the header means the place after the first of them. -/
theorem replay_diffed_sunk :
    let run : Runner := fun _ call => .ok call.code
    let source := Text.ofLines
      [".. diff-doc:: start a", "    :language: sh", "    :render: True", "", "    b",
        ".. diff-doc:: diff a", "    :render: True", "", "    @@ -1 +1,4 @@", "    +", "    +",
        "    +", "     b",
        ".. diff-doc:: replace a", "    :render: True", "", "    x", "", "", "", "    b"]
    let converted :=
      (Conversion.document (Tools.standard run) [] source 14 .diff).result.toOption.getD []
    let es := (Element.load source).toOption.getD []
    let us := (Element.load converted).toOption.getD []
    '\r' ∉ source ∧ Text.endsWithNewline source = true ∧ source.length < wordBound ∧
      (Conversion.document (Tools.standard run) [] source 14 .diff).result = .ok converted ∧
      Element.load source = .ok es ∧ Element.load converted = .ok us ∧
      ((replay (Tools.standard run) [] (upTo 14 es)).result.toOption.bind
        fun r => (r.get? ['a']).map Snippet.content) = some (Text.ofString "x\n\n\n\nb\n") ∧
      ((replay (Tools.standard run) [] (upTo 14 us)).result.toOption.bind
        fun r => (r.get? ['a']).map Snippet.content) = some (Text.ofString "\nx\n\n\nb\n") := by
  refine ⟨by decide +kernel, by decide +kernel, by decide +kernel, by decide +kernel,
    by decide +kernel, by decide +kernel, by decide +kernel, by decide +kernel⟩

end Literate.Conversion
