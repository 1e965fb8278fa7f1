import Literate.Proofs.Compile.Runs
import Literate.Proofs.Document.Contents
import Literate.Proofs.Patch.Added

/-!
# Snippets with plain contents

The elements of a source without CR that is empty or ends with LF have plain contents, and so have
the snippets along every run of them, whatever is run (`plain_of_load`).  No content has more lines
than the source.
-/

namespace Literate

theorem Text.IsClosed.isPlain {t : Text} (h : t.IsClosed) (hr : '\r' ∉ t) : t.IsPlain := by
  refine ⟨hr, h.imp_right And.left, ?_⟩
  rintro rfl
  rcases h with h | ⟨-, h⟩
  · cases h
  · exact absurd h (by decide)

/-- The snippets have plain contents of at most `bound` lines. -/
def Registry.Plain (r : Registry) (bound : Nat) : Prop :=
  ∀ name s, r.get? name = some s → s.content.IsPlain ∧ (Text.lines s.content).length ≤ bound

theorem Registry.Plain.insert {r : Registry} {bound bound' : Nat} (h : r.Plain bound)
    (hle : bound ≤ bound') {s : Snippet} (name : Text)
    (hs : s.content.IsPlain ∧ (Text.lines s.content).length ≤ bound') :
    (r.insert name s).Plain bound' := by
  intro other t ht
  rw [Registry.get?_insert] at ht
  split at ht
  · obtain rfl := Option.some.inj ht
    exact hs
  · exact (h other t ht).imp_right fun hl => Nat.le_trans hl hle

namespace Compile

variable {tools : Tools} {history calls : List Call} {r r' : Registry} {es : List Element}
  {ds : List Rendered} {d : Rendered}

/-- **A step keeps contents plain**, if the content of the element is. -/
theorem plain_step {kind : ElementKind} {bound : Nat} (ht : tools.patch = Patch.apply)
    (h : r.Plain bound) (hk : kind.content.IsPlain)
    (step : Element.Step tools history r kind calls r' d) :
    r'.Plain (bound + (Text.lines kind.content).length) := by
  have hle := Nat.le_add_right bound (Text.lines kind.content).length
  have hsame : r.Plain (bound + (Text.lines kind.content).length) := fun name s hs =>
    (h name s hs).imp_right fun hl => Nat.le_trans hl hle
  cases step with
  | prose text => exact hsame
  | output hg hp hc => exact hsame
  | start hnone =>
    refine h.insert hle _ ?_
    rw [Snippet.content_changed]
    exact ⟨hk, Nat.le_add_left _ _⟩
  | replace hg hp =>
    refine h.insert hle _ ?_
    rw [Snippet.content_changed]
    exact ⟨hk, Nat.le_add_left _ _⟩
  | excerpt hg hu =>
    refine h.insert hle _ ?_
    rw [Snippet.content_shown]
    exact hsame _ _ hg
  | diff hg hp ha =>
    refine h.insert hle _ ?_
    obtain ⟨hplain, hl⟩ := h _ _ hg
    rw [ht] at ha
    have hr := Patch.return_not_mem_of_apply hplain.noReturn hk.noReturn ha
    obtain ⟨hpatched, -, hlen⟩ := Patch.isPlain_of_apply hplain.ended hr ha
    rw [Snippet.content_changed]
    exact ⟨hpatched, Nat.le_trans hlen (Nat.add_le_add_right hl _)⟩

/-- **Along every run, contents are plain**, and no longer than those of the elements together. -/
theorem Runs.plain (run : Runs tools history .empty es calls r ds) (ht : tools.patch = Patch.apply)
    (hes : ∀ e ∈ es, e.kind.content.IsPlain) :
    r.Plain (Text.newlineCount (Element.contents es)) := by
  induction run with
  | nil => exact fun name s hs => nomatch hs
  | @snoc es _ _ _ _ _ e _ run step ih =>
    have he := hes e (List.mem_append_right _ List.mem_cons_self)
    have hcount : Text.newlineCount (Element.contents (es ++ [e])) =
        Text.newlineCount (Element.contents es) + (Text.lines e.kind.content).length := by
      rw [Text.length_lines he.ended]
      simp [Element.contents, Text.newlineCount]
    rw [hcount]
    exact plain_step ht (ih fun u hu => hes u (List.mem_append_left _ hu)) he step

/-! ### Documents -/

variable {source : Text}

/-- The elements of a source have plain contents. -/
theorem isPlain_of_load (hr : '\r' ∉ source)
    (hs : source = [] ∨ Text.endsWithNewline source = true) (h : Element.load source = .ok es) :
    ∀ e ∈ es, e.kind.content.IsPlain := by
  intro e he
  refine (Element.closed_load hs h e he).isPlain fun hm => hr ((Element.sublist_load h).subset ?_)
  exact List.mem_flatten.mpr ⟨_, List.mem_map_of_mem he, hm⟩

/-- **Snippets of a document have plain contents**, not longer than the source, wherever a run of
its elements stops. -/
theorem plain_of_load {before after : List Element} (ht : tools.patch = Patch.apply)
    (hr : '\r' ∉ source) (hs : source = [] ∨ Text.endsWithNewline source = true)
    (h : Element.load source = .ok (before ++ after))
    (run : Runs tools history .empty before calls r ds) :
    r.Plain (Text.newlineCount source) := by
  have hplain := run.plain ht fun e he => isPlain_of_load hr hs h e (List.mem_append_left _ he)
  have hsub : (Element.contents before).Sublist source := by
    refine List.Sublist.trans ?_ (Element.sublist_load h)
    rw [Element.contents, Element.contents, List.map_append, List.flatten_append]
    exact List.sublist_append_left _ _
  exact fun name s hn => (hplain name s hn).imp_right fun hl =>
    Nat.le_trans hl (hsub.count_le '\n')

end Compile

end Literate
