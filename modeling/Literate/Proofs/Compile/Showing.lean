import Literate.Patch.Apply
import Literate.Proofs.Compile.Meaning

/-!
# Showing more

A document of which the reader gets to see more.  Elements that were not rendered are, and excerpts
are put in that show lines of a snippet: `ShowsMore`.

A snippet then has the same language and content, and no line is pending that was not before
(`Registry.Covers`).  A step keeps that (`Registry.Covers.exists_step`), since what is asked of
pending lines is that there are none.  So the document compiles if it did, runs the same code, and
looks the same where it was left alone: `compiles_of_showsMore`.
-/

namespace Literate

/-- The kind, rendered if it was or if `more` is true.  Prose and excerpts always are. -/
def ElementKind.reveal (more : Bool) : ElementKind → ElementKind
  | .prose text => .prose text
  | .start name language render content => .start name language (render || more) content
  | .replace name render content => .replace name (render || more) content
  | .diff name render content => .diff name (render || more) content
  | .excerpt name content => .excerpt name content
  | .output name render content => .output name (render || more) content

@[simp] theorem ElementKind.reveal_false (kind : ElementKind) : kind.reveal false = kind := by
  cases kind <;> simp [reveal]

/-! ### Snippets shown as far -/

/-- The snippet `t` is the snippet `s`, but for lines that are pending in `s` only. -/
structure Snippet.Covers (s t : Snippet) : Prop where
  language_eq : t.language = s.language
  content_eq : t.content = s.content
  pending_subset : t.pending ⊆ s.pending

namespace Snippet.Covers

variable {s t : Snippet} {lines : List Text}

theorem refl (s : Snippet) : s.Covers s :=
  ⟨rfl, rfl, List.Subset.refl _⟩

theorem pending_eq_nil (h : s.Covers t) (hp : s.pending = []) : t.pending = [] :=
  List.subset_nil.mp (hp ▸ h.pending_subset)

theorem shown (h : s.Covers t) (lines : List Text) : (s.shown lines).Covers (t.shown lines) := by
  refine ⟨h.language_eq, h.content_eq, fun l hl => ?_⟩
  rw [pending_shown, List.mem_filter] at hl ⊢
  exact hl.imp_left fun hm => h.pending_subset hm

theorem shown_right (h : s.Covers t) (lines : List Text) : s.Covers (t.shown lines) := by
  refine ⟨h.language_eq, h.content_eq, fun l hl => ?_⟩
  rw [pending_shown] at hl
  exact h.pending_subset (List.mem_filter.mp hl).1

/-- A change that is rendered leaves no more lines pending than one that is not. -/
theorem changed (h : s.Covers t) (hp : s.pending = []) (content : Text) (render more : Bool)
    (lines : List Text) :
    (s.changed content render lines).Covers (t.changed content (render || more) lines) := by
  refine ⟨by simp [h.language_eq], by simp, fun l hl => ?_⟩
  rw [pending_changed (h.pending_eq_nil hp), h.content_eq, List.mem_filter] at hl
  rw [pending_changed hp, List.mem_filter]
  refine hl.imp_right fun hshown => ?_
  cases render
  · rfl
  · exact hshown

end Snippet.Covers

/-- The registries have the same snippets, but for lines that are pending in `r` only. -/
def Registry.Covers (r r' : Registry) : Prop :=
  ∀ name, Option.Rel Snippet.Covers (r.get? name) (r'.get? name)

namespace Registry.Covers

variable {tools : Tools} {history calls : List Call} {r r' r₁ : Registry} {name : Text}
  {s t : Snippet} {d : Rendered}

theorem empty : Registry.empty.Covers Registry.empty := fun _ => .none

theorem exists_get? (h : r.Covers r') (hs : r.get? name = some s) :
    ∃ t, r'.get? name = some t ∧ s.Covers t := by
  have hrel := h name
  rw [hs] at hrel
  generalize r'.get? name = o at hrel
  cases hrel with
  | some hst => exact ⟨_, rfl, hst⟩

theorem get?_eq_none (h : r.Covers r') (hn : r.get? name = none) : r'.get? name = none := by
  have hrel := h name
  rw [hn] at hrel
  generalize r'.get? name = o at hrel
  cases hrel
  rfl

theorem insert (h : r.Covers r') (hst : s.Covers t) (name : Text) :
    (r.insert name s).Covers (r'.insert name t) := by
  intro other
  rw [get?_insert, get?_insert]
  split
  · exact .some hst
  · exact h other

/-- A snippet of the second registry alone is shown further. -/
theorem insert_right (h : r.Covers r') (hs : r.get? name = some s) (hst : s.Covers t) :
    r.Covers (r'.insert name t) := by
  intro other
  rw [get?_insert]
  split
  · next heq =>
    rw [← heq, hs]
    exact .some hst
  · exact h other

/-- **A step goes the same way where more has been shown**, and where it shows more itself.  It runs
the same code, and if it is the same step it looks the same. -/
theorem exists_step (h : r.Covers r') {kind : ElementKind}
    (step : Element.Step tools history r kind calls r₁ d) (more : Bool) :
    ∃ r₁' d', Element.Step tools history r' (kind.reveal more) calls r₁' d' ∧ r₁.Covers r₁' ∧
      (kind.reveal more = kind → d' = d) := by
  cases step with
  | prose text => exact ⟨r', _, .prose text, h, fun _ => rfl⟩
  | start hn =>
    exact ⟨_, _, .start (h.get?_eq_none hn), h.insert ((Snippet.Covers.refl _).changed rfl ..) _,
      fun he => congrArg (Rendered.when · _) (ElementKind.start.inj he).2.2.1⟩
  | replace hs hp =>
    obtain ⟨t, ht, hst⟩ := h.exists_get? hs
    rw [← hst.language_eq]
    exact ⟨_, _, .replace ht (hst.pending_eq_nil hp), h.insert (hst.changed hp ..) _,
      fun he => congrArg (Rendered.when · _) (ElementKind.replace.inj he).2.1⟩
  | diff hs hp ha =>
    obtain ⟨t, ht, hst⟩ := h.exists_get? hs
    rw [← hst.content_eq] at ha
    exact ⟨_, _, .diff ht (hst.pending_eq_nil hp) ha, h.insert (hst.changed hp ..) _,
      fun he => congrArg (Rendered.when · _) (ElementKind.diff.inj he).2.1⟩
  | excerpt hs hu =>
    obtain ⟨t, ht, hst⟩ := h.exists_get? hs
    rw [← hst.content_eq] at hu
    rw [← hst.language_eq]
    exact ⟨_, _, .excerpt ht hu, h.insert (hst.shown _) _, fun _ => rfl⟩
  | output hs hp hc =>
    obtain ⟨t, ht, hst⟩ := h.exists_get? hs
    rw [← hst.language_eq, ← hst.content_eq] at hc ⊢
    exact ⟨_, _, .output ht (hst.pending_eq_nil hp) hc, h,
      fun he => congrArg (Rendered.when · _) (ElementKind.output.inj he).2.1⟩

/-- **An excerpt of lines that the snippet has** changes nothing but what is pending. -/
theorem exists_step_excerpt (tools : Tools) (history : List Call) (h : r.Covers r')
    (hs : r.get? name = some s) {content : Text}
    (hl : ∀ l ∈ Text.lines content, Text.isBlank l = false → l ∈ Text.lines s.content) :
    ∃ r₁' d', Element.Step tools history r' (.excerpt name content) [] r₁' d' ∧ r.Covers r₁' := by
  obtain ⟨t, ht, hst⟩ := h.exists_get? hs
  rw [← hst.content_eq, ← Snippet.firstUnknown?_eq_none_iff] at hl
  exact ⟨_, _, .excerpt ht hl, h.insert_right hs (hst.shown_right _)⟩

end Registry.Covers

namespace Compile

variable {tools : Tools} {history calls : List Call} {r : Registry} {ds : List Rendered}

/-! ### Revised documents -/

/-- An element of a revised document. -/
inductive Revision where
  /-- An element that was there.  It is rendered if it was or if `more` is true. -/
  | given (e : Element) (more : Bool)
  /-- An element that was not there. -/
  | added (e : Element)

/-- The element before the revision. -/
def Revision.old? : Revision → Option Element
  | given e _ => some e
  | added _ => none

/-- The element after the revision. -/
def Revision.new : Revision → Element
  | given e more => { e with kind := e.kind.reveal more }
  | added e => e

/-- The document before the revision. -/
def olds (revisions : List Revision) : List Element :=
  revisions.filterMap Revision.old?

/-- The document after the revision. -/
def news (revisions : List Revision) : List Element :=
  revisions.map Revision.new

/-- **More is shown after the revision.**  What is added are excerpts of snippets that have been
started, of lines that the snippet has at that place. -/
inductive ShowsMore (tools : Tools) (history : List Call) : List Revision → Prop
  | nil : ShowsMore tools history []
  | given {revisions : List Revision} (h : ShowsMore tools history revisions) (e : Element)
      (more : Bool) : ShowsMore tools history (revisions ++ [.given e more])
  | added {revisions : List Revision} {e : Element} {name content : Text} {calls : List Call}
      {r : Registry} {ds : List Rendered} {s : Snippet} (h : ShowsMore tools history revisions)
      (hk : e.kind = .excerpt name content)
      (run : Runs tools history .empty (olds revisions) calls r ds) (hs : r.get? name = some s)
      (hl : ∀ l ∈ Text.lines content, Text.isBlank l = false → l ∈ Text.lines s.content) :
      ShowsMore tools history (revisions ++ [.added e])

/-- Elements that were there and are not changed look the same in `ds` and `ds'`. -/
def SameLooks (revisions : List Revision) (ds ds' : List Rendered) : Prop :=
  ∀ i e more, revisions[i]? = some (.given e more) → e.kind.reveal more = e.kind →
    ∃ d, ds[(olds (revisions.take i)).length]? = some d ∧ ds'[i]? = some d

variable {revisions : List Revision} {ds' : List Rendered}

theorem SameLooks.snoc {revision : Revision} (h : SameLooks revisions ds ds')
    (hlen : revisions.length = ds'.length) (hlen' : (olds revisions).length = ds.length)
    (more : List Rendered) (d' : Rendered)
    (hlast : ∀ e b, revision = .given e b → e.kind.reveal b = e.kind → more = [d']) :
    SameLooks (revisions ++ [revision]) (ds ++ more) (ds' ++ [d']) := by
  intro i e b hi he
  rcases Nat.lt_trichotomy i revisions.length with hlt | rfl | hgt
  · rw [List.getElem?_append_left hlt] at hi
    obtain ⟨d, hd, hd'⟩ := h i e b hi he
    refine ⟨d, ?_, ?_⟩
    · rw [List.take_append_of_le_length (Nat.le_of_lt hlt),
        List.getElem?_append_left (List.getElem?_eq_some_iff.mp hd).1, hd]
    · rw [List.getElem?_append_left (hlen ▸ hlt), hd']
  · rw [List.getElem?_concat_length] at hi
    rw [hlast e b (Option.some.inj hi) he, List.take_left, hlen', hlen]
    exact ⟨d', List.getElem?_concat_length, List.getElem?_concat_length⟩
  · rw [List.getElem?_eq_none (by rw [List.length_append]; exact hgt)] at hi
    cases hi

theorem olds_given (revisions : List Revision) (e : Element) (more : Bool) :
    olds (revisions ++ [.given e more]) = olds revisions ++ [e] := by
  rw [olds, List.filterMap_append]
  rfl

theorem olds_added (revisions : List Revision) (e : Element) :
    olds (revisions ++ [.added e]) = olds revisions := by
  rw [olds, List.filterMap_append]
  exact List.append_nil _

theorem news_snoc (revisions : List Revision) (revision : Revision) :
    news (revisions ++ [revision]) = news revisions ++ [revision.new] :=
  List.map_append

/-- **A run of the document is followed by one of the revised document.** -/
theorem ShowsMore.exists_runs (h : ShowsMore tools history revisions)
    (run : Runs tools history .empty (olds revisions) calls r ds) :
    ∃ r' ds', Runs tools history .empty (news revisions) calls r' ds' ∧ r.Covers r' ∧
      SameLooks revisions ds ds' := by
  induction h generalizing calls r ds with
  | nil =>
    have hnil : Runs tools history .empty [] [] .empty [] := .nil
    obtain ⟨rfl, rfl, rfl⟩ := run.unique rfl hnil
    exact ⟨_, _, .nil, .empty, fun i e more hi => nomatch hi⟩
  | @given revisions h e more ih =>
    rw [olds_given] at run
    obtain ⟨calls₁, r₁, ds₁, later, d, rfl, rfl, run₁, step⟩ := run.exists_of_concat
    obtain ⟨r₁', ds₁', run₁', hcovers, hlooks⟩ := ih run₁
    obtain ⟨r', d', step', hcovers', hd⟩ := hcovers.exists_step step more
    rw [news_snoc]
    have hlen : revisions.length = ds₁'.length := by rw [← run₁'.length_eq, news, List.length_map]
    refine ⟨r', ds₁' ++ [d'], run₁'.snoc step', hcovers', ?_⟩
    refine hlooks.snoc hlen run₁.length_eq [d] d' fun u b hu hkind => ?_
    obtain ⟨rfl, rfl⟩ := Revision.given.inj hu
    rw [hd hkind]
  | @added revisions e name content _ _ _ s h hk run₀ hs hl ih =>
    rw [olds_added] at run
    obtain ⟨-, rfl, -⟩ := run.unique rfl run₀
    obtain ⟨r₁', ds₁', run₁', hcovers, hlooks⟩ := ih run
    obtain ⟨r', d', step', hcovers'⟩ := hcovers.exists_step_excerpt tools (history ++ calls) hs hl
    rw [← hk] at step'
    rw [news_snoc]
    have hlen : revisions.length = ds₁'.length := by rw [← run₁'.length_eq, news, List.length_map]
    have run' := run₁'.snoc step'
    rw [List.append_nil] at run'
    refine ⟨r', ds₁' ++ [d'], run', hcovers', ?_⟩
    have hlooks' : SameLooks (revisions ++ [.added e]) (ds ++ []) (ds₁' ++ [d']) :=
      hlooks.snoc hlen run.length_eq [] d' fun u b hu => nomatch hu
    rwa [List.append_nil] at hlooks'

/-- **Showing more never breaks a document.**  If the elements compile, they compile with more of
them rendered and with excerpts put in; the same code is run, and an element that is not changed
looks the same. -/
theorem compiles_of_showsMore (h : ShowsMore tools history revisions)
    (hds : (elements tools history (olds revisions)).result = .ok ds) :
    ∃ ds', (elements tools history (news revisions)).result = .ok ds' ∧
      (elements tools history (news revisions)).calls =
        (elements tools history (olds revisions)).calls ∧
      ds'.length = revisions.length ∧
      ∀ i e more, revisions[i]? = some (.given e more) → e.kind.reveal more = e.kind →
        ∃ d, ds[(olds (revisions.take i)).length]? = some d ∧ ds'[i]? = some d := by
  obtain ⟨r, hrun⟩ := result_elements_eq_ok_iff.mp hds
  generalize hcalls : (runFrom tools history .empty (olds revisions)).calls = calls
  have run : Runs tools history .empty (olds revisions) calls r ds := by
    rw [← runFrom_eq_ok_iff, ← hcalls, ← hrun]
  obtain ⟨r', ds', run', -, hlooks⟩ := h.exists_runs run
  have hrun' := run'.runFrom_eq
  refine ⟨ds', result_elements_eq_ok_iff.mpr ⟨r', by rw [hrun']⟩, ?_, ?_, hlooks⟩
  · rw [calls_elements, calls_elements, hcalls, hrun']
  · rw [← run'.length_eq, news, List.length_map]

/-- A hidden snippet that is shown by an excerpt is shown from the beginning, and once more in
between. -/
theorem compiles_of_showsMore_hidden :
    let tools : Tools := ⟨fun _ _ => .ok (Text.ofString "3"), Patch.apply, fun _ _ => []⟩
    let content := Text.ofString "b\nc\n"
    let hidden : Element := ⟨1, ⟨0, 1⟩, .start ['a'] ['s', 'h'] false content⟩
    let again : Element := ⟨2, ⟨1, 2⟩, .excerpt ['a'] ['c']⟩
    let excerpt : Element := ⟨3, ⟨2, 3⟩, .excerpt ['a'] content⟩
    let output : Element := ⟨4, ⟨3, 4⟩, .output ['a'] false ['3']⟩
    let revisions : List Revision :=
      [.given hidden true, .added again, .given excerpt false, .given output true]
    ShowsMore tools [] revisions ∧
      (elements tools [] [hidden, excerpt, output]).result =
        .ok [.nothing, .code ['s', 'h'] content, .nothing] ∧
      ∃ ds, (elements tools [] (news revisions)).result = .ok ds ∧
        ds[2]? = some (.code ['s', 'h'] content) := by
  intro tools content hidden again excerpt output revisions
  have hnil : ShowsMore tools [] [] := .nil
  have hfirst : Runs tools [] .empty [hidden] _ _ _ := .snoc .nil (.start rfl)
  have hadded : ShowsMore tools [] [.given hidden true, .added again] :=
    .added (hnil.given hidden true) rfl hfirst (Registry.get?_insert_self ..) (by decide)
  have h : ShowsMore tools [] revisions := (hadded.given excerpt false).given output true
  have hds : (elements tools [] (olds revisions)).result =
      .ok [.nothing, .code ['s', 'h'] content, .nothing] := by decide +kernel
  obtain ⟨ds, hnews, -, -, hlooks⟩ := compiles_of_showsMore h hds
  obtain ⟨d, hd, hd'⟩ := hlooks 2 excerpt false rfl (ElementKind.reveal_false _)
  obtain rfl := Option.some.inj hd
  exact ⟨h, hds, ds, hnews, hd'⟩

end Compile

end Literate
