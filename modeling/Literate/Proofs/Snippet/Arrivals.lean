import Literate.Proofs.Snippet.Pending
import Mathlib.Data.List.Dedup
import Mathlib.Data.List.Induction
import Mathlib.Data.List.Pairwise
import Mathlib.Data.List.Sort

/-!
# The order of pending lines

A snippet is changed by new content and by showing lines, in any order and any number of times
(`Snippet.after`).  `arrivals` lists what the changes bring in, one change after the other: a line
arrives when the content comes to have it.  A line that has left and comes back arrives again, and
its last arrival counts, so `(arrivals [] changes).dedup` are the lines in the order in which they
came in.

The pending lines are those that came in and have not been shown since (`mem_pending_after_iff`).
They stand in that order, whatever the changes are (`ordered_foldl_change`), but not always in the
order of the content, since new content may put a new line before one that is still pending.
`pending_sublist_candidates_iff` says when they do.
-/

namespace Literate.Snippet

/-! ### Lists in order -/

section Lists

variable {α : Type} {as bs cs : List α} {a b : α}

/-- Two members stand in one order only, in a list without repetitions. -/
theorem eq_of_sublist_of_nodup (h : cs.Nodup) (hab : [a, b].Sublist cs)
    (hba : [b, a].Sublist cs) : a = b := by
  obtain ⟨front, rest, rfl, ha, hb⟩ := List.cons_sublist_iff.mp hab
  obtain ⟨-, -, hdisjoint⟩ := List.nodup_append.mp h
  obtain ⟨first, last, hsplit, hfirst, hlast⟩ := List.sublist_append_iff.mp hba
  cases first with
  | nil =>
    obtain rfl : [b, a] = last := hsplit
    exact absurd rfl (hdisjoint a ha a (hlast.subset (by simp)))
  | cons c first =>
    obtain ⟨rfl, -⟩ := List.cons.inj hsplit
    exact absurd rfl (hdisjoint b (hfirst.subset List.mem_cons_self) b (hb.subset (by simp)))

/-- **When members keep their order.**  Members of `bs` that stand in the order of `cs` stand in the
order of `bs` as well exactly if any two of them do. -/
theorem sublist_iff_of_sublist (hcs : cs.Nodup) (has : as.Sublist cs) (hbs : bs.Nodup)
    (hsub : as ⊆ bs) :
    as.Sublist bs ↔ ∀ a ∈ as, ∀ b ∈ as, [a, b].Sublist cs → [a, b].Sublist bs := by
  constructor
  · intro h a ha b hb hab
    have hne : a ≠ b := by
      rintro rfl
      exact List.nodup_iff_sublist.mp hcs a hab
    have htotal : as.Pairwise fun a b => [a, b].Sublist as ∨ [b, a].Sublist as :=
      List.pairwise_iff_forall_sublist.mpr Or.inl
    have : Std.Symm fun a b => [a, b].Sublist as ∨ [b, a].Sublist as := ⟨fun _ _ => Or.symm⟩
    rcases htotal.forall ha hb hne with hmem | hmem
    · exact hmem.trans h
    · exact absurd (eq_of_sublist_of_nodup hcs hab (hmem.trans has)) hne
  · intro h
    have : Std.Antisymm fun a b => [a, b].Sublist bs := ⟨fun _ _ => eq_of_sublist_of_nodup hbs⟩
    refine List.sublist_of_subperm_of_pairwise (List.subperm_of_subset (hcs.sublist has) hsub)
      (List.pairwise_iff_forall_sublist.mpr fun {a b} hab => ?_)
      (List.pairwise_iff_forall_sublist.mpr id)
    exact h a (hab.subset List.mem_cons_self) b (hab.subset (by simp)) (hab.trans has)

end Lists

/-- Lines that come in again have their place there. -/
theorem dedup_append_of_nodup {new : List Text} (h : new.Nodup) (came : List Text) :
    (came ++ new).dedup = (came.dedup.filter fun l => l ∉ new) ++ new := by
  induction came with
  | nil => exact h.dedup
  | cons l came ih =>
    rw [List.cons_append, List.dedup_cons, List.dedup_cons, ih]
    by_cases hcame : l ∈ came
    · rw [if_pos (List.mem_append_left _ hcame), if_pos hcame]
    · by_cases hnew : l ∈ new
      · rw [if_pos (List.mem_append_right _ hnew), if_neg hcame,
          List.filter_cons_of_neg (by simpa using hnew)]
      · rw [if_neg (by simp [hcame, hnew]), if_neg hcame,
          List.filter_cons_of_pos (by simpa using hnew), List.cons_append]

/-! ### Changes one after the other -/

/-- A change of a snippet: new content, or lines that are shown. -/
inductive Change where
  | replaced (content : Text)
  | shown (lines : List Text)
deriving DecidableEq, Repr

/-- The snippet after one more change. -/
def change (s : Snippet) : Change → Snippet
  | .replaced content => s.replaced content
  | .shown lines => s.shown lines

/-- A new snippet of a language after changes, the first one first. -/
def after (language : Text) (changes : List Change) : Snippet :=
  changes.foldl change (empty language)

/-- **What changes bring into a text**, one after the other: the lines that each new content
introduces. -/
def arrivals (content : Text) : List Change → List Text
  | [] => []
  | .replaced new :: changes => introduced content new ++ arrivals new changes
  | .shown _ :: changes => arrivals content changes

variable {s : Snippet} {came : List Text}

/-- No line is introduced twice. -/
theorem nodup_introduced (old new : Text) : (introduced old new).Nodup :=
  nodup_distinct _

theorem nodup_candidates (t : Text) : (candidates t).Nodup :=
  nodup_distinct _

theorem not_mem_introduced {old l : Text} (h : l ∈ candidates old) (new : Text) :
    l ∉ introduced old new :=
  fun hnew => (mem_introduced.mp hnew).2.2 (mem_candidates.mp h).1

/-- **The pending lines are in order**: they can be pending, and they stand in the order of the
lines `came`, of which the last places count. -/
structure Ordered (came : List Text) (s : Snippet) : Prop where
  sublist : s.pending.Sublist came.dedup
  subset : s.pending ⊆ candidates s.content

/-- Lines that are not there yet are put in front, each in its place. -/
theorem foldr_contains_eq_append {kept new : List Text} (hkept : kept.Nodup)
    (h : ∀ l ∈ kept, l ∉ new) :
    kept.foldr (fun l lines => if lines.contains l then lines else l :: lines) new =
      kept ++ new := by
  induction kept with
  | nil => rfl
  | cons l kept ih =>
    obtain ⟨hl, hkept'⟩ := List.nodup_cons.mp hkept
    obtain ⟨hnew, hnew'⟩ := List.forall_mem_cons.mp h
    rw [List.foldr_cons, ih hkept' hnew', if_neg (by simp [hl, hnew]), List.cons_append]

/-- **Lines that stay pending** come first, and then those that the new content introduces. -/
theorem pending_replaced (h : s.pending.Nodup) (hs : s.pending ⊆ candidates s.content)
    (content : Text) :
    (s.replaced content).pending =
      (s.pending.filter fun l => (Text.lines content).contains l) ++
        introduced s.content content := by
  refine foldr_contains_eq_append (h.filter _) fun l hl => ?_
  exact not_mem_introduced (hs (List.mem_filter.mp hl).1) content

theorem ordered_empty (language : Text) : Ordered [] (empty language) :=
  ⟨List.Sublist.refl _, List.nil_subset _⟩

/-- New content keeps the order: what it introduces has come in last. -/
theorem Ordered.replaced (h : Ordered came s) (content : Text) :
    Ordered (came ++ introduced s.content content) (s.replaced content) := by
  have hpending := pending_replaced (came.nodup_dedup.sublist h.sublist) h.subset content
  constructor
  · have hkept : (s.pending.filter fun l => (Text.lines content).contains l).Sublist came.dedup :=
      List.filter_sublist.trans h.sublist
    rw [hpending, dedup_append_of_nodup (nodup_introduced _ _)]
    refine List.Sublist.append (List.sublist_filter_iff.mpr ⟨_, hkept, ?_⟩) (List.Sublist.refl _)
    -- A line that stays pending does not come in again, so it keeps its place.
    refine (List.filter_eq_self.mpr fun l hl => ?_).symm
    exact decide_eq_true (not_mem_introduced (h.subset (List.mem_filter.mp hl).1) content)
  · intro l hl
    rw [hpending, List.mem_append, List.mem_filter, mem_introduced] at hl
    rw [content_replaced, mem_candidates]
    rcases hl with ⟨hl, hnew⟩ | ⟨hnew, hblank, -⟩
    · exact ⟨by simpa using hnew, (mem_candidates.mp (h.subset hl)).2⟩
    · exact ⟨hnew, hblank⟩

theorem Ordered.shown (h : Ordered came s) (lines : List Text) : Ordered came (s.shown lines) :=
  ⟨List.filter_sublist.trans h.sublist, List.Subset.trans (List.filter_subset_self _) h.subset⟩

/-- **Along all changes, the pending lines are in order.** -/
theorem ordered_foldl_change (h : Ordered came s) (changes : List Change) :
    Ordered (came ++ arrivals s.content changes) (changes.foldl change s) := by
  induction changes generalizing came s with
  | nil =>
    rw [arrivals, List.append_nil]
    exact h
  | cons c changes ih =>
    cases c with
    | replaced content =>
      rw [arrivals, ← List.append_assoc]
      exact ih (h.replaced content)
    | shown lines => exact ih (h.shown lines)

/-! ### Which lines are pending -/

/-- The change leaves the line pending: new content has it, or it is not among those shown. -/
def Change.Keeps (l : Text) : Change → Prop
  | .replaced content => l ∈ Text.lines content
  | .shown lines => l ∉ lines

/-- **The line came in and has not been shown since**, nor has it left the content. -/
inductive Unseen (language l : Text) : List Change → Prop
  | arrived {changes : List Change} {content : Text}
      (h : l ∈ introduced (after language changes).content content) :
      Unseen language l (changes ++ [.replaced content])
  | kept {changes : List Change} {c : Change} (h : Unseen language l changes) (hc : c.Keeps l) :
      Unseen language l (changes ++ [c])

theorem after_concat (language : Text) (changes : List Change) (c : Change) :
    after language (changes ++ [c]) = (after language changes).change c := by
  rw [after, List.foldl_append]
  rfl

theorem ordered_after (language : Text) (changes : List Change) :
    Ordered (arrivals [] changes) (after language changes) :=
  ordered_foldl_change (ordered_empty language) changes

theorem mem_pending_after_replaced {language l : Text} {changes : List Change} {content : Text} :
    l ∈ (after language (changes ++ [.replaced content])).pending ↔
      l ∈ (after language changes).pending ∧ l ∈ Text.lines content ∨
        l ∈ introduced (after language changes).content content := by
  have h := ordered_after language changes
  rw [after_concat, change, pending_replaced ((List.nodup_dedup _).sublist h.sublist) h.subset,
    List.mem_append, List.mem_filter, List.contains_iff_mem]

theorem mem_pending_after_shown {language l : Text} {changes : List Change} {lines : List Text} :
    l ∈ (after language (changes ++ [.shown lines])).pending ↔
      l ∈ (after language changes).pending ∧ l ∉ lines := by
  rw [after_concat, change, pending_shown, List.mem_filter, Bool.not_eq_true',
    List.contains_eq_mem, decide_eq_false_iff_not]

/-- **Along all changes, the pending lines are those that came in and have not been shown.** -/
theorem mem_pending_after_iff {language l : Text} {changes : List Change} :
    l ∈ (after language changes).pending ↔ Unseen language l changes := by
  constructor
  · intro h
    induction changes using List.reverseRecOn with
    | nil => cases h
    | append_singleton changes c ih =>
      cases c with
      | replaced content =>
        rcases mem_pending_after_replaced.mp h with ⟨hl, hcontent⟩ | hnew
        · exact .kept (ih hl) hcontent
        · exact .arrived hnew
      | shown lines =>
        obtain ⟨hl, hlines⟩ := mem_pending_after_shown.mp h
        exact .kept (ih hl) hlines
  · intro h
    induction h with
    | arrived hnew => exact mem_pending_after_replaced.mpr (Or.inr hnew)
    | @kept changes c _ hc ih =>
      cases c with
      | replaced content => exact mem_pending_after_replaced.mpr (Or.inl ⟨ih, hc⟩)
      | shown lines => exact mem_pending_after_shown.mpr ⟨ih, hc⟩

/-- **When pending lines stand in the order of the content**: exactly if any two of them stand there
in the order in which they came in.  In any case they are the lines that came in and have not been
shown since; they are lines of the content, blank ones apart, and stand, each once, in the order in
which they came in. -/
theorem pending_sublist_candidates_iff (language : Text) (changes : List Change) :
    let s := after language changes
    let came := (arrivals [] changes).dedup
    (∀ l, l ∈ s.pending ↔ Unseen language l changes) ∧
      s.pending ⊆ candidates s.content ∧ s.pending.Sublist came ∧
      (s.pending.Sublist (candidates s.content) ↔
        ∀ l ∈ s.pending, ∀ m ∈ s.pending, [l, m].Sublist came →
          [l, m].Sublist (candidates s.content)) := by
  intro s came
  obtain ⟨hcame, hsub⟩ := ordered_after language changes
  exact ⟨fun l => mem_pending_after_iff, hsub, hcame,
    sublist_iff_of_sublist (List.nodup_dedup _) hcame (nodup_candidates _) hsub⟩

/-- A new line is put before one that is pending, and the pending one stays the first. -/
theorem pending_not_sublist_candidates :
    let s := after (Text.ofString "sh")
      [.replaced (Text.ofString "a\n"), .replaced (Text.ofString "b\na\n")]
    s.pending = [['a'], ['b']] ∧ candidates s.content = [['b'], ['a']] ∧
      ¬ s.pending.Sublist (candidates s.content) := by
  decide

end Literate.Snippet
