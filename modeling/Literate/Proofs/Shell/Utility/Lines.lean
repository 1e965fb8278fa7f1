import Literate.Shell.Utility.Lines
import Mathlib.Data.Char
import Mathlib.Data.List.Lex
import Mathlib.Data.List.SplitBy
import Mathlib.Data.Prod.Lex

/-!
# Lines in their order

What `sort` looks at of a line has a rank in a linear order (`exists_rank`), so lines can be put in
order.  `sort` shows the lines that it has been given (`sortedLines_perm`), none of them before one
that should precede it (`pairwise_sortedLines`); if only one of those that look the same is to stay,
each line is still stood for (`exists_mem_sortedLines`) and the lines rise
(`pairwise_sortedLines_of_unique`).  `uniq` keeps what is put together looking the same, and no two
lines that it shows one after the other look the same (`isChain_lineGroups`).
-/

namespace Literate.Shell.Utility

/-! ### Groups -/

section Groups

variable {α κ : Type} [BEq κ] [LawfulBEq κ] {key : α → κ} {xs : List α}

/-- The members of a group look the same. -/
theorem key_eq_of_mem_splitBy {group : List α} {a b : α}
    (hgroup : group ∈ xs.splitBy fun a b => key a == key b) (ha : a ∈ group) (hb : b ∈ group) :
    key a = key b := by
  have hchain : (group.map key).IsChain (· = ·) := by
    refine (List.isChain_map key).mpr ((List.isChain_of_mem_splitBy hgroup).imp ?_)
    exact fun _ _ h => beq_iff_eq.mp h
  exact (List.isChain_iff_pairwise.mp hchain).forall_of_forall (fun _ _ => rfl)
    (List.mem_map_of_mem ha) (List.mem_map_of_mem hb)

theorem heads_sublist_flatten (groups : List (List α)) :
    (groups.filterMap List.head?).Sublist groups.flatten := by
  induction groups with
  | nil => exact List.Sublist.refl _
  | cons group groups ih =>
    cases group with
    | nil => exact ih
    | cons a group =>
      exact (ih.trans (List.sublist_append_right group groups.flatten)).cons_cons a

/-- The first members of two groups that follow one another do not look the same. -/
theorem isChain_heads_splitBy :
    ((xs.splitBy fun a b => key a == key b).filterMap List.head?).IsChain
      fun a b => key a ≠ key b := by
  have hsame (group : List α) (h : group ∈ xs.splitBy fun a b => key a == key b) :
      group ≠ [] ∧ ∀ a ∈ group, ∀ b ∈ group, key a = key b :=
    ⟨List.ne_nil_of_mem_splitBy h, fun a ha b hb => key_eq_of_mem_splitBy h ha hb⟩
  have hchain := List.isChain_getLast_head_splitBy (fun a b => key a == key b) xs
  generalize (xs.splitBy fun a b => key a == key b) = groups at hsame hchain
  induction groups with
  | nil => exact List.isChain_nil
  | cons group groups ih =>
    obtain ⟨hne, hgroup⟩ := hsame group List.mem_cons_self
    have hrest := ih (fun g hg => hsame g (List.mem_cons_of_mem _ hg)) hchain.tail
    obtain ⟨a, members, rfl⟩ := List.exists_cons_of_ne_nil hne
    cases groups with
    | nil => exact List.isChain_singleton a
    | cons next groups =>
      obtain ⟨b, members', rfl⟩ :=
        List.exists_cons_of_ne_nil (hsame next (List.mem_cons_of_mem _ List.mem_cons_self)).1
      obtain ⟨_, _, hdiffer⟩ := (List.isChain_cons_cons.mp hchain).1
      refine List.isChain_cons_cons.mpr ⟨fun heq => ?_, hrest⟩
      have hlast := hgroup a List.mem_cons_self _ (List.getLast_mem hne)
      exact absurd (hlast.symm.trans heq) (beq_eq_false_iff_ne.mp hdiffer)

end Groups

/-! ### Sorting -/

variable {given : List (Char × Octets)} {t : Octets}

/-- **What is looked at of a line has a rank.** -/
theorem exists_rank (given : List (Char × Octets)) :
    ∃ (κ : Type) (_ : LinearOrder κ) (rank : Octets → κ),
      ∀ a b, sortsBefore given a b = true ↔ rank a < rank b := by
  cases hn : hasOption given 'n' with
  | true =>
    cases hr : hasOption given 'r' with
    | true =>
      refine ⟨Intᵒᵈ, inferInstance,
        fun line => OrderDual.toDual (leadingNumber (sortKey given line)), fun a b => ?_⟩
      simp [sortsBefore, hn, hr]
    | false =>
      refine ⟨Int, inferInstance, fun line => leadingNumber (sortKey given line), fun a b => ?_⟩
      simp [sortsBefore, hn, hr]
  | false =>
    cases hr : hasOption given 'r' with
    | true =>
      refine ⟨(List Char)ᵒᵈ, inferInstance, fun line => OrderDual.toDual (sortKey given line),
        fun a b => ?_⟩
      simp [sortsBefore, hn, hr]
    | false =>
      refine ⟨List Char, inferInstance, sortKey given, fun a b => ?_⟩
      simp [sortsBefore, hn, hr]

/-- Lines of which the same is looked at are in their order as they stand. -/
def Ties (given : List (Char × Octets)) (a b : Octets) : Prop :=
  hasOption given 'u' = true ∨ if hasOption given 'r' = true then ¬a < b else ¬b < a

theorem Ties.trans {a b c : Octets} (hab : Ties given a b) (hbc : Ties given b c) :
    Ties given a c := by
  unfold Ties at *
  cases hu : hasOption given 'u' with
  | true => exact .inl rfl
  | false =>
    refine .inr ?_
    have hab := hab.resolve_left (by simp [hu])
    have hbc := hbc.resolve_left (by simp [hu])
    split
    · rename_i hr
      rw [if_pos hr] at hab hbc
      exact not_lt.mpr ((not_lt.mp hbc).trans (not_lt.mp hab))
    · rename_i hr
      rw [if_neg hr] at hab hbc
      exact not_lt.mpr ((not_lt.mp hab).trans (not_lt.mp hbc))

theorem ties_total (given : List (Char × Octets)) (a b : Octets) :
    Ties given a b ∨ Ties given b a := by
  unfold Ties
  split
  · rcases lt_or_ge a b with h | h
    · exact .inr (.inr h.asymm)
    · exact .inl (.inr (not_lt.mpr h))
  · rcases lt_or_ge a b with h | h
    · exact .inl (.inr h.asymm)
    · exact .inr (.inr (not_lt.mpr h))

section Rank

variable {κ : Type} [LinearOrder κ] {rank : Octets → κ}
  (hrank : ∀ a b, sortsBefore given a b = true ↔ rank a < rank b)

include hrank

theorem sortsNotAfter_iff {a b : Octets} :
    sortsNotAfter given a b = true ↔ rank a < rank b ∨ rank a = rank b ∧ Ties given a b := by
  unfold sortsNotAfter Ties
  split
  · rename_i h
    exact iff_of_true rfl (.inl ((hrank a b).mp h))
  · rename_i h
    have hle := not_lt.mp (mt (hrank a b).mpr h)
    split
    · rename_i h'
      have hlt := (hrank b a).mp h'
      refine iff_of_false Bool.false_ne_true ?_
      rintro (h | h)
      · exact absurd h hlt.asymm
      · exact absurd h.1 hlt.ne'
    · rename_i h'
      have heq := le_antisymm (not_lt.mp (mt (hrank b a).mpr h')) hle
      simp only [heq, lt_irrefl, false_or, true_and]
      split
      · rename_i hu
        exact iff_of_true rfl (.inl hu)
      · rename_i hu
        split
        · simp [hu]
        · simp [hu]

theorem sortsNotAfter_trans {a b c : Octets} (hab : sortsNotAfter given a b = true)
    (hbc : sortsNotAfter given b c = true) : sortsNotAfter given a c = true := by
  rw [sortsNotAfter_iff hrank] at *
  rcases hab with hab | ⟨hab, htie⟩
  · rcases hbc with hbc | ⟨hbc, -⟩
    · exact .inl (hab.trans hbc)
    · exact .inl (hbc ▸ hab)
  · rcases hbc with hbc | ⟨hbc, htie'⟩
    · exact .inl (hab ▸ hbc)
    · exact .inr ⟨hab.trans hbc, htie.trans htie'⟩

theorem sortsNotAfter_total (a b : Octets) :
    (sortsNotAfter given a b || sortsNotAfter given b a) = true := by
  rw [Bool.or_eq_true, sortsNotAfter_iff hrank, sortsNotAfter_iff hrank]
  rcases lt_trichotomy (rank a) (rank b) with h | h | h
  · exact .inl (.inl h)
  · exact (ties_total given a b).imp (fun ht => .inr ⟨h, ht⟩) fun ht => .inr ⟨h.symm, ht⟩
  · exact .inr (.inl h)

theorem pairwise_mergeSort_rank (lines : List Octets) :
    (lines.mergeSort (sortsNotAfter given)).Pairwise fun a b => rank a ≤ rank b := by
  have hsorted := @List.pairwise_mergeSort _ (sortsNotAfter given)
    (fun _ _ _ => sortsNotAfter_trans hrank) (sortsNotAfter_total hrank) lines
  refine hsorted.imp fun h => ?_
  rcases (sortsNotAfter_iff hrank).mp h with h | h
  · exact h.le
  · exact h.1.le

/-- Lines look the same if they have the same rank. -/
theorem sortedLines_eq_heads (hunique : hasOption given 'u' = true) (t : Octets) :
    sortedLines given t = (((lineBodies t).mergeSort (sortsNotAfter given)).splitBy
      fun a b => rank a == rank b).filterMap List.head? := by
  have hsame : (fun a b => !sortsBefore given a b && !sortsBefore given b a) =
      fun a b => rank a == rank b := by
    funext a b
    rw [Bool.eq_iff_iff]
    simp only [Bool.and_eq_true, Bool.not_eq_true', Bool.eq_false_iff, ne_eq, hrank, not_lt,
      beq_iff_eq]
    exact ⟨fun h => le_antisymm h.2 h.1, fun h => ⟨h.ge, h.le⟩⟩
  rw [sortedLines, hunique, if_pos rfl, hsame]

end Rank

/-- No line is lost, and none is made up. -/
theorem sortedLines_perm (hunique : hasOption given 'u' = false) (t : Octets) :
    (sortedLines given t).Perm (lineBodies t) := by
  unfold sortedLines
  dsimp only
  rw [hunique, if_neg Bool.false_ne_true]
  exact List.mergeSort_perm _ _

/-- Of the lines that look the same one stays, and the lines rise. -/
theorem pairwise_sortedLines_of_unique (hunique : hasOption given 'u' = true) (t : Octets) :
    (sortedLines given t).Pairwise fun a b => sortsBefore given a b = true := by
  obtain ⟨κ, _, rank, hrank⟩ := exists_rank given
  rw [sortedLines_eq_heads hrank hunique]
  have hsorted := pairwise_mergeSort_rank hrank (lineBodies t)
  generalize (lineBodies t).mergeSort (sortsNotAfter given) = lines at hsorted
  have hheads := heads_sublist_flatten (lines.splitBy fun a b => rank a == rank b)
  rw [List.flatten_splitBy] at hheads
  have hle := List.isChain_iff_getElem.mp (hsorted.sublist hheads).isChain
  have hne := List.isChain_iff_getElem.mp (@isChain_heads_splitBy _ _ _ _ rank lines)
  have hlt : ((lines.splitBy fun a b => rank a == rank b).filterMap List.head?).IsChain
      fun a b => rank a < rank b :=
    List.isChain_iff_getElem.mpr fun i hi => lt_of_le_of_ne (hle i hi) (hne i hi)
  have hpairs := List.isChain_iff_pairwise.mp ((List.isChain_map rank).mpr hlt)
  exact (List.pairwise_map.mp hpairs).imp fun h => (hrank _ _).mpr h

/-- **No line stands before one that should precede it.** -/
theorem pairwise_sortedLines (given : List (Char × Octets)) (t : Octets) :
    (sortedLines given t).Pairwise fun a b => sortsBefore given b a = false := by
  obtain ⟨κ, _, rank, hrank⟩ := exists_rank given
  have hfalse {a b : Octets} (h : rank a ≤ rank b) : sortsBefore given b a = false := by
    rw [Bool.eq_false_iff]
    exact mt (hrank b a).mp (not_lt.mpr h)
  cases hunique : hasOption given 'u' with
  | true =>
    refine (pairwise_sortedLines_of_unique hunique t).imp fun {a b} h => ?_
    exact hfalse ((hrank a b).mp h).le
  | false =>
    unfold sortedLines
    dsimp only
    rw [hunique, if_neg Bool.false_ne_true]
    exact (pairwise_mergeSort_rank hrank _).imp hfalse

/-- **Each line is stood for by one that looks the same.** -/
theorem exists_mem_sortedLines {line : Octets} (h : line ∈ lineBodies t) :
    ∃ shown ∈ sortedLines given t,
      sortsBefore given line shown = false ∧ sortsBefore given shown line = false := by
  obtain ⟨κ, _, rank, hrank⟩ := exists_rank given
  have hfalse {a b : Octets} (h : rank a = rank b) : sortsBefore given a b = false := by
    rw [Bool.eq_false_iff]
    exact mt (hrank a b).mp h.not_lt
  cases hunique : hasOption given 'u' with
  | true =>
    rw [sortedLines_eq_heads hrank hunique]
    have hmem := (List.mergeSort_perm (lineBodies t) (sortsNotAfter given)).mem_iff.mpr h
    rw [← List.flatten_splitBy (fun a b => rank a == rank b)
      ((lineBodies t).mergeSort (sortsNotAfter given))] at hmem
    obtain ⟨group, hgroup, hline⟩ := List.mem_flatten.mp hmem
    obtain ⟨shown, members, rfl⟩ := List.exists_cons_of_ne_nil (List.ne_nil_of_mem hline)
    have heq := key_eq_of_mem_splitBy hgroup hline List.mem_cons_self
    exact ⟨shown, List.mem_filterMap.mpr ⟨_, hgroup, rfl⟩, hfalse heq, hfalse heq.symm⟩
  | false => exact ⟨line, (sortedLines_perm hunique t).mem_iff.mpr h, hfalse rfl, hfalse rfl⟩

theorem filtering_standard (s : Setting) (c : ReadComplaint) (render : Octets → Octets) :
    s.filtering [] c render = .reads fun t => s.writing (render t) := by
  refine congrArg Started.reads (funext fun t => ?_)
  show { s.writing (render ([t].flatten)) with
    errors := ([] : List Octets).flatten, status := 0, endless := false } = s.writing (render t)
  rw [List.flatten_singleton]
  rfl

/-- Without a file `sort` puts its standard input in order. -/
theorem sort_standard {operands : List Octets}
    (h : options "kt" "nrufb" operands = .ok (given, [])) (s : Setting) :
    sort s operands = .reads fun t => s.writing (unlines (sortedLines given t)) := by
  unfold sort
  rw [h]
  exact filtering_standard _ _ _

/-! ### Merging -/

/-- **No two lines that are shown one after the other look the same.** -/
theorem isChain_lineGroups (given : List (Char × Octets)) (t : Octets) :
    ((lineGroups given t).filterMap List.head?).IsChain
      fun a b => uniqKey given a ≠ uniqKey given b := by
  rw [lineGroups]
  exact isChain_heads_splitBy

end Literate.Shell.Utility
