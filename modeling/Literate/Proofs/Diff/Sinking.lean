import Literate.Proofs.Diff.Compaction

/-!
# Insertions at the beginning of a compacted script

`Low`: an insertion with no kept lines before it states an old place that is not after the deletions
at the beginning.  A script is found that way, and deletions keep it when they are moved
(`Move.low_of_delete`).

An insertion may break it while it moves up over kept lines.  It does so only where the kept lines
that it has passed over stand right behind it, so that it can go down again (`Descends`), and a
slide down does not stop there (`not_descends_of_stops`).  So `exists_sound_compact`: compacted
scripts have it too.
-/

namespace Literate.Diff

variable {old new : List Text} {i j i' j' o n l s : Nat} {e prev next : Edit}
  {before after rest : List Edit} {p q : Place}

/-! ### Insertions at the beginning -/

/-- **No insertion at the beginning stands too far down.**  The deletions that no kept lines come
before are `bound` lines, together with `deleted`; the insertions that no kept lines come before do
not state an old place after `bound`. -/
def Low (bound : Nat) : (deleted : Nat) → List Edit → Prop
  | deleted, [] => deleted = bound
  | deleted, e :: rest =>
    match e.kind with
    | .keep => deleted = bound
    | .delete => Low bound (deleted + e.length) rest
    | .insert => e.oldStart ≤ bound ∧ Low bound deleted rest

variable {bound deleted : Nat} {as bs : List Edit}

theorem low_keep_iff (h : e.kind = .keep) : Low bound deleted (e :: rest) ↔ deleted = bound := by
  rw [Low, h]

theorem low_delete_iff (h : e.kind = .delete) :
    Low bound deleted (e :: rest) ↔ Low bound (deleted + e.length) rest := by
  rw [Low, h]

theorem low_insert_iff (h : e.kind = .insert) :
    Low bound deleted (e :: rest) ↔ e.oldStart ≤ bound ∧ Low bound deleted rest := by
  rw [Low, h]

/-- A script may be changed at its end. -/
theorem Low.congr_right (h : Low bound deleted (before ++ as))
    (hmono : ∀ d, Low bound d as → Low bound d bs) : Low bound deleted (before ++ bs) := by
  induction before generalizing deleted with
  | nil => exact hmono deleted h
  | cons e before ih =>
    rw [List.cons_append] at h ⊢
    cases hk : e.kind with
    | keep => exact (low_keep_iff hk).mpr ((low_keep_iff hk).mp h)
    | delete => exact (low_delete_iff hk).mpr (ih ((low_delete_iff hk).mp h))
    | insert =>
      obtain ⟨ho, hr⟩ := (low_insert_iff hk).mp h
      exact (low_insert_iff hk).mpr ⟨ho, ih hr⟩

/-- An insertion counts for itself alone. -/
theorem low_append_insert_iff (hk : e.kind = .insert) :
    Low bound deleted (before ++ e :: after) ↔
      Low bound deleted (before ++ after) ∧
        ((∀ k ∈ before, k.kind ≠ .keep) → e.oldStart ≤ bound) := by
  induction before generalizing deleted with
  | nil =>
    rw [List.nil_append, List.nil_append, low_insert_iff hk]
    exact ⟨fun h => ⟨h.2, fun _ => h.1⟩, fun h => ⟨h.2 fun _ hm => absurd hm List.not_mem_nil, h.1⟩⟩
  | cons b before ih =>
    rw [List.cons_append, List.cons_append, List.forall_mem_cons]
    cases hb : b.kind with
    | keep => simp [low_keep_iff hb]
    | delete => simp [low_delete_iff hb, ih]
    | insert => simp [low_insert_iff hb, ih, and_assoc]

/-- The first kept lines after the edit begin with the line that the edit begins with, so that the
edit can go down. -/
def Descends (old new : List Text) (p : Place) : Prop :=
  ∃ skipped k rest, p.after = skipped ++ k :: rest ∧ (∀ x ∈ skipped, x.kind ≠ .keep) ∧
    k.kind = .keep ∧ stretch old k.oldStart 1 = stretch new p.edit.newStart 1

/-- What holds while an insertion moves. -/
structure Sinking (old new : List Text) (bound : Nat) (p : Place) : Prop where
  low : Low bound 0 (p.before.reverse ++ p.after)
  edit : (∀ k ∈ p.before, k.kind ≠ .keep) → p.edit.oldStart ≤ bound ∨ Descends old new p

theorem low_script_iff (hk : p.edit.kind = .insert) : Low bound 0 p.script ↔
    Low bound 0 (p.before.reverse ++ p.after) ∧
      ((∀ k ∈ p.before, k.kind ≠ .keep) → p.edit.oldStart ≤ bound) := by
  rw [Place.script, low_append_insert_iff hk]
  simp only [List.mem_reverse]

/-- What is skipped before kept lines starts with the first edit, unless that is kept lines. -/
theorem Descends.of_after_cons (h : Descends old new ⟨before, e, next :: rest⟩)
    (hk : next.kind ≠ .keep) (before' : List Edit) {e' : Edit} (he : e'.newStart = e.newStart) :
    Descends old new ⟨before', e', rest⟩ := by
  obtain ⟨skipped, k, last, ha, hs, hkeep, hl⟩ := h
  cases skipped with
  | nil =>
    obtain ⟨rfl, -⟩ := List.cons.inj ha
    exact absurd hkeep hk
  | cons x skipped =>
    obtain ⟨rfl, hrest⟩ := List.cons.inj ha
    exact ⟨skipped, k, last, hrest, fun y hy => hs y (List.mem_cons_of_mem _ hy), hkeep, he ▸ hl⟩

theorem Descends.after_cons (h : Descends old new ⟨before, e, rest⟩) (hk : next.kind ≠ .keep)
    (before' : List Edit) : Descends old new ⟨before', e, next :: rest⟩ := by
  obtain ⟨skipped, k, last, ha, hs, hkeep, hl⟩ := h
  refine ⟨next :: skipped, k, last, by rw [List.cons_append, ← ha], ?_, hkeep, hl⟩
  exact List.forall_mem_cons.mpr ⟨hk, hs⟩

theorem exists_keepAfter (o n s : Nat) (after : List Edit) :
    ∃ k rest, keepAfter o n s after = k :: rest ∧ k.kind = .keep := by
  unfold keepAfter
  split
  · exact ⟨_, _, rfl, rfl⟩
  · exact ⟨_, _, rfl, rfl⟩

theorem low_keepEdit_keepAfter (o n l o' n' s : Nat) (after : List Edit) (h : deleted = bound) :
    Low bound deleted (keepEdit o n l ++ keepAfter o' n' s after) := by
  obtain ⟨k, rest, he, hk⟩ := exists_keepAfter o' n' s after
  rw [keepEdit, he]
  split
  · exact (low_keep_iff hk).mpr h
  · exact (low_keep_iff rfl).mpr h

/-! ### Moves of a deletion -/

theorem Move.low_of_delete (h : Move old new p q) (hk : p.edit.kind = .delete)
    (hl : Low bound 0 p.script) : Low bound 0 q.script := by
  rw [Place.script] at hl ⊢
  cases h with
  | overUp hi => exact absurd (hi.symm.trans hk) (by decide)
  | overDown hi => exact absurd (hi.symm.trans hk) (by decide)
  | @joinUp prev e rest after h =>
    simp only [List.reverse_cons, List.append_assoc, List.singleton_append] at hl ⊢
    refine hl.congr_right fun d hd => ?_
    rw [low_delete_iff (h.trans hk), low_delete_iff hk] at hd
    refine (low_delete_iff (e := { prev with length := prev.length + e.length }) ?_).mpr ?_
    · exact h.trans hk
    show Low bound (d + (prev.length + e.length)) after
    rwa [← Nat.add_assoc]
  | @swapUp prev e rest after hprev h =>
    simp only [List.reverse_cons, List.append_assoc, List.singleton_append] at hl ⊢
    refine hl.congr_right fun d hd => ?_
    have hins : prev.kind = .insert := by
      cases hp : prev.kind with
      | keep => exact absurd hp hprev
      | delete => exact absurd (hp.trans hk.symm) h
      | insert => rfl
    rw [low_insert_iff hins, low_delete_iff hk] at hd
    rw [low_delete_iff hk, low_insert_iff hins]
    exact hd
  | @joinDown next e before rest h =>
    refine hl.congr_right fun d hd => ?_
    rw [low_delete_iff hk, low_delete_iff (h.trans hk)] at hd
    refine (low_delete_iff (e := { e with length := e.length + next.length }) hk).mpr ?_
    show Low bound (d + (e.length + next.length)) rest
    rwa [← Nat.add_assoc]
  | @swapDown next e before rest hnext h =>
    simp only [List.reverse_cons, List.append_assoc, List.singleton_append] at hl ⊢
    refine hl.congr_right fun d hd => ?_
    have hins : next.kind = .insert := by
      cases hp : next.kind with
      | keep => exact absurd hp hnext
      | delete => exact absurd (hp.trans hk.symm) h
      | insert => rfl
    rw [low_delete_iff hk, low_insert_iff hins] at hd
    rw [low_insert_iff hins, low_delete_iff hk]
    exact hd

/-! ### Moves of an insertion -/

/-- An insertion that has passed over all of the kept lines before it can go down again. -/
theorem descends_of_overUp (hf : Fits old new (Place.script ⟨⟨.keep, o, n, l⟩ :: rest, e, after⟩))
    (hk : e.kind = .insert) {before' : List Edit} {oldStart : Nat} :
    Descends old new ⟨before',
      { e with oldStart := oldStart, newStart := e.newStart - l },
      keepAfter (o + l - l) (e.newStart + e.length - l) l after⟩ := by
  obtain ⟨i, j, i', j', hb, he, ha⟩ := fits_script_iff.mp hf
  obtain ⟨kind, eo, en, m⟩ := e
  obtain rfl : kind = .insert := hk
  rw [List.reverse_cons, route_append_iff] at hb
  obtain ⟨i₁, j₁, -, hkeep⟩ := hb
  obtain ⟨hl, rfl, rfl, rfl, rfl, hi, hj, hold⟩ :=
    leads_keep_iff.mp (route_singleton_iff.mp hkeep)
  obtain ⟨hm, rfl, rfl, rfl, hj'⟩ := leads_insert_iff.mp he
  have hfirst : stretch old o 1 = stretch new n 1 := by
    rw [← take_stretch (show 1 ≤ l from hl), hold, take_stretch (show 1 ≤ l from hl)]
  simp only [Descends, Nat.add_sub_cancel]
  unfold keepAfter
  split
  · next o' n' l' rest' =>
    obtain ⟨_, _, hk', -⟩ := route_cons_iff.mp ha
    obtain ⟨-, rfl, -⟩ := leads_keep_iff.mp hk'
    refine ⟨[], _, _, rfl, fun _ h => absurd h List.not_mem_nil, rfl, ?_⟩
    simpa only [Nat.add_sub_cancel] using hfirst
  · exact ⟨[], _, _, rfl, fun _ h => absurd h List.not_mem_nil, rfl, hfirst⟩

theorem exists_keep_mem_keepBefore (o n s : Nat) (before : List Edit) :
    ∃ k ∈ keepBefore o n s before, k.kind = .keep := by
  unfold keepBefore
  split
  · exact ⟨_, List.mem_cons_self, rfl⟩
  · exact ⟨_, List.mem_cons_self, rfl⟩

theorem low_keepBefore (as : List Edit)
    (h : Low bound deleted (before.reverse ++ ⟨.keep, o, n, l⟩ :: rest)) :
    Low bound deleted ((keepBefore o i s before).reverse ++ as) := by
  unfold keepBefore
  split
  · simp only [List.reverse_cons, List.append_assoc, List.singleton_append] at h ⊢
    exact h.congr_right fun d hd => (low_keep_iff rfl).mpr ((low_keep_iff rfl).mp hd)
  · simp only [List.reverse_cons, List.append_assoc, List.singleton_append] at h ⊢
    exact h.congr_right fun d hd => (low_keep_iff rfl).mpr ((low_keep_iff rfl).mp hd)

/-- **A move of an insertion** keeps the others low, and itself unless it can go down again. -/
theorem Move.sinking (h : Move old new p q) (hf : Fits old new p.script)
    (hk : p.edit.kind = .insert) (hs : Sinking old new bound p) : Sinking old new bound q := by
  obtain ⟨hlow, hedit⟩ := hs
  cases h with
  | @overUp o n l s rest after e hkind hs h =>
    constructor
    · simp only [List.reverse_append, reverse_keepEdit, List.reverse_cons, List.append_assoc,
        List.singleton_append] at hlow ⊢
      refine hlow.congr_right fun d hd => ?_
      exact low_keepEdit_keepAfter _ _ _ _ _ _ _ ((low_keep_iff rfl).mp hd)
    · intro hnone
      have hle : s ≤ l := by
        rw [h]
        exact Nat.le_trans (commonEnd_le_left _ _) (length_stretch_le old o l)
      obtain rfl : l = s := by
        by_cases hl : l = s
        · exact hl
        · rw [keepEdit_of_ne o n hle hl] at hnone
          exact absurd rfl (hnone _ (List.mem_append_left _ List.mem_cons_self))
      exact Or.inr (descends_of_overUp hf hk)
  | @joinUp prev e rest after h =>
    simp only [List.reverse_cons, List.append_assoc, List.singleton_append] at hlow
    obtain ⟨hrest, hprev⟩ := (low_append_insert_iff (h.trans hk)).mp hlow
    refine ⟨hrest, fun hnone => Or.inl (hprev ?_)⟩
    simpa only [List.mem_reverse] using hnone
  | @swapUp prev e rest after hprev h =>
    simp only [List.reverse_cons, List.append_assoc, List.singleton_append] at hlow
    refine ⟨hlow, fun hnone => ?_⟩
    rcases hedit (List.forall_mem_cons.mpr ⟨hprev, hnone⟩) with hle | hd
    · exact Or.inl hle
    · exact Or.inr (hd.after_cons hprev rest)
  | @overDown o n l s before rest e hkind hs h =>
    obtain ⟨k, hmem, hkeep⟩ := exists_keep_mem_keepBefore o e.newStart s before
    refine ⟨low_keepBefore _ hlow, fun hnone => absurd hkeep (hnone k hmem)⟩
  | @joinDown next e before rest h =>
    have hnext : next.kind = .insert := h.trans hk
    obtain ⟨hrest, -⟩ := (low_append_insert_iff hnext).mp hlow
    refine ⟨hrest, fun hnone => ?_⟩
    rcases hedit hnone with hle | hd
    · exact Or.inl hle
    · exact Or.inr (hd.of_after_cons (fun hc => nomatch hnext.symm.trans hc) before rfl)
  | @swapDown next e before rest hnext h =>
    refine ⟨by simpa using hlow, fun hnone => ?_⟩
    rcases hedit fun k hm => hnone k (List.mem_cons_of_mem _ hm) with hle | hd
    · exact Or.inl hle
    · exact Or.inr (hd.of_after_cons hnext _ rfl)

theorem Moves.low_of_delete (h : Moves old new p q) (hk : p.edit.kind = .delete)
    (hl : Low bound 0 p.script) : Low bound 0 q.script := by
  induction h with
  | refl => exact hl
  | tail hms hm ih => exact hm.low_of_delete ((Moves.kind_eq hms).trans hk) ih

theorem Moves.sinking (h : Moves old new p q) (hf : Fits old new p.script)
    (hk : p.edit.kind = .insert) (hs : Sinking old new bound p) : Sinking old new bound q := by
  induction h with
  | refl => exact hs
  | tail hms hm ih =>
    refine hm.sinking (Moves.fits hms hf ?_) ((Moves.kind_eq hms).trans hk) ih
    exact fun hc => nomatch hk.symm.trans hc

/-- Where a slide down stops: at the end, or at kept lines that do not begin as the edit does. -/
theorem slideDown_stops (old new : List Text) (before : List Edit) (e : Edit) (after : List Edit) :
    (slideDown old new before e after).after = [] ∨
      ∃ next rest, (slideDown old new before e after).after = next :: rest ∧ next.kind = .keep ∧
        commonStart (next.oldLines old)
          ((slideDown old new before e after).edit.newLines new) = 0 := by
  fun_induction slideDown old new before e after with
  | case1 => exact Or.inl rfl
  | case3 before e next rest hnext shared hs hl => exact Or.inr ⟨next, rest, rfl, hnext, hs⟩
  | case2 _ _ _ _ _ _ _ _ ih => exact ih
  | case4 _ _ _ _ _ _ _ _ _ _ ih => exact ih
  | case5 _ _ _ _ _ _ _ _ _ _ ih => exact ih
  | case6 _ _ _ _ _ _ ih => exact ih
  | case7 _ _ _ _ _ _ ih => exact ih

/-- Two stretches with the same first line have it in common. -/
theorem commonStart_stretch_pos {l m : Nat} (hl : 0 < l) (hm : 0 < m) (hi : i + l ≤ old.length)
    (h : stretch old i 1 = stretch new j 1) :
    0 < commonStart (stretch old i l) (stretch new j m) := by
  obtain ⟨a, ha⟩ := List.length_eq_one_iff.mp
    (length_stretch (show i + 1 ≤ old.length by omega))
  have hold : stretch old i l = a :: stretch old (i + 1) (l - 1) := by
    rw [show l = 1 + (l - 1) by omega, stretch_add, ha, Nat.add_sub_cancel_left]
    rfl
  have hnew : stretch new j m = a :: stretch new (j + 1) (m - 1) := by
    rw [show m = 1 + (m - 1) by omega, stretch_add, ← h, ha, Nat.add_sub_cancel_left]
    rfl
  rw [hold, hnew]
  exact commonStart_pos

/-- **A slide down does not stop where the insertion can go down.** -/
theorem not_descends_of_stops (hf : Fits old new p.script) (hk : p.edit.kind = .insert)
    (h : p.after = [] ∨ ∃ next rest, p.after = next :: rest ∧ next.kind = .keep ∧
      commonStart (next.oldLines old) (p.edit.newLines new) = 0) : ¬ Descends old new p := by
  rintro ⟨skipped, k, last, ha, hs, hkeep, hfirst⟩
  rcases h with h | ⟨next, rest, h, hnext, hzero⟩
  · rw [h] at ha
    exact absurd ha.symm (by simp)
  · rw [h] at ha
    cases skipped with
    | cons x skipped =>
      obtain ⟨rfl, -⟩ := List.cons.inj ha
      exact hs next List.mem_cons_self hnext
    | nil =>
      obtain ⟨rfl, -⟩ := List.cons.inj ha
      obtain ⟨i, j, i', j', -, he, hr⟩ := fits_script_iff.mp hf
      rw [h] at hr
      obtain ⟨i₁, j₁, hkeep', -⟩ := route_cons_iff.mp hr
      obtain ⟨before, ⟨kind, eo, en, m⟩, after⟩ := p
      obtain rfl : kind = .insert := hk
      obtain ⟨kind, o, n, l⟩ := next
      obtain rfl : kind = .keep := hnext
      obtain ⟨hm, rfl, rfl, rfl, -⟩ := leads_insert_iff.mp he
      obtain ⟨hl, rfl, rfl, rfl, rfl, hi, -⟩ := leads_keep_iff.mp hkeep'
      exact absurd hzero (Nat.ne_of_gt (commonStart_stretch_pos hl hm hi hfirst))

/-! ### Compacted scripts -/

/-- A script as it is found has no insertion at its beginning that stands too far down. -/
theorem exists_low {edits : List Edit} (h : Route (Found old new) i j edits i' j') :
    ∃ bound, i ≤ bound ∧ Low bound i edits := by
  induction h with
  | nil => exact ⟨_, Nat.le_refl _, rfl⟩
  | @cons i j i₁ j₁ _ _ e _ first _ ih =>
    obtain ⟨bound, hle, hlow⟩ := ih
    obtain ⟨kind, o, n, l⟩ := e
    cases kind with
    | keep => exact ⟨i, Nat.le_refl i, (low_keep_iff rfl).mpr rfl⟩
    | delete =>
      obtain ⟨hl, rfl, rfl, rfl, -⟩ := leads_delete_iff.mp first.1
      exact ⟨bound, by omega, (low_delete_iff rfl).mpr hlow⟩
    | insert =>
      obtain ⟨hl, rfl, rfl, rfl, -⟩ := leads_insert_iff.mp first.1
      exact ⟨bound, hle, (low_insert_iff rfl).mpr ⟨Nat.le_trans (first.2 rfl) hle, hlow⟩⟩

/-- A script without an insertion that stands too far down at its beginning. -/
def Sound (old new : List Text) (bound : Nat) (edits : List Edit) : Prop :=
  Fits old new edits ∧ Low bound 0 edits

/-- **Settling the deletions keeps a script sound.** -/
theorem sound_settle_delete {edits : List Edit} {count : Nat}
    (h : Sound old new bound (before.reverse ++ edits)) :
    Sound old new bound (settle old new .delete count before edits) := by
  refine settle_induction (fun before e after hk ⟨hf, hl⟩ up hup => ?_) h
  have hne : e.kind ≠ .keep := fun hc => nomatch hk.symm.trans hc
  obtain ⟨hu, hd⟩ := moves_slides hf hne hup
  have h := hu.trans hd
  exact ⟨Moves.fits h hf hne, Moves.low_of_delete h hk hl⟩

/-- **Settling the insertions keeps a script sound.** -/
theorem sound_settle_insert {edits : List Edit} {count : Nat}
    (h : Sound old new bound (before.reverse ++ edits)) :
    Sound old new bound (settle old new .insert count before edits) := by
  refine settle_induction (fun before e after hk ⟨hf, hl⟩ up hup => ?_) h
  have hne : e.kind ≠ .keep := fun hc => nomatch hk.symm.trans hc
  obtain ⟨hu, hd⟩ := moves_slides hf hne hup
  have h := hu.trans hd
  have hf' := Moves.fits h hf hne
  have hk' := (Moves.kind_eq h).trans hk
  obtain ⟨hlow, hedit⟩ := (low_script_iff hk).mp hl
  obtain ⟨hlow', hedit'⟩ := Moves.sinking h hf hk ⟨hlow, fun hnone => Or.inl (hedit hnone)⟩
  refine ⟨hf', (low_script_iff hk').mpr ⟨hlow', fun hnone => ?_⟩⟩
  exact (hedit' hnone).resolve_right
    (not_descends_of_stops hf' hk' (slideDown_stops old new up.before up.edit up.after))

/-- **A compacted script** leads from the beginnings of the two lists to their ends, and no
insertion at its beginning stands too far down. -/
theorem exists_sound_compact (old new : List Text) :
    ∃ bound, Sound old new bound (compact old new (script old new)) := by
  have hroute := route_script old new
  obtain ⟨bound, -, hlow⟩ := exists_low hroute
  have hsound : Sound old new bound ([].reverse ++ script old new) :=
    ⟨hroute.mono fun _ _ _ _ _ h => h.1, hlow⟩
  exact ⟨bound, sound_settle_insert (sound_settle_delete hsound)⟩

end Literate.Diff
