import Literate.Diff.Compaction
import Literate.Proofs.Diff.Script
import Mathlib.Logic.Relation

/-!
# Joining edits keeps a script a script

`Move old new p q` is one step of a slide: the edit at a place passes over kept lines, joins a
neighbour of its kind or changes places with one of the other kind.  `Move.fits` says that the
script still leads from the beginnings of the two lists to their ends.

`moves_slideUp` and `moves_slideDown` say that slides are chains of moves, so that what a move keeps
is kept by moving all edits of a kind too (`settle_induction`).
-/

namespace Literate.Diff

/-- **One step of a slide.** -/
inductive Move (old new : List Text) : Place → Place → Prop
  | overUp {o n l s : Nat} {rest after : List Edit} {e : Edit} (hk : e.kind = .insert) (hs : 0 < s)
      (h : s = commonEnd (stretch old o l) (stretch new e.newStart e.length)) :
      Move old new ⟨⟨.keep, o, n, l⟩ :: rest, e, after⟩
        ⟨keepEdit o n (l - s) ++ rest,
          { e with oldStart := e.oldStart - s, newStart := e.newStart - s },
          keepAfter (o + l - s) (e.newStart + e.length - s) s after⟩
  | joinUp {prev e : Edit} {rest after : List Edit} (h : prev.kind = e.kind) :
      Move old new ⟨prev :: rest, e, after⟩
        ⟨rest, { prev with length := prev.length + e.length }, after⟩
  | swapUp {prev e : Edit} {rest after : List Edit} (hk : prev.kind ≠ .keep)
      (h : prev.kind ≠ e.kind) :
      Move old new ⟨prev :: rest, e, after⟩ ⟨rest, e, prev :: after⟩
  | overDown {o n l s : Nat} {before rest : List Edit} {e : Edit} (hk : e.kind = .insert)
      (hs : 0 < s) (h : s = commonStart (stretch old o l) (stretch new e.newStart e.length)) :
      Move old new ⟨before, e, ⟨.keep, o, n, l⟩ :: rest⟩
        ⟨keepBefore o e.newStart s before,
          { e with oldStart := e.oldStart + s, newStart := e.newStart + s },
          keepEdit (o + s) (n + s) (l - s) ++ rest⟩
  | joinDown {next e : Edit} {before rest : List Edit} (h : next.kind = e.kind) :
      Move old new ⟨before, e, next :: rest⟩
        ⟨before, { e with length := e.length + next.length }, rest⟩
  | swapDown {next e : Edit} {before rest : List Edit} (hk : next.kind ≠ .keep)
      (h : next.kind ≠ e.kind) :
      Move old new ⟨before, e, next :: rest⟩ ⟨next :: before, e, rest⟩

variable {old new : List Text} {i j i' j' o n l s : Nat} {e prev next : Edit}
  {before after rest : List Edit} {p q : Place}

theorem Move.kind_eq (h : Move old new p q) : q.edit.kind = p.edit.kind := by
  cases h with
  | joinUp h => exact h
  | _ => rfl

/-! ### The script at a place -/

/-- The script with an edit singled out. -/
def Place.script (p : Place) : List Edit :=
  p.before.reverse ++ p.edit :: p.after

/-- **The edits lead from the beginnings of the two lists to their ends.** -/
def Fits (old new : List Text) (edits : List Edit) : Prop :=
  Route (Edit.Leads old new) 0 0 edits old.length new.length

theorem fits_script_iff : Fits old new p.script ↔
    ∃ i j i' j', Route (Edit.Leads old new) 0 0 p.before.reverse i j ∧
      p.edit.Leads old new i j i' j' ∧
      Route (Edit.Leads old new) i' j' p.after old.length new.length := by
  rw [Fits, Place.script, route_append_iff]
  constructor
  · rintro ⟨i, j, hb, h⟩
    obtain ⟨i', j', he, ha⟩ := route_cons_iff.mp h
    exact ⟨i, j, i', j', hb, he, ha⟩
  · rintro ⟨i, j, i', j', hb, he, ha⟩
    exact ⟨i, j, hb, .cons he ha⟩

theorem reverse_keepEdit (o n l : Nat) : (keepEdit o n l).reverse = keepEdit o n l := by
  unfold keepEdit
  split <;> rfl

theorem leads_of_keepEdit (hi : i + l ≤ old.length) (hj : j + l ≤ new.length)
    (h : stretch old i l = stretch new j l) :
    Route (Edit.Leads old new) i j (keepEdit i j l) (i + l) (j + l) :=
  (route_keepEdit hi hj h).mono fun _ _ _ _ _ hf => hf.1

/-- Kept lines put in front of what follows them. -/
theorem route_keepAfter (hs : 0 < s) (hi : i + s ≤ old.length) (hj : j + s ≤ new.length)
    (h : stretch old i s = stretch new j s)
    (ha : Route (Edit.Leads old new) (i + s) (j + s) after i' j') :
    Route (Edit.Leads old new) i j (keepAfter i j s after) i' j' := by
  have hkeep : Edit.Leads old new i j ⟨.keep, i, j, s⟩ (i + s) (j + s) :=
    leads_keep_iff.mpr ⟨hs, rfl, rfl, rfl, rfl, hi, hj, h⟩
  unfold keepAfter
  split
  · next o n l rest =>
    obtain ⟨i₁, j₁, hk, hrest⟩ := route_cons_iff.mp ha
    obtain ⟨hl, rfl, rfl, rfl, rfl, hi', hj', he⟩ := leads_keep_iff.mp hk
    refine .cons (leads_keep_iff.mpr ?_) hrest
    refine ⟨by omega, by omega, by omega, by omega, by omega, by omega, by omega, ?_⟩
    rw [Nat.add_comm l s, stretch_add, stretch_add, h, he]
  · exact .cons hkeep ha

/-- Kept lines put behind what precedes them. -/
theorem route_keepBefore (hs : 0 < s) (hi : i + s ≤ old.length) (hj : j + s ≤ new.length)
    (h : stretch old i s = stretch new j s)
    (hb : Route (Edit.Leads old new) i' j' before.reverse i j) :
    Route (Edit.Leads old new) i' j' (keepBefore i j s before).reverse (i + s) (j + s) := by
  have hkeep : Edit.Leads old new i j ⟨.keep, i, j, s⟩ (i + s) (j + s) :=
    leads_keep_iff.mpr ⟨hs, rfl, rfl, rfl, rfl, hi, hj, h⟩
  unfold keepBefore
  split
  · next o n l rest =>
    rw [List.reverse_cons, route_append_iff] at hb ⊢
    obtain ⟨i₁, j₁, hrest, hk⟩ := hb
    obtain ⟨hl, rfl, rfl, rfl, rfl, hi', hj', he⟩ := leads_keep_iff.mp (route_singleton_iff.mp hk)
    refine ⟨o, n, hrest, route_singleton_iff.mpr (leads_keep_iff.mpr ?_)⟩
    refine ⟨by omega, rfl, rfl, by omega, by omega, hi, hj, ?_⟩
    rw [stretch_add, stretch_add, h, he]
  · rw [List.reverse_cons, route_append_iff]
    exact ⟨i, j, hb, route_singleton_iff.mpr hkeep⟩

/-- A deletion and an insertion next to one another may change places. -/
theorem exists_leads_swap {a b : Edit} {i₁ j₁ i₂ j₂ : Nat} (ha : a.Leads old new i j i₁ j₁)
    (hb : b.Leads old new i₁ j₁ i₂ j₂) (hka : a.kind ≠ .keep) (hkb : b.kind ≠ .keep)
    (h : a.kind ≠ b.kind) :
    ∃ i' j', b.Leads old new i j i' j' ∧ a.Leads old new i' j' i₂ j₂ := by
  obtain ⟨ka, oa, na, la⟩ := a
  obtain ⟨kb, ob, nb, lb⟩ := b
  cases ka with
  | keep => exact absurd rfl hka
  | delete =>
    cases kb with
    | keep => exact absurd rfl hkb
    | delete => exact absurd rfl h
    | insert =>
      obtain ⟨hla, rfl, rfl, rfl, hi⟩ := leads_delete_iff.mp ha
      obtain ⟨hlb, rfl, rfl, rfl, hj⟩ := leads_insert_iff.mp hb
      exact ⟨oa, nb + lb, leads_insert_iff.mpr ⟨hlb, rfl, rfl, rfl, hj⟩,
        leads_delete_iff.mpr ⟨hla, rfl, rfl, rfl, hi⟩⟩
  | insert =>
    cases kb with
    | keep => exact absurd rfl hkb
    | insert => exact absurd rfl h
    | delete =>
      obtain ⟨hla, rfl, rfl, rfl, hj⟩ := leads_insert_iff.mp ha
      obtain ⟨hlb, rfl, rfl, rfl, hi⟩ := leads_delete_iff.mp hb
      exact ⟨ob + lb, na, leads_delete_iff.mpr ⟨hlb, rfl, rfl, rfl, hi⟩,
        leads_insert_iff.mpr ⟨hla, rfl, rfl, rfl, hj⟩⟩

/-- Two neighbours of one kind may be joined; the upper one says where they start. -/
theorem leads_join {a b : Edit} {i₁ j₁ i₂ j₂ : Nat} (ha : a.Leads old new i j i₁ j₁)
    (hb : b.Leads old new i₁ j₁ i₂ j₂) (hkb : b.kind ≠ .keep) (h : a.kind = b.kind) :
    Edit.Leads old new i j { a with length := a.length + b.length } i₂ j₂ := by
  obtain ⟨ka, oa, na, la⟩ := a
  obtain ⟨kb, ob, nb, lb⟩ := b
  obtain rfl : ka = kb := h
  cases ka with
  | keep => exact absurd rfl hkb
  | delete =>
    obtain ⟨hla, rfl, rfl, rfl, hi⟩ := leads_delete_iff.mp ha
    obtain ⟨hlb, rfl, rfl, rfl, hi'⟩ := leads_delete_iff.mp hb
    exact leads_delete_iff.mpr ⟨Nat.add_pos_left hla lb, rfl, Nat.add_assoc .., rfl, hi'⟩
  | insert =>
    obtain ⟨hla, rfl, rfl, rfl, hj⟩ := leads_insert_iff.mp ha
    obtain ⟨hlb, rfl, rfl, rfl, hj'⟩ := leads_insert_iff.mp hb
    exact leads_insert_iff.mpr ⟨Nat.add_pos_left hla lb, rfl, rfl, Nat.add_assoc .., hj'⟩

/-- **A move keeps the script a script.** -/
theorem Move.fits (h : Move old new p q) (hf : Fits old new p.script) (hk : p.edit.kind ≠ .keep) :
    Fits old new q.script := by
  obtain ⟨i, j, i', j', hb, he, ha⟩ := fits_script_iff.mp hf
  rw [fits_script_iff]
  cases h with
  | @overUp o n l s rest after e hkind hs h =>
    obtain ⟨kind, eo, en, m⟩ := e
    obtain rfl : kind = .insert := hkind
    rw [List.reverse_cons, route_append_iff] at hb
    obtain ⟨i₁, j₁, hrest, hkeep⟩ := hb
    obtain ⟨hl, rfl, rfl, rfl, rfl, hi, hj, hold⟩ :=
      leads_keep_iff.mp (route_singleton_iff.mp hkeep)
    obtain ⟨hm, rfl, rfl, rfl, hj'⟩ := leads_insert_iff.mp he
    obtain ⟨hsl, hsm, hmoved⟩ := stretch_commonEnd hi hj'
    simp only at h
    rw [← h] at hsl hsm hmoved
    refine ⟨o + (l - s), n + (l - s), o + (l - s), n + (l - s) + m, ?_, ?_, ?_⟩
    · rw [List.reverse_append, reverse_keepEdit]
      refine hrest.append (leads_of_keepEdit (by omega) (by omega) ?_)
      rw [← take_stretch (Nat.sub_le l s), hold, take_stretch (Nat.sub_le l s)]
    · show Edit.Leads old new _ _ ⟨.insert, eo - s, n + l - s, m⟩ _ _
      exact leads_insert_iff.mpr ⟨hm, by omega, rfl, rfl, by omega⟩
    · have hi' : o + l - s = o + (l - s) := by omega
      have hj' : n + l + m - s = n + (l - s) + m := by omega
      rw [hi', hj'] at hmoved
      simp only [hi', hj']
      refine route_keepAfter hs (by omega) (by omega) hmoved ?_
      have hi₂ : o + (l - s) + s = o + l := by omega
      have hj₂ : n + (l - s) + m + s = n + l + m := by omega
      rwa [hi₂, hj₂]
  | @joinUp prev e rest after h =>
    rw [List.reverse_cons, route_append_iff] at hb
    obtain ⟨i₁, j₁, hrest, hprev⟩ := hb
    exact ⟨i₁, j₁, i', j', hrest, leads_join (route_singleton_iff.mp hprev) he hk h, ha⟩
  | @swapUp prev e rest after hprev h =>
    rw [List.reverse_cons, route_append_iff] at hb
    obtain ⟨i₁, j₁, hrest, hp⟩ := hb
    obtain ⟨i₂, j₂, hfirst, hlast⟩ :=
      exists_leads_swap (route_singleton_iff.mp hp) he hprev hk h
    exact ⟨i₁, j₁, i₂, j₂, hrest, hfirst, .cons hlast ha⟩
  | @overDown o n l s before rest e hkind hs h =>
    obtain ⟨kind, eo, en, m⟩ := e
    obtain rfl : kind = .insert := hkind
    obtain ⟨hm, rfl, rfl, rfl, hj'⟩ := leads_insert_iff.mp he
    obtain ⟨i₁, j₁, hkeep, hrest⟩ := route_cons_iff.mp ha
    obtain ⟨hl, rfl, rfl, rfl, rfl, hi, hj, hold⟩ := leads_keep_iff.mp hkeep
    obtain ⟨hsl, hsm, hmoved⟩ := stretch_commonStart old new o en l m
    simp only at h
    rw [← h] at hsl hsm hmoved
    refine ⟨o + s, en + s, o + s, en + s + m, ?_, ?_, ?_⟩
    · show Route _ 0 0 (keepBefore o en s before).reverse _ _
      exact route_keepBefore hs (by omega) (by omega) hmoved hb
    · show Edit.Leads old new _ _ ⟨.insert, eo + s, en + s, m⟩ _ _
      exact leads_insert_iff.mpr ⟨hm, rfl, rfl, rfl, by omega⟩
    · have hlast : stretch old (o + s) (l - s) = stretch new (en + m + s) (l - s) := by
        have := congrArg (List.drop (l - (l - s))) hold
        rw [drop_stretch (Nat.sub_le l s), drop_stretch (Nat.sub_le l s)] at this
        have hi₂ : o + l - (l - s) = o + s := by omega
        have hj₂ : en + m + l - (l - s) = en + m + s := by omega
        rwa [hi₂, hj₂] at this
      have hk' := leads_of_keepEdit (i := o + s) (j := en + m + s) (by omega) (by omega) hlast
      have hi₂ : o + s + (l - s) = o + l := by omega
      have hj₂ : en + m + s + (l - s) = en + m + l := by omega
      rw [hi₂, hj₂] at hk'
      have hj₃ : en + s + m = en + m + s := by omega
      rw [hj₃]
      exact hk'.append hrest
  | @joinDown next e before rest h =>
    obtain ⟨i₁, j₁, hnext, hrest⟩ := route_cons_iff.mp ha
    exact ⟨i, j, i₁, j₁, hb, leads_join he hnext (h ▸ hk) h.symm, hrest⟩
  | @swapDown next e before rest hnext h =>
    obtain ⟨i₁, j₁, hn, hrest⟩ := route_cons_iff.mp ha
    obtain ⟨i₂, j₂, hfirst, hlast⟩ := exists_leads_swap he hn hk hnext (Ne.symm h)
    refine ⟨i₂, j₂, i₁, j₁, ?_, hlast, hrest⟩
    rw [List.reverse_cons, route_append_iff]
    exact ⟨i, j, hb, route_singleton_iff.mpr hfirst⟩

/-! ### Slides are chains of moves -/

/-- A slide, as a chain of moves. -/
abbrev Moves (old new : List Text) : Place → Place → Prop :=
  Relation.ReflTransGen (Move old new)

theorem Moves.kind_eq (h : Moves old new p q) : q.edit.kind = p.edit.kind := by
  induction h with
  | refl => rfl
  | tail _ hm ih => exact hm.kind_eq.trans ih

theorem Moves.fits (h : Moves old new p q) (hf : Fits old new p.script)
    (hk : p.edit.kind ≠ .keep) : Fits old new q.script := by
  induction h with
  | refl => exact hf
  | tail hms hm ih => exact hm.fits ih (by rwa [Moves.kind_eq hms])

/-- The edits of a script have lines. -/
theorem Fits.length_pos (h : Fits old new before) (he : e ∈ before) : 0 < e.length := by
  obtain ⟨as, bs, rfl⟩ := List.append_of_mem he
  obtain ⟨i, j, -, hr⟩ := route_append_iff.mp h
  obtain ⟨_, _, hl, -⟩ := route_cons_iff.mp hr
  exact hl.1

theorem newLines_of_kind_eq_delete (new : List Text) (h : e.kind = .delete) :
    e.newLines new = [] := by
  unfold Edit.newLines
  rw [h]

theorem kind_eq_insert_of_newLines_ne_nil (hk : e.kind ≠ .keep) (h : e.newLines new ≠ []) :
    e.kind = .insert := by
  cases he : e.kind with
  | keep => exact absurd he hk
  | delete => exact absurd (newLines_of_kind_eq_delete new he) h
  | insert => rfl

theorem newLines_of_kind_eq_insert (new : List Text) (h : e.kind = .insert) :
    e.newLines new = stretch new e.newStart e.length := by
  unfold Edit.newLines
  rw [h]

theorem keepEdit_of_eq (o n : Nat) (h : l = s) : keepEdit o n (l - s) = [] := by
  rw [keepEdit, if_pos (by omega)]

theorem keepEdit_of_ne (o n : Nat) (hs : s ≤ l) (h : ¬ l = s) :
    keepEdit o n (l - s) = [⟨.keep, o, n, l - s⟩] := by
  rw [keepEdit, if_neg (by omega)]

/-- Kept lines in common with the end of an edit are passed over by a move. -/
theorem move_overUp (hk : e.kind ≠ .keep)
    (hs : ¬ commonEnd (stretch old o l) (e.newLines new) = 0) :
    let s := commonEnd (stretch old o l) (e.newLines new)
    Move old new ⟨⟨.keep, o, n, l⟩ :: rest, e, after⟩
      ⟨keepEdit o n (l - s) ++ rest,
        { e with oldStart := e.oldStart - s, newStart := e.newStart - s },
        keepAfter (o + l - s) (e.newStart + e.length - s) s after⟩ := by
  have hi : e.kind = .insert := by
    refine kind_eq_insert_of_newLines_ne_nil hk fun h : e.newLines new = [] => hs ?_
    rw [h, commonEnd_nil_right]
  exact .overUp hi (Nat.pos_of_ne_zero hs) (by rw [newLines_of_kind_eq_insert new hi])

/-- Kept lines in common with the beginning of an edit are passed over by a move. -/
theorem move_overDown (hk : e.kind ≠ .keep)
    (hs : ¬ commonStart (stretch old o l) (e.newLines new) = 0) :
    let s := commonStart (stretch old o l) (e.newLines new)
    Move old new ⟨before, e, ⟨.keep, o, n, l⟩ :: rest⟩
      ⟨keepBefore o e.newStart s before,
        { e with oldStart := e.oldStart + s, newStart := e.newStart + s },
        keepEdit (o + s) (n + s) (l - s) ++ rest⟩ := by
  have hi : e.kind = .insert := by
    refine kind_eq_insert_of_newLines_ne_nil hk fun h : e.newLines new = [] => hs ?_
    rw [h, commonStart_nil_right]
  exact .overDown hi (Nat.pos_of_ne_zero hs) (by rw [newLines_of_kind_eq_insert new hi])

/-- **A slide up is a chain of moves.** -/
theorem moves_slideUp (hf : Fits old new (Place.script ⟨before, e, after⟩))
    (hk : e.kind ≠ .keep) : Moves old new ⟨before, e, after⟩ (slideUp old new before e after) := by
  fun_induction slideUp old new before e after with
  | case1 => exact .refl
  | case2 e after prev rest hprev shared hs hl ih =>
    have hpos := hf.length_pos (e := prev) (by simp [Place.script])
    omega
  | case3 => exact .refl
  | case4 e after prev rest hprev shared hs moved e' hl ih =>
    obtain ⟨kind, o, n, l⟩ := prev
    obtain rfl : kind = .keep := hprev
    have hm : Move old new ⟨⟨.keep, o, n, l⟩ :: rest, e, after⟩
        ⟨keepEdit o n (l - shared) ++ rest, e', moved⟩ := move_overUp hk hs
    rw [keepEdit_of_eq o n hl, List.nil_append] at hm
    exact .head hm (ih (hm.fits hf hk) hk)
  | case5 e after prev rest hprev shared hs moved e' hl ih =>
    obtain ⟨kind, o, n, l⟩ := prev
    obtain rfl : kind = .keep := hprev
    have hle : shared ≤ l :=
      Nat.le_trans (commonEnd_le_left _ _) (length_stretch_le old o l)
    have hm : Move old new ⟨⟨.keep, o, n, l⟩ :: rest, e, after⟩
        ⟨keepEdit o n (l - shared) ++ rest, e', moved⟩ := move_overUp hk hs
    rw [keepEdit_of_ne o n hle hl, List.singleton_append] at hm
    exact .head hm (ih (hm.fits hf hk) hk)
  | case6 e after prev rest hprev h ih =>
    have hm : Move old new ⟨prev :: rest, e, after⟩ _ := .joinUp h
    exact .head hm (ih (hm.fits hf hk) hprev)
  | case7 e after prev rest hprev h ih =>
    have hm : Move old new ⟨prev :: rest, e, after⟩ _ := .swapUp hprev h
    exact .head hm (ih (hm.fits hf hk) hk)

/-- **A slide down is a chain of moves.** -/
theorem moves_slideDown (hf : Fits old new (Place.script ⟨before, e, after⟩))
    (hk : e.kind ≠ .keep) :
    Moves old new ⟨before, e, after⟩ (slideDown old new before e after) := by
  fun_induction slideDown old new before e after with
  | case1 => exact .refl
  | case2 before e next rest hnext shared hs hl ih =>
    have hpos := hf.length_pos (e := next) (by simp [Place.script])
    omega
  | case3 => exact .refl
  | case4 before e next rest hnext shared hs moved e' hl ih =>
    obtain ⟨kind, o, n, l⟩ := next
    obtain rfl : kind = .keep := hnext
    have hm : Move old new ⟨before, e, ⟨.keep, o, n, l⟩ :: rest⟩
        ⟨moved, e', keepEdit (o + shared) (n + shared) (l - shared) ++ rest⟩ := move_overDown hk hs
    rw [keepEdit_of_eq (o + shared) (n + shared) hl, List.nil_append] at hm
    exact .head hm (ih (hm.fits hf hk) hk)
  | case5 before e next rest hnext shared hs moved e' hl ih =>
    obtain ⟨kind, o, n, l⟩ := next
    obtain rfl : kind = .keep := hnext
    have hle : shared ≤ l :=
      Nat.le_trans (commonStart_le_left _ _) (length_stretch_le old o l)
    have hm : Move old new ⟨before, e, ⟨.keep, o, n, l⟩ :: rest⟩
        ⟨moved, e', keepEdit (o + shared) (n + shared) (l - shared) ++ rest⟩ := move_overDown hk hs
    rw [keepEdit_of_ne (o + shared) (n + shared) hle hl, List.singleton_append] at hm
    exact .head hm (ih (hm.fits hf hk) hk)
  | case6 before e next rest hnext h ih =>
    have hm : Move old new ⟨before, e, next :: rest⟩ _ := .joinDown h
    exact .head hm (ih (hm.fits hf hk) hk)
  | case7 before e next rest hnext h ih =>
    have hm : Move old new ⟨before, e, next :: rest⟩ _ := .swapDown hnext h
    exact .head hm (ih (hm.fits hf hk) hk)

/-! ### All edits of a kind -/

/-- **What slides keep, settling keeps.** -/
theorem settle_induction {P : List Edit → Prop} {kind : EditKind}
    (hslide : ∀ before e after, e.kind = kind → P (Place.script ⟨before, e, after⟩) →
      ∀ up, up = slideUp old new before e after →
        P (slideDown old new up.before up.edit up.after).script)
    {count : Nat} {before edits : List Edit} (h : P (before.reverse ++ edits)) :
    P (settle old new kind count before edits) := by
  induction count generalizing before edits with
  | zero => exact h
  | succ count ih =>
    rw [settle]
    split
    · exact h
    · next e after hd =>
      have hkind : e.kind = kind := by
        have hh := List.head?_dropWhile_not (fun e : Edit => e.kind != kind) edits
        rw [hd] at hh
        simpa using hh
      have hscript : before.reverse ++ edits = Place.script
          ⟨(edits.takeWhile fun e => e.kind != kind).reverse ++ before, e, after⟩ := by
        rw [Place.script, ← hd, List.reverse_append, List.reverse_reverse, List.append_assoc,
          List.takeWhile_append_dropWhile]
      rw [hscript] at h
      have hdown := hslide _ e after hkind h _ rfl
      rw [Place.script] at hdown
      refine ih ?_
      rw [List.reverse_cons, List.append_assoc]
      exact hdown

/-- An edit is moved up and then down by two chains of moves. -/
theorem moves_slides (hf : Fits old new (Place.script ⟨before, e, after⟩)) (hk : e.kind ≠ .keep)
    {up : Place} (hup : up = slideUp old new before e after) :
    Moves old new ⟨before, e, after⟩ up ∧
      Moves old new up (slideDown old new up.before up.edit up.after) := by
  subst hup
  have h := moves_slideUp hf hk
  exact ⟨h, moves_slideDown (h.fits hf hk) (h.kind_eq ▸ hk)⟩

end Literate.Diff
