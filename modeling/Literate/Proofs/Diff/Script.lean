import Literate.Diff.Script
import Literate.Proofs.Diff.Middle
import Literate.Proofs.Diff.Route

/-!
# Scripts lead from the beginnings to the ends

`Stands lines i ls` says that the lines `ls` are found at place `i` of `lines`.  A script between
two lists that stand at given places of longer ones leads from those places to the places after the
lists (`route_scriptAt`), however it is cut in two on the way, if only the cuts lie within the old
list.

The old place that an insertion states is not after the place that it leads from (`Found`);
only later does that change, when edits are moved.
-/

namespace Literate.Diff

/-- The lines `ls` are found at place `i` of `lines`. -/
def Stands (lines : List Text) (i : Nat) (ls : List Text) : Prop :=
  ∃ before after, lines = before ++ ls ++ after ∧ before.length = i

variable {lines ls ms old new as bs : List Text} {i j : Nat}

theorem stands_self (lines : List Text) : Stands lines 0 lines :=
  ⟨[], [], by simp, rfl⟩

theorem Stands.left (h : Stands lines i (ls ++ ms)) : Stands lines i ls := by
  obtain ⟨before, after, rfl, hi⟩ := h
  exact ⟨before, ms ++ after, by simp, hi⟩

theorem Stands.right (h : Stands lines i (ls ++ ms)) : Stands lines (i + ls.length) ms := by
  obtain ⟨before, after, rfl, hi⟩ := h
  exact ⟨before ++ ls, after, by simp, by rw [List.length_append, hi]⟩

theorem Stands.le_length (h : Stands lines i ls) : i + ls.length ≤ lines.length := by
  obtain ⟨before, after, rfl, hi⟩ := h
  simp only [List.length_append]
  omega

theorem Stands.stretch_eq (h : Stands lines i ls) : stretch lines i ls.length = ls := by
  obtain ⟨before, after, rfl, rfl⟩ := h
  rw [stretch, List.append_assoc, List.drop_left, List.take_left]

/-- An edit of a script as it is found: it leads from one pair of places to the next, and the old
place of an insertion is not after the place that it leads from. -/
def Found (old new : List Text) (i j : Nat) (e : Edit) (i' j' : Nat) : Prop :=
  e.Leads old new i j i' j' ∧ (e.kind = .insert → e.oldStart ≤ i)

/-! ### The parts of a script -/

/-- The script between what is left of the two lists. -/
def between (cuts oldAt newAt : Nat) (oldMid newMid : List Text) : List Edit :=
  match oldMid, newMid with
  | [], [] => []
  | _ :: _, [] => [⟨.delete, oldAt, newAt, oldMid.length⟩]
  | [], _ :: _ => [⟨.insert, oldAt, newAt, newMid.length⟩]
  | _ :: _, _ :: _ =>
    match cuts, middle oldMid newMid with
    | cuts + 1, some (x, y) =>
      scriptAt cuts oldAt newAt (oldMid.take x) (newMid.take y) ++
        scriptAt cuts (oldAt + x) (newAt + y) (oldMid.drop x) (newMid.drop y)
    | _, _ => replaceEdits oldAt newAt oldMid.length newMid.length

/-- A script keeps common lines at the beginning and at the end. -/
theorem scriptAt_eq (cuts i j : Nat) (as bs : List Text) :
    let start := commonStart as bs
    let stop := commonEnd (as.drop start) (bs.drop start)
    let oldMid := (as.drop start).take ((as.drop start).length - stop)
    let newMid := (bs.drop start).take ((bs.drop start).length - stop)
    scriptAt cuts i j as bs = keepEdit i j start ++
      between cuts (i + start) (j + start) oldMid newMid ++
      keepEdit (i + start + oldMid.length) (j + start + newMid.length) stop := by
  rw [scriptAt.eq_def]
  rfl

/-- Two lists as a common beginning, what is left, and a common end. -/
theorem exists_parts (as bs : List Text) :
    let start := commonStart as bs
    let stop := commonEnd (as.drop start) (bs.drop start)
    ∃ first last,
      as = first ++ (as.drop start).take ((as.drop start).length - stop) ++ last ∧
      bs = first ++ (bs.drop start).take ((bs.drop start).length - stop) ++ last ∧
      first.length = start ∧ last.length = stop := by
  intro start stop
  have hstart := commonStart_le_left as bs
  have hstop := commonEnd_le_left (as.drop start) (bs.drop start)
  refine ⟨as.take start, (as.drop start).drop ((as.drop start).length - stop), ?_, ?_, ?_, ?_⟩
  · rw [List.append_assoc, List.take_append_drop, List.take_append_drop]
  · rw [drop_commonEnd, take_commonStart, List.append_assoc, List.take_append_drop,
      List.take_append_drop]
  · rw [List.length_take]
    omega
  · rw [List.length_drop]
    omega

theorem route_keepEdit {l : Nat} (hi : i + l ≤ old.length) (hj : j + l ≤ new.length)
    (h : stretch old i l = stretch new j l) :
    Route (Found old new) i j (keepEdit i j l) (i + l) (j + l) := by
  unfold keepEdit
  split
  · next hl =>
    subst hl
    exact .nil
  · next hl =>
    refine route_singleton_iff.mpr ⟨leads_keep_iff.mpr ?_, fun hk => nomatch hk⟩
    exact ⟨Nat.pos_of_ne_zero hl, rfl, rfl, rfl, rfl, hi, hj, h⟩

theorem route_keepEdit_of_stands {ls : List Text} (ha : Stands old i ls) (hb : Stands new j ls) :
    Route (Found old new) i j (keepEdit i j ls.length) (i + ls.length) (j + ls.length) :=
  route_keepEdit ha.le_length hb.le_length (ha.stretch_eq.trans hb.stretch_eq.symm)

theorem route_delete {n : Nat} (ha : Stands old i as) (h : 0 < as.length) :
    Route (Found old new) i j [⟨.delete, i, n, as.length⟩] (i + as.length) j :=
  route_singleton_iff.mpr
    ⟨leads_delete_iff.mpr ⟨h, rfl, rfl, rfl, ha.le_length⟩, fun hk => nomatch hk⟩

theorem route_insert {o : Nat} (hb : Stands new j bs) (h : 0 < bs.length) (ho : o ≤ i) :
    Route (Found old new) i j [⟨.insert, o, j, bs.length⟩] i (j + bs.length) :=
  route_singleton_iff.mpr ⟨leads_insert_iff.mpr ⟨h, rfl, rfl, rfl, hb.le_length⟩, fun _ => ho⟩

/-! ### Whole scripts -/

/-- A script into the empty list deletes, wherever it is said to stand in the new list. -/
theorem route_scriptAt_nil {cuts n : Nat} (ha : Stands old i as) :
    Route (Found old new) i j (scriptAt cuts i n as []) (i + as.length) j := by
  rw [scriptAt_eq]
  simp only [commonStart_nil_right, List.drop_nil, commonEnd_nil_right, List.drop_zero,
    List.take_nil, Nat.sub_zero, List.take_length, Nat.add_zero, keepEdit, if_pos,
    List.nil_append, List.append_nil]
  cases as with
  | nil => exact .nil
  | cons a as => exact route_delete ha (Nat.succ_pos _)

/-- What is left between two lists leads from one end to the other, if all scripts with fewer cuts
do. -/
theorem route_between {cuts : Nat} (ih : ∀ fewer < cuts, ∀ {as bs : List Text} {i j : Nat},
      Stands old i as → Stands new j bs →
        Route (Found old new) i j (scriptAt fewer i j as bs) (i + as.length) (j + bs.length))
    (ha : Stands old i as) (hb : Stands new j bs) :
    Route (Found old new) i j (between cuts i j as bs) (i + as.length) (j + bs.length) := by
  unfold between
  split
  · exact .nil
  · exact route_delete ha (Nat.succ_pos _)
  · exact route_insert hb (Nat.succ_pos _) (Nat.le_refl i)
  · next a as b bs =>
    split
    · next cuts x y hm =>
      have hx := fst_le_of_middle hm
      have has := List.take_append_drop x (a :: as)
      have hbs := List.take_append_drop y (b :: bs)
      rw [← has] at ha
      rw [← hbs] at hb
      have hlen : ((a :: as).take x).length = x := by
        rw [List.length_take]
        omega
      have hfirst := ih cuts (Nat.lt_succ_self cuts) ha.left hb.left
      rw [hlen] at hfirst
      have hright := ha.right
      rw [hlen] at hright
      have hold : i + x + ((a :: as).drop x).length = i + (a :: as).length := by
        rw [List.length_drop]
        omega
      -- A cut beyond the end of the new list leaves nothing of it for the second half.
      rcases Nat.lt_or_ge (b :: bs).length y with hy | hy
      · rw [List.take_of_length_le (Nat.le_of_lt hy)] at hfirst ⊢
        rw [List.drop_of_length_le (Nat.le_of_lt hy)]
        refine hfirst.append ?_
        rw [← hold]
        exact route_scriptAt_nil hright
      · have hylen : ((b :: bs).take y).length = y := by
          rw [List.length_take]
          omega
        have hlast := ih cuts (Nat.lt_succ_self cuts) hright hb.right
        rw [hylen] at hfirst hlast
        have hnew : j + y + ((b :: bs).drop y).length = j + (b :: bs).length := by
          rw [List.length_drop]
          omega
        rw [hold, hnew] at hlast
        exact hfirst.append hlast
    · exact (route_delete (n := j) ha (Nat.succ_pos _)).append
        (route_insert hb (Nat.succ_pos _) (Nat.le_add_right i _))

/-- **A script leads from the places of its lists to the places after them.** -/
theorem route_scriptAt {cuts : Nat} (ha : Stands old i as) (hb : Stands new j bs) :
    Route (Found old new) i j (scriptAt cuts i j as bs) (i + as.length) (j + bs.length) := by
  induction cuts using Nat.strongRecOn generalizing i j as bs with
  | ind cuts ih =>
    obtain ⟨first, last, has, hbs, hfirst, hlast⟩ := exists_parts as bs
    rw [scriptAt_eq]
    generalize (as.drop (commonStart as bs)).take _ = oldMid at has ⊢
    generalize (bs.drop (commonStart as bs)).take _ = newMid at hbs ⊢
    rw [← hlast, ← hfirst]
    rw [has] at ha ⊢
    rw [hbs] at hb ⊢
    have hmid := route_between ih ha.left.right hb.left.right
    have hend := route_keepEdit_of_stands ha.right hb.right
    simp only [List.length_append, ← Nat.add_assoc] at hend ⊢
    exact ((route_keepEdit_of_stands ha.left.left hb.left.left).append hmid).append hend

/-- **A script leads from the beginnings of the two lists to their ends.** -/
theorem route_script (old new : List Text) :
    Route (Found old new) 0 0 (script old new) old.length new.length := by
  have h : Route (Found old new) 0 0 (script old new) (0 + old.length) (0 + new.length) :=
    route_scriptAt (stands_self old) (stands_self new)
  rwa [Nat.zero_add, Nat.zero_add] at h

end Literate.Diff
