import Literate.Proofs.Patch.Added
import Literate.Proofs.Patch.Sides

/-!
# A generated diff is applied back

The hunks of a generated diff are applied to the old lines one after the other.  A hunk goes where
its group begins, if its header says so.  The header of the last group need not: if the group ends
with an insertion whose old place comes first, the header states an empty range, and the hunk is
first tried one line too early.

`Slips old new group`: it is found there, and that makes a difference.  `applyFrom_laid` says that
the hunks always apply, and that the new lines come out if no group slips, and only then.
-/

namespace Literate.Diff

variable {old new as : List Text} {i j i' j' p l cursor : Nat} {hunk : Hunk} {x y : Text}

/-! ### Lines that are all the same -/

/-- A list may be pushed on by one place only if its members are all the same. -/
theorem eq_of_append_singleton_eq_cons (h : as ++ [y] = x :: as) : y = x ∧ ∀ a ∈ as, a = x := by
  induction as generalizing x with
  | nil => exact ⟨(List.cons.inj h).1, fun _ ha => absurd ha List.not_mem_nil⟩
  | cons a as ih =>
    obtain ⟨rfl, hrest⟩ := List.cons.inj h
    obtain ⟨rfl, hall⟩ := ih hrest
    exact ⟨rfl, List.forall_mem_cons.mpr ⟨rfl, hall⟩⟩

theorem append_singleton_eq_cons (h : ∀ a ∈ as, a = x) : as ++ [x] = x :: as := by
  induction as with
  | nil => rfl
  | cons a as ih =>
    obtain ⟨rfl, hall⟩ := List.forall_mem_cons.mp h
    rw [List.cons_append, ih hall]

theorem append_singleton_eq_cons_iff : as ++ [x] = x :: as ↔ ∀ a ∈ as, a = x :=
  ⟨fun h => (eq_of_append_singleton_eq_cons h).2, append_singleton_eq_cons⟩

/-- Lines that stand one place too early are the same lines in another order. -/
theorem shifted_perm {front rest : List Text} :
    (front ++ as ++ x :: rest).Perm (front ++ [x] ++ as ++ rest) := by
  have hmiddle : (as ++ x :: rest).Perm (x :: (as ++ rest)) := List.perm_middle
  simpa only [List.append_assoc, List.cons_append, List.nil_append] using hmiddle.append_left front

/-- Lines that stand one place too early are the right ones only if they are all the same. -/
theorem shifted_eq_iff {front rest : List Text} :
    front ++ as ++ x :: rest = front ++ [x] ++ as ++ rest ↔ ∀ a ∈ as, a = x := by
  have hleft : front ++ as ++ x :: rest = front ++ (as ++ [x]) ++ rest := by simp
  have hright : front ++ [x] ++ as ++ rest = front ++ (x :: as) ++ rest := by simp
  rw [hleft, hright, List.append_cancel_right_eq, List.append_cancel_left_eq,
    append_singleton_eq_cons_iff]

theorem stretch_one (h : old[p]? = some x) : stretch old p 1 = [x] := by
  rw [stretch, List.drop_eq_getElem?_toList_append, h]
  rfl

/-- **A stretch that stands one line earlier too** has only lines that are the line before it. -/
theorem stretch_early_iff (hx : old[p]? = some x) (hl : p + 1 + l ≤ old.length) :
    stretch old p l = stretch old (p + 1) l ↔ ∀ a ∈ stretch old (p + 1) l, a = x := by
  have hcons : stretch old p (1 + l) = x :: stretch old (p + 1) l := by
    rw [stretch_add, stretch_one hx]
    rfl
  obtain ⟨y, hy⟩ := List.length_eq_one_iff.mp
    (length_stretch (show p + l + 1 ≤ old.length by omega))
  have hsnoc : stretch old p (1 + l) = stretch old p l ++ [y] := by
    rw [Nat.add_comm, stretch_add, hy]
  constructor
  · intro h
    rw [hsnoc, h] at hcons
    exact (eq_of_append_singleton_eq_cons hcons).2
  · intro h
    rw [hsnoc, ← append_singleton_eq_cons h] at hcons
    exact (List.append_inj' hcons rfl).1

/-- The lines from the last one of a stretch on, if the lines of the stretch are all the same. -/
theorem drop_early (h : ∀ a ∈ stretch old (p + 1) l, a = x) (hl : 0 < l)
    (hle : p + 1 + l ≤ old.length) : old.drop (p + l) = x :: old.drop (p + 1 + l) := by
  obtain ⟨y, hy⟩ := List.length_eq_one_iff.mp
    (length_stretch (show p + l + 1 ≤ old.length by omega))
  have hsplit : stretch old (p + 1) l = stretch old (p + 1) (l - 1) ++ [y] := by
    rw [← hy, show p + l = p + 1 + (l - 1) by omega, ← stretch_add, Nat.sub_add_cancel hl]
  have hyx : y = x := h y (by rw [hsplit]; simp)
  rw [← stretch_append_drop old (p + l) 1, hy, hyx, show p + l + 1 = p + 1 + l by omega]
  rfl

/-! ### Where a hunk goes -/

theorem ne_nil_of_stretch (hl : 0 < l) (hle : p + l ≤ old.length) : stretch old p l ≠ [] := by
  intro h
  have := length_stretch hle
  rw [h] at this
  exact absurd this (Nat.ne_of_lt hl)

/-- A hunk that states where its old side stands goes there. -/
theorem locate_of_start_pred (hside : hunk.oldLines = stretch old p l) (hl : 0 < l)
    (hle : p + l ≤ old.length) (hc : cursor ≤ p) (hs : hunk.oldStart - 1 = p) :
    hunk.locate old cursor = some p := by
  have hpos : hunk.position = p := by
    rw [Hunk.position, hside, if_neg (ne_nil_of_stretch hl hle), hs]
  have hfits : Hunk.matchesAt old hunk.oldLines cursor p = true := by
    rw [Hunk.matchesAt_iff, hside, length_stretch hle]
    exact ⟨hc, hle, rfl⟩
  rw [Hunk.locate]
  simp only [hpos, hfits, if_true]

/-- **A hunk that states one line less** goes one line too early if its old side stands there. -/
theorem locate_of_start (hside : hunk.oldLines = stretch old (p + 1) l) (hl : 0 < l)
    (hle : p + 1 + l ≤ old.length) (hc : cursor ≤ p + 1) (hs : hunk.oldStart = p + 1) :
    hunk.locate old cursor =
      if cursor ≤ p ∧ stretch old p l = stretch old (p + 1) l then some p else some (p + 1) := by
  have hne := ne_nil_of_stretch hl hle
  have hlen := length_stretch hle
  have hpos : hunk.position = p := by
    rw [Hunk.position, hside, if_neg hne, hs, Nat.add_sub_cancel]
  have hfits : Hunk.matchesAt old hunk.oldLines cursor p = true ↔
      cursor ≤ p ∧ stretch old p l = stretch old (p + 1) l := by
    rw [Hunk.matchesAt_iff, hside, hlen]
    exact ⟨fun h => ⟨h.1, h.2.2⟩, fun h => ⟨h.1, by omega, h.2⟩⟩
  have hnext : Hunk.matchesAt old hunk.oldLines cursor (p + 1) = true := by
    rw [Hunk.matchesAt_iff, hside, hlen]
    exact ⟨hc, hle, rfl⟩
  obtain ⟨n, hn⟩ := Nat.exists_eq_succ_of_ne_zero (show old.length ≠ 0 by omega)
  rw [Hunk.locate]
  simp only [hpos]
  by_cases h : cursor ≤ p ∧ stretch old p l = stretch old (p + 1) l
  · rw [if_pos h, if_pos (hfits.mpr h)]
  · rw [if_neg h, if_neg fun hf => h (hfits.mp hf), hside, if_neg hne, ← hside, hn, Hunk.search,
      if_pos hnext]

theorem applyFrom_cons {rest : List Hunk} {number position : Nat} {later : List Text}
    (hlocate : hunk.locate old cursor = some position)
    (hlater : Hunk.applyFrom old (number + 1) (position + hunk.oldLines.length) rest = .ok later) :
    Hunk.applyFrom old number cursor (hunk :: rest) =
      .ok (stretch old cursor (position - cursor) ++ hunk.newLines ++ later) := by
  rw [Hunk.applyFrom, hlocate]
  simp only [hlater]
  rfl

/-! ### Hunks that slip -/

/-- **The hunk of the group slips.**  The group ends with an insertion that states an old place not
after the beginning of the group.  The line before the group and all of the old side are the same,
and not all of the new side is. -/
def Slips (old new : List Text) (group : List Segment) : Prop :=
  ∃ first last x, group.head? = some first ∧ group.getLast? = some last ∧ last.IsLoneInsertion ∧
    last.oldStart ≤ first.oldStart ∧ 0 < first.oldStart ∧
    old[first.oldStart - 1]? = some x ∧ (∀ a ∈ (hunkOf old new group).oldLines, a = x) ∧
    ∃ a ∈ (hunkOf old new group).newLines, a ≠ x

theorem Segment.IsLoneInsertion.oldLength_eq {segment : Segment} (h : segment.IsLoneInsertion) :
    segment.oldLength = 0 := by
  rcases segment with _ | ⟨_ | _, _ | _⟩
  · exact h.elim
  · exact h.elim
  · rfl
  · exact h.elim
  · exact h.elim

/-- The number that a group states, by where it begins and what its last segment states. -/
theorem groupStart_eq {group more before : List Segment} {first last : Segment}
    (hfirst : group = first :: more) (hlast : group = before ++ [last]) :
    group.head? = some first ∧ group.getLast? = some last ∧
      groupStart group = rangeNumber first.oldStart (last.oldStart + last.oldLength) := by
  have hh : group.head? = some first := by rw [hfirst]; rfl
  have hl : group.getLast? = some last := by rw [hlast, List.getLast?_concat]
  exact ⟨hh, hl, by rw [groupStart, hh, hl]⟩

/-- **Where the hunk of a group goes**: where the group begins, and then it does not slip, or one
line too early, and then it slips unless all lines of its new side are the line before it. -/
theorem locate_group {group more before : List Segment} {first last : Segment} {k : Nat}
    (hside : (hunkOf old new group).oldLines = stretch old (i + k) l) (hl : 0 < l)
    (hle : i + k + l ≤ old.length) (hspace : 0 < k ∨ i = 0)
    (hfirst : group = first :: more) (hstart : first.oldStart = i + k)
    (hlast : group = before ++ [last])
    (hstop : last.oldStart + last.oldLength = i + k + l ∨ last.IsLoneInsertion) :
    (hunkOf old new group).locate old i = some (i + k) ∧ ¬ Slips old new group ∨
      last.oldStart + last.oldLength ≤ i + k ∧ ∃ q x, i + k = q + 1 ∧ i ≤ q ∧
        (hunkOf old new group).locate old i = some q ∧ old[q]? = some x ∧
        (∀ a ∈ (hunkOf old new group).oldLines, a = x) ∧
        (Slips old new group ↔ ∃ a ∈ (hunkOf old new group).newLines, a ≠ x) := by
  obtain ⟨hh, hg, hnumber⟩ := groupStart_eq hfirst hlast
  have hnumber' : (hunkOf old new group).oldStart =
      rangeNumber (i + k) (last.oldStart + last.oldLength) := hstart ▸ hnumber
  by_cases hempty : last.oldStart + last.oldLength ≤ i + k
  · have hlone : last.IsLoneInsertion := hstop.resolve_left (by omega)
    have hzero := hlone.oldLength_eq
    rw [rangeNumber, if_pos hempty] at hnumber'
    rcases Nat.eq_zero_or_pos (i + k) with hz | hpos
    · -- Before the first line there is none, so the hunk goes where the group begins.
      refine Or.inl ⟨locate_of_start_pred hside hl hle (Nat.le_add_right i k) (by omega), ?_⟩
      rintro ⟨first', last', x, hh', -, -, -, hpos, -⟩
      obtain rfl := Option.some.inj (hh.symm.trans hh')
      omega
    · obtain ⟨q, hq⟩ := Nat.exists_eq_succ_of_ne_zero (Nat.ne_of_gt hpos)
      rw [hq] at hside hle hnumber'
      have hiq : i ≤ q := by omega
      obtain ⟨x, hx⟩ : ∃ x, old[q]? = some x :=
        ⟨_, List.getElem?_eq_getElem (show q < old.length by omega)⟩
      have hearly := stretch_early_iff hx hle
      rw [← hside] at hearly
      have hlocate := locate_of_start hside hl hle (show i ≤ q + 1 by omega) hnumber'
      by_cases h : stretch old q l = stretch old (q + 1) l
      · rw [if_pos ⟨hiq, h⟩] at hlocate
        have hall := hearly.mp (by rw [hside]; exact h)
        refine Or.inr ⟨hempty, q, x, hq, hiq, hlocate, hx, hall, ?_, ?_⟩
        · rintro ⟨first', last', x', hh', -, -, -, -, hx', -, hsome⟩
          obtain rfl := Option.some.inj (hh.symm.trans hh')
          rw [hstart, hq, Nat.succ_sub_one, hx] at hx'
          obtain rfl := Option.some.inj hx'
          exact hsome
        · intro hsome
          refine ⟨first, last, x, hh, hg, hlone, by omega, by omega, ?_, hall, hsome⟩
          rw [hstart, hq, Nat.succ_sub_one, hx]
      · rw [if_neg fun hc => h hc.2] at hlocate
        refine Or.inl ⟨by rw [hq]; exact hlocate, ?_⟩
        rintro ⟨first', last', x', hh', -, -, -, -, hx', hall, -⟩
        obtain rfl := Option.some.inj (hh.symm.trans hh')
        rw [hstart, hq, Nat.succ_sub_one, hx] at hx'
        obtain rfl := Option.some.inj hx'
        exact h (by rw [← hside]; exact hearly.mpr hall)
  · rw [rangeNumber, if_neg hempty] at hnumber'
    refine Or.inl ⟨locate_of_start_pred hside hl hle (Nat.le_add_right i k) (by omega), ?_⟩
    rintro ⟨first', last', x, hh', hg', hlone, hle', -⟩
    obtain rfl := Option.some.inj (hh.symm.trans hh')
    obtain rfl := Option.some.inj (hg.symm.trans hg')
    have := hlone.oldLength_eq
    omega

/-! ### All hunks -/

/-- **The groups before the last one** go where they belong, and none of them slips. -/
theorem exists_of_laid_concat {front : List (List Segment)} {group : List Segment}
    (h : Laid old new i j (front ++ [group])) :
    ∃ i₁ j₁ before, Laid old new i₁ j₁ [group] ∧ new.drop j = before ++ new.drop j₁ ∧
      (∀ a ∈ before, a ∈ new) ∧ (∀ g ∈ front, ¬ Slips old new g) ∧
      ∀ number hunks result,
        Hunk.applyFrom old (number + front.length) i₁ hunks = .ok result →
        Hunk.applyFrom old number i (front.map (hunkOf old new) ++ hunks) =
          .ok (before ++ result) := by
  induction front generalizing i j with
  | nil =>
    exact ⟨i, j, [], h, rfl, fun a ha => absurd ha List.not_mem_nil,
      fun g hg => absurd hg List.not_mem_nil, fun _ _ _ happly => happly⟩
  | cons g front ih =>
    cases h with
    | @cons _ _ k i' j' _ _ gap space route pos first last later =>
      obtain ⟨i₁, j₁, before, hlaid, hdrop, hmem, hslips, happly⟩ := ih later
      obtain ⟨segment, more, hfirst, hstart⟩ := first
      obtain ⟨others, final, hlast, hstop⟩ := last
      obtain ⟨l, m, rfl, rfl, hside, hside', hle⟩ := route_sides route
      have hl : 0 < l := by omega
      have hlength := length_stretch (hle hl)
      have hstop' := hstop.resolve_right fun hc => absurd hc.2 (by simp)
      rcases locate_group hside hl (hle hl) space hfirst hstart hlast (Or.inl hstop') with
        ⟨hlocate, hslip⟩ | ⟨hempty, -⟩
      · refine ⟨i₁, j₁, stretch old i k ++ (hunkOf old new g).newLines ++ before, hlaid, ?_,
          fun a ha => ?_, List.forall_mem_cons.mpr ⟨hslip, hslips⟩,
          fun number hunks result hresult => ?_⟩
        · rw [gap, hside', List.append_assoc, ← hdrop, List.append_assoc, stretch_append_drop,
            stretch_append_drop]
        · rcases List.mem_append.mp ha with ha | ha
          · rcases List.mem_append.mp ha with ha | ha
            · rw [gap] at ha
              exact mem_of_mem_stretch ha
            · rw [hside'] at ha
              exact mem_of_mem_stretch ha
          · exact hmem a ha
        · rw [List.length_cons, ← Nat.add_assoc, Nat.add_right_comm] at hresult
          have hlater := happly (number + 1) hunks result hresult
          rw [← hlength, ← hside] at hlater
          rw [List.map_cons, List.cons_append, applyFrom_cons hlocate hlater,
            Nat.add_sub_cancel_left, ← List.append_assoc]
      · omega

/-- **The hunk of the last group** applies, and gives the new lines if it does not slip, and only
then. -/
theorem applyFrom_last {group : List Segment} (h : Laid old new i j [group]) (number : Nat) :
    ∃ result, Hunk.applyFrom old number i [hunkOf old new group] = .ok result ∧
      result.length = (new.drop j).length ∧ (∀ a ∈ result, a ∈ new) ∧
      (result = new.drop j ↔ ¬ Slips old new group) := by
  cases h with
  | @cons _ _ k i' j' _ _ gap space route pos first last later =>
    obtain ⟨segment, more, hfirst, hstart⟩ := first
    obtain ⟨others, final, hlast, hstop⟩ := last
    obtain ⟨l, m, rfl, rfl, hside, hside', hle⟩ := route_sides route
    have hl : 0 < l := by omega
    have hle := hle hl
    have hlength := length_stretch hle
    have hend : old.drop (i + k + l) = new.drop (j + k + m) := by
      cases later with
      | nil h => exact h
    have hnew : new.drop j =
        stretch old i k ++ (hunkOf old new group).newLines ++ new.drop (j + k + m) := by
      rw [gap, hside', List.append_assoc, stretch_append_drop, stretch_append_drop]
    have hmem : ∀ a ∈ stretch old i k ++ (hunkOf old new group).newLines ++ new.drop (j + k + m),
        a ∈ new := fun a ha => List.mem_of_mem_drop (hnew ▸ ha)
    rcases locate_group hside hl hle space hfirst hstart hlast (hstop.imp_right And.left) with
      ⟨hlocate, hslips⟩ | ⟨-, q, x, hq, hiq, hlocate, hx, hall, hslips⟩
    · have happly := applyFrom_cons hlocate
        (show Hunk.applyFrom old (number + 1) _ [] = .ok _ from rfl)
      rw [hside, hlength, hend, Nat.add_sub_cancel_left, ← hnew] at happly
      exact ⟨_, happly, rfl, fun a ha => List.mem_of_mem_drop ha, fun _ => hslips, fun _ => rfl⟩
    · -- The hunk is found one line too early.
      have happly : Hunk.applyFrom old (number + 1)
          (q + (hunkOf old new group).oldLines.length) [] = .ok (x :: new.drop (j + k + m)) := by
        rw [hside, hlength, ← hend, hq, ← drop_early (by rwa [← hq, ← hside]) hl (by omega)]
        rfl
      have hfront : stretch old i k = stretch old i (q - i) ++ [x] := by
        rw [show k = q - i + 1 by omega, stretch_add, Nat.add_sub_cancel' hiq, stretch_one hx]
      rw [hfront] at hnew hmem
      refine ⟨_, applyFrom_cons hlocate happly, ?_,
        fun a ha => hmem a (shifted_perm.mem_iff.mp ha), ?_⟩
      · rw [hnew]
        exact shifted_perm.length_eq
      · rw [hnew, shifted_eq_iff, hslips]
        simp

/-- **The hunks of a generated diff apply.**  They give as many lines as the new list has, and they
give the new lines if no group slips, and only then. -/
theorem applyFrom_laid {groups : List (List Segment)} (h : Laid old new i j groups)
    (number : Nat) :
    ∃ result, Hunk.applyFrom old number i (groups.map (hunkOf old new)) = .ok result ∧
      result.length = (new.drop j).length ∧ (∀ a ∈ result, a ∈ new) ∧
      (result = new.drop j ↔ ∀ group ∈ groups, ¬ Slips old new group) := by
  rcases List.eq_nil_or_concat groups with rfl | ⟨front, group, rfl⟩
  · cases h with
    | nil h =>
      exact ⟨old.drop i, rfl, by rw [h], fun a ha => List.mem_of_mem_drop (h ▸ ha),
        fun _ _ hg => absurd hg List.not_mem_nil, fun _ => h⟩
  · rw [List.concat_eq_append] at h ⊢
    obtain ⟨i₁, j₁, before, hlaid, hdrop, hmem, hslips, happly⟩ := exists_of_laid_concat h
    obtain ⟨result, hresult, hlen, hmem', hiff⟩ := applyFrom_last hlaid (number + front.length)
    refine ⟨before ++ result, ?_, ?_, List.forall_mem_append.mpr ⟨hmem, hmem'⟩, ?_⟩
    · rw [List.map_append]
      exact happly number _ result hresult
    · rw [hdrop, List.length_append, List.length_append, hlen]
    · rw [hdrop, List.append_cancel_left_eq, hiff, List.forall_mem_append,
        List.forall_mem_singleton]
      exact ⟨fun h => ⟨hslips, h⟩, And.right⟩

/-! ### Diffs between texts -/

/-- The hunks of groups that are laid out have lines, and state numbers that the old list has. -/
theorem groupStart_le_of_laid {groups : List (List Segment)} (h : Laid old new i j groups) :
    ∀ group ∈ groups, group ≠ [] ∧ groupStart group ≤ old.length := by
  induction h with
  | nil => exact fun group hg => absurd hg List.not_mem_nil
  | @cons i j k i' j' group rest gap space route pos first last later ih =>
    refine List.forall_mem_cons.mpr ⟨?_, ih⟩
    obtain ⟨segment, more, hfirst, hstart⟩ := first
    obtain ⟨before, final, hlast, -⟩ := last
    obtain ⟨-, -, hnumber⟩ := groupStart_eq hfirst hlast
    obtain ⟨l, m, rfl, -, -, -, hle⟩ := route_sides route
    have := hle (by omega)
    refine ⟨by simp [hfirst], ?_⟩
    rw [hnumber, rangeNumber]
    split <;> omega

/-- **The hunk of a script from nothing** applies and gives the new lines. -/
theorem applyFrom_of_nil {e : Edit} (hstart : e.oldStart = 0)
    (h : Segment.Leads [] new 0 0 (.changed none (some e)) 0 new.length) :
    (∀ group ∈ [[Segment.changed none (some e)]], group ≠ [] ∧ groupStart group ≤ 0) ∧
      ∃ result, Hunk.applyFrom [] 1 0 ([[Segment.changed none (some e)]].map (hunkOf [] new)) =
          .ok result ∧ result.length = new.length ∧ (∀ a ∈ result, a ∈ new) ∧
        (result = new ↔ ∀ group ∈ [[Segment.changed none (some e)]], ¬ Slips [] new group) := by
  have hnumber : groupStart [.changed none (some e)] = 0 := by
    show rangeNumber e.oldStart (e.oldStart + 0) = 0
    rw [hstart]
    rfl
  obtain ⟨l, m, hl, hm, hside, hside', -⟩ := route_sides (route_singleton_iff.mpr h)
  obtain rfl : l = 0 := by omega
  obtain rfl : m = new.length := by omega
  rw [stretch_all] at hside'
  have hlocate : (hunkOf [] new [.changed none (some e)]).locate [] 0 = some 0 := by
    have hpos : (hunkOf [] new [.changed none (some e)]).position = 0 := by
      rw [Hunk.position, hside]
      exact hnumber
    rw [Hunk.locate, hside, hpos]
    rfl
  refine ⟨fun group hg => ?_, new, ?_, rfl, fun a ha => ha, fun _ group hg => ?_,
    fun _ => rfl⟩
  · rw [List.mem_singleton.mp hg, hnumber]
    exact ⟨List.cons_ne_nil _ _, Nat.le_refl 0⟩
  · rw [List.map_singleton, applyFrom_cons hlocate rfl, hside']
    simp
  · rw [List.mem_singleton.mp hg]
    rintro ⟨first, last, x, hfirst, -, -, -, hpos, -⟩
    obtain rfl := Option.some.inj hfirst
    exact Nat.ne_of_gt hpos hstart

theorem cutLines_ne {old new : Text} (h : old ≠ new) : Text.cutLines old ≠ Text.cutLines new :=
  fun he => h (by rw [← Text.flatten_cutLines old, he, Text.flatten_cutLines])

/-- The diff from a text without lines has one group, an insertion. -/
theorem textGroups_of_nil {old new : Text} (ho : Text.ReturnsPaired old)
    (hn : Text.ReturnsPaired new) (hold : Text.cutLines old = []) (hne : old ≠ new) :
    ∃ e : Edit, textGroups old new = [[.changed none (some e)]] ∧ e.oldStart = 0 ∧
      Segment.Leads [] (Text.lines new) 0 0 (.changed none (some e)) 0 (Text.lines new).length := by
  have hcut := cutLines_ne hne
  obtain ⟨bound, hsound⟩ := exists_sound_compact (Text.cutLines old) (Text.cutLines new)
  rw [textGroups, Text.cutTerminated_eq_cutLines ho, Text.cutTerminated_eq_cutLines hn]
  rw [hold] at hsound hcut ⊢
  obtain ⟨e, hgroups, hleads, hstart⟩ := groups_of_nil hsound hcut.symm
  refine ⟨e, hgroups, hstart, ?_⟩
  rw [Text.lines, List.length_map]
  exact hleads.map Text.chomp

/-- **The groups of the diff between two texts** are laid out in their lines, if the old text has
lines. -/
theorem laid_textGroups {old new : Text} (ho : Text.ReturnsPaired old)
    (hn : Text.ReturnsPaired new) (hold : Text.cutLines old ≠ []) :
    Laid (Text.lines old) (Text.lines new) 0 0 (textGroups old new) := by
  obtain ⟨bound, hsound⟩ := exists_sound_compact (Text.cutLines old) (Text.cutLines new)
  rw [textGroups, Text.cutTerminated_eq_cutLines ho, Text.cutTerminated_eq_cutLines hn]
  exact (laid_groups hsound hold).map Text.chomp

/-- Two texts that differ have groups. -/
theorem textGroups_ne_nil {old new : Text} (ho : Text.ReturnsPaired old)
    (hn : Text.ReturnsPaired new) (hne : old ≠ new) : textGroups old new ≠ [] := by
  intro hnil
  by_cases hold : Text.cutLines old = []
  · obtain ⟨e, hgroups, -, -⟩ := textGroups_of_nil ho hn hold hne
    exact List.cons_ne_nil _ _ (hgroups.symm.trans hnil)
  · obtain ⟨bound, hsound⟩ := exists_sound_compact (Text.cutLines old) (Text.cutLines new)
    have hlaid := laid_groups hsound hold
    rw [textGroups, Text.cutTerminated_eq_cutLines ho, Text.cutTerminated_eq_cutLines hn] at hnil
    simp only [hnil] at hlaid
    cases hlaid with
    | nil h => exact cutLines_ne hne h

/-- **The groups of the diff between two texts** that differ. -/
theorem textGroups_spec {old new : Text} (ho : Text.ReturnsPaired old)
    (hn : Text.ReturnsPaired new) (hne : old ≠ new) :
    textGroups old new ≠ [] ∧
      (∀ group ∈ textGroups old new,
        group ≠ [] ∧ groupStart group ≤ (Text.lines old).length) ∧
      ∃ result, Hunk.applyFrom (Text.lines old) 1 0
          ((textGroups old new).map (hunkOf (Text.lines old) (Text.lines new))) = .ok result ∧
        result.length = (Text.lines new).length ∧
        (∀ a ∈ result, a ∈ Text.lines new) ∧
        (result = Text.lines new ↔ ∀ group ∈ textGroups old new,
          ¬ Slips (Text.lines old) (Text.lines new) group) := by
  refine ⟨textGroups_ne_nil ho hn hne, ?_⟩
  by_cases hold : Text.cutLines old = []
  · have hlines : Text.lines old = [] := by rw [Text.lines, hold]; rfl
    obtain ⟨e, hgroups, hstart, hleads⟩ := textGroups_of_nil ho hn hold hne
    rw [hlines, hgroups]
    exact applyFrom_of_nil hstart hleads
  · have hlaid := laid_textGroups ho hn hold
    exact ⟨groupStart_le_of_laid hlaid, applyFrom_laid hlaid 1⟩

end Literate.Diff
