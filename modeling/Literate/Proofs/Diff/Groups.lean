import Literate.Diff.Unified
import Literate.Proofs.Diff.Sinking

/-!
# The groups of a script

A script is joined into segments and its segments are cut into groups.  `Segment.Leads` says that a
segment leads from one pair of places to another, as its edits do, and `route_ofEdits` that the
segments of a script lead where its edits do.

`Laid old new i j groups`: from place `i` of the old list and place `j` of the new one on, the lists
are the same except in the groups, each of which leads from where it begins in both to where it
ends.  It also says what the hunk headers rest on.  A group that is not the last one ends with kept
lines, so that only the last one can end with an insertion whose old place means nothing.
`laid_groups` says that the groups of a script are laid out that way.
-/

namespace Literate.Diff

variable {old new : List Text} {i j i' j' i₁ j₁ : Nat}

/-! ### Segments as steps -/

/-- **The segment leads from one pair of places to another**: what it keeps does, or what it deletes
and then what it inserts. -/
inductive Segment.Leads (old new : List Text) : Nat → Nat → Segment → Nat → Nat → Prop
  | same {i j i' j' : Nat} {kept : Edit} (hk : kept.kind = .keep)
      (h : kept.Leads old new i j i' j') : Leads old new i j (.same kept) i' j'
  | deleted {i j i' j' : Nat} {d : Edit} (hk : d.kind = .delete)
      (h : d.Leads old new i j i' j') : Leads old new i j (.changed (some d) none) i' j'
  | inserted {i j i' j' : Nat} {e : Edit} (hk : e.kind = .insert)
      (h : e.Leads old new i j i' j') : Leads old new i j (.changed none (some e)) i' j'
  | both {i j i' j' : Nat} {d e : Edit} (hd : d.kind = .delete) (he : e.kind = .insert)
      (h₁ : d.Leads old new i j i' j) (h₂ : e.Leads old new i' j i' j') :
      Leads old new i j (.changed (some d) (some e)) i' j'

/-- A deletion stays at its place of the new list, whichever that is. -/
theorem leads_of_delete {d : Edit} (hk : d.kind = .delete) (h : d.Leads old new i j i' j') :
    j' = j ∧ ∀ n, d.Leads old new i n i' n := by
  obtain ⟨kind, o, n, l⟩ := d
  obtain rfl : kind = .delete := hk
  obtain ⟨hl, rfl, rfl, rfl, hi⟩ := leads_delete_iff.mp h
  exact ⟨rfl, fun n => leads_delete_iff.mpr ⟨hl, rfl, rfl, rfl, hi⟩⟩

/-- An insertion stays at its place of the old list, whichever that is. -/
theorem leads_of_insert {e : Edit} (hk : e.kind = .insert) (h : e.Leads old new i j i' j') :
    i' = i ∧ ∀ o, e.Leads old new o j o j' := by
  obtain ⟨kind, o, n, l⟩ := e
  obtain rfl : kind = .insert := hk
  obtain ⟨hl, rfl, rfl, rfl, hj⟩ := leads_insert_iff.mp h
  exact ⟨rfl, fun o => leads_insert_iff.mpr ⟨hl, rfl, rfl, rfl, hj⟩⟩

theorem leads_keep_join {a b : Edit} (ha : a.kind = .keep) (hb : b.kind = .keep)
    (h₁ : a.Leads old new i j i₁ j₁) (h₂ : b.Leads old new i₁ j₁ i' j') :
    Edit.Leads old new i j { a with length := a.length + b.length } i' j' := by
  obtain ⟨ka, oa, na, la⟩ := a
  obtain ⟨kb, ob, nb, lb⟩ := b
  obtain rfl : ka = .keep := ha
  obtain rfl : kb = .keep := hb
  obtain ⟨hla, rfl, rfl, rfl, rfl, -, -, hsa⟩ := leads_keep_iff.mp h₁
  obtain ⟨hlb, rfl, rfl, rfl, rfl, hi, hj, hsb⟩ := leads_keep_iff.mp h₂
  refine leads_keep_iff.mpr
    ⟨Nat.add_pos_left hla lb, rfl, rfl, Nat.add_assoc .., Nat.add_assoc .., hi, hj, ?_⟩
  rw [stretch_add, stretch_add, hsa, hsb]

/-- An edit in front of segments leads where it leads alone, and on from there. -/
theorem route_addFirst {e : Edit} {segments : List Segment} (he : e.Leads old new i j i₁ j₁)
    (h : Route (Segment.Leads old new) i₁ j₁ segments i' j') :
    Route (Segment.Leads old new) i j (Segment.addFirst e segments) i' j' := by
  unfold Segment.addFirst
  split
  · next kept rest hk =>
    obtain ⟨i₂, j₂, hs, hrest⟩ := route_cons_iff.mp h
    cases hs with
    | same hkept hl => exact .cons (.same hk (leads_keep_join hk hkept he hl)) hrest
  · next hk _ => exact .cons (.same hk he) h
  · next deleted inserted rest hk =>
    obtain ⟨i₂, j₂, hs, hrest⟩ := route_cons_iff.mp h
    have hne : e.kind ≠ .keep := fun hc => nomatch hk.symm.trans hc
    obtain ⟨rfl, hall⟩ := leads_of_delete hk he
    cases hs with
    | deleted hd hl =>
      refine .cons (.deleted hk (leads_join he hl ?_ (hk.trans hd.symm))) hrest
      exact fun hc => nomatch hd.symm.trans hc
    | inserted hi hl =>
      obtain ⟨rfl, -⟩ := leads_of_insert hi hl
      exact .cons (.both hk hi he hl) hrest
    | both hd hi hl₁ hl₂ =>
      refine .cons (.both hk hi (leads_join he hl₁ ?_ (hk.trans hd.symm)) hl₂) hrest
      exact fun hc => nomatch hd.symm.trans hc
  · next hk _ => exact .cons (.deleted hk he) h
  · next deleted inserted rest hk =>
    obtain ⟨i₂, j₂, hs, hrest⟩ := route_cons_iff.mp h
    obtain ⟨rfl, hall⟩ := leads_of_insert hk he
    cases hs with
    | deleted hd hl =>
      obtain ⟨rfl, hd'⟩ := leads_of_delete hd hl
      exact .cons (.both hd hk (hd' j) (hall i₂)) hrest
    | inserted hi hl =>
      refine .cons (.inserted hk (leads_join he hl ?_ (hk.trans hi.symm))) hrest
      exact fun hc => nomatch hi.symm.trans hc
    | both hd hi hl₁ hl₂ =>
      refine .cons (.both hd hk ((leads_of_delete hd hl₁).2 j)
        (leads_join (hall i₂) hl₂ ?_ (hk.trans hi.symm))) hrest
      exact fun hc => nomatch hi.symm.trans hc
  · next hk _ => exact .cons (.inserted hk he) h

/-- **The segments of a script lead where its edits do.** -/
theorem route_ofEdits {edits : List Edit} (h : Route (Edit.Leads old new) i j edits i' j') :
    Route (Segment.Leads old new) i j (Segment.ofEdits edits) i' j' := by
  induction h with
  | nil => exact .nil
  | cons first _ ih => exact route_addFirst first ih

/-! ### Where segments begin and end -/

/-- The segment is an insertion alone, whose old place means nothing. -/
def Segment.IsLoneInsertion : Segment → Prop
  | .changed none (some _) => True
  | _ => False

theorem Segment.Leads.oldStart_eq {segment : Segment} (h : segment.Leads old new i j i' j')
    (hs : ¬ segment.IsLoneInsertion) : segment.oldStart = i := by
  cases h with
  | same hk h => exact (h.of_keep hk).2.1
  | deleted hk h => exact (h.of_delete hk).2.1
  | inserted => exact absurd trivial hs
  | both hd _ h _ => exact (h.of_delete hd).2.1

theorem Segment.Leads.oldLength_eq {segment : Segment} (h : segment.Leads old new i j i' j') :
    i' = i + segment.oldLength := by
  cases h with
  | same hk h => exact (h.of_keep hk).2.2.2.1
  | deleted hk h => exact (h.of_delete hk).2.2.1
  | inserted hk h => exact (h.of_insert hk).2.2.1
  | both hd _ h _ => exact (h.of_delete hd).2.2.1

theorem Segment.Leads.newLength_eq {segment : Segment} (h : segment.Leads old new i j i' j') :
    j' = j + segment.newLength := by
  cases h with
  | same hk h => exact (h.of_keep hk).2.2.2.2.1
  | deleted hk h => exact (h.of_delete hk).2.2.2.1
  | inserted hk h => exact (h.of_insert hk).2.2.2.1
  | both _ he _ h => exact (h.of_insert he).2.2.2.1

theorem Segment.Leads.le {segment : Segment} (h : segment.Leads old new i j i' j') : i ≤ i' := by
  rw [h.oldLength_eq]
  exact Nat.le_add_right _ _

theorem route_le {segments : List Segment}
    (h : Route (Segment.Leads old new) i j segments i' j') : i ≤ i' := by
  induction h with
  | nil => exact Nat.le_refl _
  | cons first _ ih => exact Nat.le_trans first.le ih

/-- Segments of kept lines are the same in both lists, and so is what begins with them. -/
theorem drop_eq_of_isSame {segments : List Segment}
    (h : Route (Segment.Leads old new) i j segments i' j')
    (hs : segments.all Segment.isSame = true) (hd : old.drop i' = new.drop j') :
    old.drop i = new.drop j := by
  induction h with
  | nil => exact hd
  | cons first _ ih =>
    rw [List.all_cons, Bool.and_eq_true] at hs
    cases first with
    | same hk h =>
      obtain ⟨-, -, -, rfl, rfl, -, -, he⟩ := h.of_keep hk
      have hrest := ih hs.2 hd
      rw [← stretch_append_drop old, ← stretch_append_drop new, he, hrest]
    | _ => cases hs.1

/-! ### Groups -/

/-- **The groups are laid out** in the old list from place `i` on and in the new list from place `j`
on.  Before and after each group the lists are the same.  A group takes up lines of the old list, it
states where it begins, and it is the last one if it does not state where it ends. -/
inductive Laid (old new : List Text) : Nat → Nat → List (List Segment) → Prop
  | nil {i j : Nat} (h : old.drop i = new.drop j) : Laid old new i j []
  | cons {i j k i' j' : Nat} {group : List Segment} {rest : List (List Segment)}
      (gap : stretch old i k = stretch new j k) (space : 0 < k ∨ i = 0)
      (route : Route (Segment.Leads old new) (i + k) (j + k) group i' j') (pos : i + k < i')
      (first : ∃ segment more, group = segment :: more ∧ segment.oldStart = i + k)
      (last : ∃ more segment, group = more ++ [segment] ∧
        (segment.oldStart + segment.oldLength = i' ∨ segment.IsLoneInsertion ∧ rest = []))
      (later : Laid old new i' j' rest) : Laid old new i j (group :: rest)

/-- The first kept lines of a segment. -/
theorem leads_keepFirst {kept : Edit} {count : Nat} (hc : 0 < count) (hk : kept.kind = .keep)
    (h : kept.Leads old new i j i' j') :
    (Segment.keepFirst count (.same kept)).Leads old new i j
      (i + min kept.length count) (j + min kept.length count) := by
  obtain ⟨kind, o, n, l⟩ := kept
  obtain rfl : kind = .keep := hk
  obtain ⟨hl, rfl, rfl, rfl, rfl, hi, hj, he⟩ := leads_keep_iff.mp h
  show Segment.Leads old new o n (.same ⟨.keep, o, n, min l count⟩)
    (o + min l count) (n + min l count)
  refine .same rfl (leads_keep_iff.mpr ?_)
  refine ⟨by omega, rfl, rfl, rfl, rfl, by omega, by omega, ?_⟩
  exact stretch_congr (a := 0) he (by omega)

/-- The last kept lines of a segment. -/
theorem leads_keepLast {kept : Edit} {count : Nat} (hc : 0 < count) (hk : kept.kind = .keep)
    (h : kept.Leads old new i j i' j') :
    (Segment.keepLast count (.same kept)).Leads old new
      (i + (kept.length - count)) (j + (kept.length - count)) i' j' := by
  obtain ⟨kind, o, n, l⟩ := kept
  obtain rfl : kind = .keep := hk
  obtain ⟨hl, rfl, rfl, rfl, rfl, hi, hj, he⟩ := leads_keep_iff.mp h
  show Segment.Leads old new (o + (l - count)) (n + (l - count))
    (.same ⟨.keep, o + (l - count), n + (l - count), l - (l - count)⟩) (o + l) (n + l)
  refine .same rfl (leads_keep_iff.mpr ?_)
  refine ⟨by omega, rfl, rfl, by omega, by omega, hi, hj, ?_⟩
  exact stretch_congr he (by omega)

/-- The segments begin at place `i` of the old list, with kept lines if that is not the beginning.
-/
def BeginsAt (i : Nat) (segments : List Segment) : Prop :=
  ∀ segment ∈ segments.head?, segment.oldStart = i ∧ (segment.isSame = true ∨ i = 0)

theorem BeginsAt.keepFirst {before rest rest' : List Segment} {segment : Segment}
    (h : BeginsAt i (before ++ segment :: rest)) (count : Nat) :
    BeginsAt i (before ++ segment.keepFirst count :: rest') := by
  cases before with
  | nil =>
    intro s hs
    obtain rfl := Option.some.inj hs
    have := h segment rfl
    cases segment with
    | same kept => exact this
    | changed deleted inserted => exact this
  | cons first before => exact h

/-- A segment states where it ends, unless it is an insertion alone. -/
theorem stop_eq_or {segment : Segment} (h : segment.Leads old new i j i' j') :
    segment.oldStart + segment.oldLength = i' ∨ segment.IsLoneInsertion := by
  by_cases hl : segment.IsLoneInsertion
  · exact Or.inr hl
  · exact Or.inl (by rw [h.oldStart_eq hl, ← h.oldLength_eq])

/-- Where segments begin, they state it, and if it is not the beginning of the old list they take up
lines of it. -/
theorem begins_of_cons {first : Segment} {segments others rest : List Segment}
    (h : Route (Segment.Leads old new) i j segments i' j') (he : segments = first :: others)
    (hb : BeginsAt i (segments ++ rest)) : first.oldStart = i ∧ (i < i' ∨ i = 0) := by
  subst he
  obtain ⟨hs, hor⟩ := hb first rfl
  refine ⟨hs, hor.imp_left fun hsame => ?_⟩
  obtain ⟨i₁, j₁, hf, hr⟩ := route_cons_iff.mp h
  have hle := route_le hr
  cases hf with
  | same hk hl =>
    obtain ⟨hpos, -, -, rfl, -⟩ := hl.of_keep hk
    omega
  | _ => cases hsame

/-- **Segments in groups are laid out**, from the group so far on. -/
theorem laid_groupsFrom {current segments : List Segment} {k a b : Nat}
    (gap : stretch old i k = stretch new j k) (space : 0 < k ∨ i = 0)
    (hcurrent : Route (Segment.Leads old new) (i + k) (j + k) current i₁ j₁)
    (hrest : Route (Segment.Leads old new) i₁ j₁ segments a b)
    (hend : old.drop a = new.drop b) (ha : 0 < a)
    (hbegin : BeginsAt (i + k) (current ++ segments)) :
    Laid old new i j (groupsFrom current segments) := by
  induction segments generalizing i j k i₁ j₁ current with
  | nil =>
    obtain ⟨rfl, rfl⟩ := route_nil_iff.mp hrest
    rw [groupsFrom]
    split
    · next hs =>
      refine .nil ?_
      have hdrop := drop_eq_of_isSame hcurrent hs hend
      rw [← stretch_append_drop old i k, ← stretch_append_drop new j k, gap, hdrop]
    · next hs =>
      rcases List.eq_nil_or_concat current with rfl | ⟨more, last, rfl⟩
      · exact absurd rfl hs
      · rw [List.concat_eq_append] at hcurrent hbegin ⊢
        obtain ⟨first, others, he⟩ := List.exists_cons_of_ne_nil (l := more ++ [last]) (by simp)
        obtain ⟨hfirst, hpos⟩ := begins_of_cons hcurrent he hbegin
        obtain ⟨i₂, j₂, -, hlast⟩ := route_append_iff.mp hcurrent
        refine .cons gap space hcurrent (by omega) ⟨first, others, he, hfirst⟩ ⟨more, last, rfl, ?_⟩
          (.nil hend)
        rcases stop_eq_or (route_singleton_iff.mp hlast) with h | h
        · exact Or.inl h
        · exact Or.inr ⟨h, rfl⟩
  | cons segment segments ih =>
    obtain ⟨i₂, j₂, hsegment, hsegments⟩ := route_cons_iff.mp hrest
    rw [groupsFrom]
    split
    · next hlong =>
      cases segment with
      | changed => cases hlong
      | same kept =>
        cases hsegment with
        | same hk hl =>
          have hlen : 2 * contextLength < kept.length := by simpa [Segment.isLong] using hlong
          have hcontext : contextLength = 3 := rfl
          have hfirst := leads_keepFirst (show 0 < contextLength by omega) hk hl
          have hlast := leads_keepLast (show 0 < contextLength by omega) hk hl
          obtain ⟨hpos, hi, hj, rfl, rfl, -, -, he⟩ := hl.of_keep hk
          rw [Nat.min_eq_right (by omega)] at hfirst
          have hgroup := hcurrent.append (route_singleton_iff.mpr hfirst)
          obtain ⟨first, others, hcons⟩ := List.exists_cons_of_ne_nil
            (l := current ++ [Segment.keepFirst contextLength (.same kept)]) (by simp)
          have hle := route_le hcurrent
          refine .cons gap space hgroup (by omega) ⟨first, others, hcons, ?_⟩
            ⟨current, _, rfl, Or.inl ?_⟩ ?_
          · have hbegin' : BeginsAt (i + k)
                (current ++ [Segment.keepFirst contextLength (.same kept)] ++ []) := by
              rw [List.append_assoc]
              exact hbegin.keepFirst contextLength
            exact (begins_of_cons hgroup hcons hbegin').1
          · show kept.oldStart + min kept.length contextLength = _
            omega
          · have hi' : kept.oldStart + contextLength + (kept.length - 2 * contextLength) =
                kept.oldStart + (kept.length - contextLength) := by omega
            have hj' : kept.newStart + contextLength + (kept.length - 2 * contextLength) =
                kept.newStart + (kept.length - contextLength) := by omega
            subst hi hj
            refine ih (k := kept.length - 2 * contextLength) (stretch_congr he (by omega))
              (Or.inl (by omega)) ?_ hsegments ?_
            · rw [hi', hj']
              exact route_singleton_iff.mpr hlast
            · rintro s hs
              obtain rfl := Option.some.inj hs
              exact ⟨hi'.symm, Or.inl rfl⟩
    · refine ih gap space (hcurrent.append (route_singleton_iff.mpr hsegment)) hsegments ?_
      rwa [List.append_assoc]

/-! ### The beginning and the end of a script -/

/-- A deletion in front of segments begins them. -/
theorem exists_addFirst_of_delete {e : Edit} (hk : e.kind = .delete) (segments : List Segment) :
    ∃ d inserted rest, Segment.addFirst e segments = .changed (some d) inserted :: rest := by
  obtain ⟨kind, o, n, l⟩ := e
  obtain rfl : kind = .delete := hk
  rcases segments with _ | ⟨_ | _, rest⟩
  · exact ⟨_, _, _, rfl⟩
  · exact ⟨_, _, _, rfl⟩
  · exact ⟨_, _, _, rfl⟩

/-- An insertion in front of segments leaves a deletion that they begin with at the beginning. -/
theorem exists_addFirst_of_insert {e : Edit} (hk : e.kind = .insert) {segments rest : List Segment}
    {d : Edit} {inserted : Option Edit} (h : segments = .changed (some d) inserted :: rest) :
    ∃ inserted' rest', Segment.addFirst e segments = .changed (some d) inserted' :: rest' := by
  obtain ⟨kind, o, n, l⟩ := e
  obtain rfl : kind = .insert := hk
  subst h
  exact ⟨_, _, rfl⟩

/-- Nothing is deleted at the beginning of a script whose segments do not begin with a deletion. -/
theorem Low.eq_bound {bound deleted : Nat} {edits : List Edit} (h : Low bound deleted edits)
    (hn : ∀ d inserted rest, Segment.ofEdits edits ≠ .changed (some d) inserted :: rest) :
    deleted = bound := by
  induction edits generalizing deleted with
  | nil => exact h
  | cons e edits ih =>
    cases hk : e.kind with
    | keep => exact (low_keep_iff hk).mp h
    | delete =>
      obtain ⟨d, inserted, rest, he⟩ := exists_addFirst_of_delete hk (Segment.ofEdits edits)
      exact absurd he (hn d inserted rest)
    | insert =>
      refine ih ((low_insert_iff hk).mp h).2 fun d inserted rest hc => ?_
      obtain ⟨inserted', rest', he⟩ := exists_addFirst_of_insert hk hc
      exact hn d inserted' rest' he

/-- **An insertion alone at the beginning** states the beginning of the old list. -/
theorem Low.oldStart_eq_zero {bound : Nat} {edits : List Edit} (h : Low bound 0 edits)
    {first : Segment} (hf : first ∈ (Segment.ofEdits edits).head?) (hl : first.IsLoneInsertion) :
    first.oldStart = 0 := by
  cases edits with
  | nil => cases hf
  | cons e edits =>
    have he : Segment.ofEdits (e :: edits) = Segment.addFirst e (Segment.ofEdits edits) := rfl
    rw [he] at hf
    unfold Segment.addFirst at hf
    split at hf
    · obtain rfl := Option.some.inj hf
      exact hl.elim
    · obtain rfl := Option.some.inj hf
      exact hl.elim
    · obtain rfl := Option.some.inj hf
      exact hl.elim
    · obtain rfl := Option.some.inj hf
      exact hl.elim
    · next deleted inserted rest hk hs =>
      obtain rfl := Option.some.inj hf
      cases deleted with
      | some => exact hl.elim
      | none =>
        obtain ⟨ho, hlow⟩ := (low_insert_iff hk).mp h
        have hbound : 0 = bound := by
          refine hlow.eq_bound fun d inserted' rest' hc => ?_
          rw [hs] at hc
          cases hc
        show e.oldStart = 0
        omega
    · next hk hs =>
      obtain rfl := Option.some.inj hf
      obtain ⟨ho, hlow⟩ := (low_insert_iff hk).mp h
      have hbound : 0 = bound := hlow.eq_bound fun d inserted rest hc => hs _ _ _ hc
      show e.oldStart = 0
      omega

/-- Only the last of the kept lines that a script begins with are shown. -/
theorem route_mapFirst {segments : List Segment} {count : Nat} (hc : 0 < count)
    (h : Route (Segment.Leads old new) 0 0 segments i' j')
    (hl : ∀ first ∈ segments.head?, first.IsLoneInsertion → first.oldStart = 0) :
    ∃ k, stretch old 0 k = stretch new 0 k ∧
      Route (Segment.Leads old new) k k (mapFirst (Segment.keepLast count) segments) i' j' ∧
      BeginsAt k (mapFirst (Segment.keepLast count) segments) := by
  cases segments with
  | nil => exact ⟨0, rfl, h, fun s hs => nomatch hs⟩
  | cons segment segments =>
    obtain ⟨i₁, j₁, hfirst, hrest⟩ := route_cons_iff.mp h
    cases segment with
    | same kept =>
      cases hfirst with
      | same hk hkept =>
        have hlast := leads_keepLast hc hk hkept
        obtain ⟨-, ho, -, -, -, -, -, he⟩ := hkept.of_keep hk
        rw [Nat.zero_add] at hlast
        refine ⟨kept.length - count, stretch_congr (a := 0) he (by omega), .cons hlast hrest, ?_⟩
        rintro s hs
        obtain rfl := Option.some.inj hs
        refine ⟨?_, Or.inl rfl⟩
        show kept.oldStart + (kept.length - count) = _
        omega
    | changed deleted inserted =>
      refine ⟨0, rfl, h, ?_⟩
      rintro s hs
      obtain rfl := Option.some.inj hs
      refine ⟨?_, Or.inr rfl⟩
      by_cases hlone : (Segment.changed deleted inserted).IsLoneInsertion
      · exact hl _ rfl hlone
      · exact hfirst.oldStart_eq hlone

theorem mapLast_append_singleton {α : Type} (f : α → α) (as : List α) (a : α) :
    mapLast f (as ++ [a]) = as ++ [f a] := by
  induction as with
  | nil => rfl
  | cons b as ih =>
    cases as with
    | nil => rfl
    | cons c as =>
      rw [List.cons_append, List.cons_append, mapLast, ← List.cons_append, ih]
      · rfl
      · exact fun hc => nomatch hc

/-- Only the first of the kept lines that a script ends with are shown. -/
theorem route_mapLast {segments : List Segment} {count : Nat} (hc : 0 < count)
    (h : Route (Segment.Leads old new) i j segments i' j') (hd : old.drop i' = new.drop j')
    (hpos : 0 < i') (hb : BeginsAt i segments) :
    ∃ a b, Route (Segment.Leads old new) i j (mapLast (Segment.keepFirst count) segments) a b ∧
      old.drop a = new.drop b ∧ 0 < a ∧
      BeginsAt i (mapLast (Segment.keepFirst count) segments) := by
  rcases List.eq_nil_or_concat segments with rfl | ⟨more, last, rfl⟩
  · exact ⟨i', j', h, hd, hpos, hb⟩
  · rw [List.concat_eq_append] at h hb ⊢
    rw [mapLast_append_singleton]
    obtain ⟨i₁, j₁, hmore, hlast⟩ := route_append_iff.mp h
    have hbegin : BeginsAt i (more ++ [last.keepFirst count]) := hb.keepFirst count
    cases last with
    | changed deleted inserted => exact ⟨i', j', h, hd, hpos, hbegin⟩
    | same kept =>
      cases route_singleton_iff.mp hlast with
      | same hk hkept =>
        have hfirst := leads_keepFirst hc hk hkept
        refine ⟨_, _, hmore.append (route_singleton_iff.mpr hfirst), ?_, ?_, hbegin⟩
        · obtain ⟨-, -, -, rfl, rfl, -, -, he⟩ := hkept.of_keep hk
          have hl : min kept.length count + (kept.length - min kept.length count) =
              kept.length := by omega
          have hrest := stretch_congr (a := min kept.length count)
            (b := kept.length - min kept.length count) he (by omega)
          rw [← stretch_append_drop old _ (kept.length - min kept.length count),
            ← stretch_append_drop new _ (kept.length - min kept.length count), hrest,
            Nat.add_assoc, Nat.add_assoc, hl, hd]
        · have := (hkept.of_keep hk).1
          omega

/-- **The groups of a script are laid out**, if the old list has lines. -/
theorem laid_groups {bound : Nat} {edits : List Edit} (h : Sound old new bound edits)
    (hold : old ≠ []) : Laid old new 0 0 (groups (Segment.ofEdits edits)) := by
  have hpos := List.length_pos_iff.mpr hold
  have hcontext : 0 < contextLength := Nat.succ_pos 2
  obtain ⟨k, hk, hroute, hbegin⟩ := route_mapFirst hcontext (route_ofEdits h.1) fun first hf hl =>
    h.2.oldStart_eq_zero hf hl
  obtain ⟨a, b, hroute', hend, ha, hbegin'⟩ :=
    route_mapLast hcontext hroute (by rw [List.drop_length, List.drop_length]) hpos hbegin
  refine laid_groupsFrom (k := k) hk (Or.inr rfl) .nil ?_ hend ha ?_
  · rw [Nat.zero_add]
    exact hroute'
  · rw [Nat.zero_add]
    exact hbegin'

/-! ### Scripts from nothing -/

theorem kind_eq_insert_of_nil {edits : List Edit}
    (h : Route (Edit.Leads [] new) i j edits i' j') : ∀ e ∈ edits, e.kind = .insert := by
  induction h with
  | nil => exact fun e he => absurd he List.not_mem_nil
  | @cons _ _ _ _ _ _ e _ first _ ih =>
    refine List.forall_mem_cons.mpr ⟨?_, ih⟩
    cases hk : e.kind with
    | insert => rfl
    | keep =>
      obtain ⟨hl, -, -, rfl, -, hi, -⟩ := first.of_keep hk
      rw [List.length_nil] at hi
      omega
    | delete =>
      obtain ⟨hl, -, rfl, -, hi⟩ := first.of_delete hk
      rw [List.length_nil] at hi
      omega

/-- Insertions alone are one segment. -/
theorem exists_ofEdits_of_inserts {e : Edit} {edits : List Edit}
    (h : ∀ a ∈ e :: edits, a.kind = .insert) :
    ∃ inserted, Segment.ofEdits (e :: edits) = [.changed none (some inserted)] := by
  induction edits generalizing e with
  | nil =>
    refine ⟨e, ?_⟩
    obtain ⟨kind, o, n, l⟩ := e
    obtain rfl : kind = .insert := h _ List.mem_cons_self
    rfl
  | cons a edits ih =>
    obtain ⟨he, hrest⟩ := List.forall_mem_cons.mp h
    obtain ⟨inserted, hs⟩ := ih hrest
    refine ⟨Segment.join e (some inserted), ?_⟩
    show Segment.addFirst e (Segment.ofEdits (a :: edits)) = _
    rw [hs]
    obtain ⟨kind, o, n, l⟩ := e
    obtain rfl : kind = .insert := he
    rfl

/-- **A script from nothing** is one group, an insertion of all of the new lines. -/
theorem groups_of_nil {bound : Nat} {edits : List Edit} (h : Sound [] new bound edits)
    (hne : new ≠ []) :
    ∃ e : Edit, groups (Segment.ofEdits edits) = [[.changed none (some e)]] ∧
      Segment.Leads [] new 0 0 (.changed none (some e)) 0 new.length ∧ e.oldStart = 0 := by
  have hroute := route_ofEdits h.1
  cases edits with
  | nil =>
    have hlen := (route_nil_iff.mp h.1).2
    exact absurd (List.length_eq_zero_iff.mp hlen) hne
  | cons e edits =>
    obtain ⟨inserted, hs⟩ := exists_ofEdits_of_inserts (kind_eq_insert_of_nil h.1)
    rw [hs] at hroute ⊢
    refine ⟨inserted, rfl, route_singleton_iff.mp hroute, ?_⟩
    have hfirst : Segment.changed none (some inserted) ∈ (Segment.ofEdits (e :: edits)).head? := by
      rw [hs]
      rfl
    exact h.2.oldStart_eq_zero hfirst trivial

end Literate.Diff
