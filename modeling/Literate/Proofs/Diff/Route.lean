import Literate.Diff.Edit

/-!
# Routes through two lists

A script leads from the beginnings of the old and the new list to their ends: kept lines go on in
both lists, deleted ones in the old, inserted ones in the new.  `Edit.Leads old new i j e i' j'`
says that the edit `e` leads from place `i` of the old list and place `j` of the new one to `i'` and
`j'`, and `Route` chains such steps.  Of the places that an edit states, only those count that it
takes its lines from: the old place of an insertion may be anything.

* `stretch_commonStart`, `stretch_commonEnd`: what two stretches have in common is the same lines.
* `route_append_iff`: a route through two lists of edits passes through a pair of places between
  them.
-/

namespace Literate

/-! ### Stretches -/

theorem length_stretch {lines : List Text} {i l : Nat} (h : i + l ≤ lines.length) :
    (stretch lines i l).length = l := by
  rw [stretch, List.length_take, List.length_drop]
  omega

@[simp] theorem stretch_zero (lines : List Text) (i : Nat) : stretch lines i 0 = [] := rfl

theorem stretch_add (lines : List Text) (i l m : Nat) :
    stretch lines i (l + m) = stretch lines i l ++ stretch lines (i + l) m := by
  rw [stretch, List.take_add, List.drop_drop]
  rfl

theorem stretch_append_drop (lines : List Text) (i l : Nat) :
    stretch lines i l ++ lines.drop (i + l) = lines.drop i := by
  rw [stretch, ← List.drop_drop, List.take_append_drop]

theorem mem_of_mem_stretch {lines : List Text} {i l : Nat} {line : Text}
    (h : line ∈ stretch lines i l) : line ∈ lines :=
  List.mem_of_mem_drop (List.mem_of_mem_take h)

theorem take_stretch {lines : List Text} {i l m : Nat} (h : l ≤ m) :
    (stretch lines i m).take l = stretch lines i l := by
  rw [stretch, List.take_take, Nat.min_eq_left h]
  rfl

theorem drop_stretch {lines : List Text} {i l m : Nat} (h : l ≤ m) :
    (stretch lines i m).drop (m - l) = stretch lines (i + m - l) l := by
  rw [stretch, List.drop_take, List.drop_drop, stretch]
  congr 1
  · omega
  · congr 1
    omega

/-- Parts of equal stretches are equal. -/
theorem stretch_congr {old new : List Text} {i j l a b : Nat}
    (h : stretch old i l = stretch new j l) (hl : a + b ≤ l) :
    stretch old (i + a) b = stretch new (j + a) b := by
  have hpart : ∀ (lines : List Text) (i : Nat),
      stretch lines (i + a) b = ((stretch lines i l).drop a).take b := by
    intro lines i
    rw [stretch, stretch, List.drop_take, List.take_take, List.drop_drop,
      Nat.min_eq_left (by omega)]
  rw [hpart, hpart, h]

theorem stretch_all (lines : List Text) : stretch lines 0 lines.length = lines := by
  rw [stretch, List.drop_zero, List.take_length]

theorem commonStart_le_right (as bs : List Text) : commonStart as bs ≤ bs.length := by
  induction as generalizing bs with
  | nil => simp [commonStart]
  | cons a as ih =>
    cases bs with
    | nil => simp [commonStart]
    | cons b bs =>
      by_cases h : a = b
      · simpa [commonStart, h] using ih bs
      · simp [commonStart, h]

theorem commonEnd_le_right (as bs : List Text) : commonEnd as bs ≤ bs.length := by
  simpa [commonEnd] using commonStart_le_right as.reverse bs.reverse

/-- What two lists have in common at their ends is the same lines. -/
theorem drop_commonEnd (as bs : List Text) :
    as.drop (as.length - commonEnd as bs) = bs.drop (bs.length - commonEnd as bs) := by
  have h := take_commonStart as.reverse bs.reverse
  rw [List.take_reverse, List.take_reverse, List.reverse_inj] at h
  exact h

theorem commonStart_nil_right (as : List Text) : commonStart as [] = 0 := by
  have := commonStart_le_right as []
  exact Nat.le_zero.mp this

theorem commonEnd_nil_right (as : List Text) : commonEnd as [] = 0 :=
  commonStart_nil_right as.reverse

theorem commonStart_pos {a : Text} {as bs : List Text} :
    0 < commonStart (a :: as) (a :: bs) := by
  rw [commonStart, if_pos rfl]
  exact Nat.succ_pos _

variable {old new : List Text} {o n l m : Nat}

/-- **Common beginnings of two stretches.** -/
theorem stretch_commonStart (old new : List Text) (o n l m : Nat) :
    let s := commonStart (stretch old o l) (stretch new n m)
    s ≤ l ∧ s ≤ m ∧ stretch old o s = stretch new n s := by
  intro s
  have hl : s ≤ l := Nat.le_trans (commonStart_le_left _ _) (length_stretch_le old o l)
  have hm : s ≤ m := Nat.le_trans (commonStart_le_right _ _) (length_stretch_le new n m)
  have h : (stretch old o l).take s = (stretch new n m).take s := take_commonStart _ _
  rw [take_stretch hl, take_stretch hm] at h
  exact ⟨hl, hm, h⟩

/-- **Common ends of two stretches.** -/
theorem stretch_commonEnd (ho : o + l ≤ old.length) (hn : n + m ≤ new.length) :
    let s := commonEnd (stretch old o l) (stretch new n m)
    s ≤ l ∧ s ≤ m ∧ stretch old (o + l - s) s = stretch new (n + m - s) s := by
  intro s
  have hl : s ≤ l := Nat.le_trans (commonEnd_le_left _ _) (length_stretch_le old o l)
  have hm : s ≤ m := Nat.le_trans (commonEnd_le_right _ _) (length_stretch_le new n m)
  have h := drop_commonEnd (stretch old o l) (stretch new n m)
  rw [length_stretch ho, length_stretch hn, drop_stretch hl, drop_stretch hm] at h
  exact ⟨hl, hm, h⟩

/-! ### Routes -/

/-- A list of steps that lead from one pair of places to the next. -/
inductive Route {α : Type} (Leads : Nat → Nat → α → Nat → Nat → Prop) :
    Nat → Nat → List α → Nat → Nat → Prop
  | nil {i j : Nat} : Route Leads i j [] i j
  | cons {i j i₁ j₁ i₂ j₂ : Nat} {a : α} {as : List α} (first : Leads i j a i₁ j₁)
      (rest : Route Leads i₁ j₁ as i₂ j₂) : Route Leads i j (a :: as) i₂ j₂

section Route

variable {α : Type} {Leads : Nat → Nat → α → Nat → Nat → Prop} {i j i₁ j₁ i₂ j₂ : Nat} {a : α}
  {as bs : List α}

theorem route_nil_iff : Route Leads i j [] i₁ j₁ ↔ i₁ = i ∧ j₁ = j := by
  constructor
  · intro h
    cases h
    exact ⟨rfl, rfl⟩
  · rintro ⟨rfl, rfl⟩
    exact .nil

theorem route_cons_iff : Route Leads i j (a :: as) i₂ j₂ ↔
    ∃ i₁ j₁, Leads i j a i₁ j₁ ∧ Route Leads i₁ j₁ as i₂ j₂ := by
  constructor
  · intro h
    cases h with
    | cons first rest => exact ⟨_, _, first, rest⟩
  · rintro ⟨i₁, j₁, first, rest⟩
    exact .cons first rest

theorem route_singleton_iff : Route Leads i j [a] i₁ j₁ ↔ Leads i j a i₁ j₁ := by
  constructor
  · intro h
    obtain ⟨i₂, j₂, first, rest⟩ := route_cons_iff.mp h
    obtain ⟨rfl, rfl⟩ := route_nil_iff.mp rest
    exact first
  · intro h
    exact .cons h .nil

/-- **A route through two lists** passes through a pair of places between them. -/
theorem route_append_iff : Route Leads i j (as ++ bs) i₂ j₂ ↔
    ∃ i₁ j₁, Route Leads i j as i₁ j₁ ∧ Route Leads i₁ j₁ bs i₂ j₂ := by
  induction as generalizing i j with
  | nil =>
    constructor
    · intro h
      exact ⟨i, j, .nil, h⟩
    · rintro ⟨i₁, j₁, h₁, h₂⟩
      obtain ⟨rfl, rfl⟩ := route_nil_iff.mp h₁
      exact h₂
  | cons a as ih =>
    constructor
    · intro h
      obtain ⟨i₃, j₃, first, rest⟩ := route_cons_iff.mp h
      obtain ⟨i₁, j₁, h₁, h₂⟩ := ih.mp rest
      exact ⟨i₁, j₁, .cons first h₁, h₂⟩
    · rintro ⟨i₁, j₁, h₁, h₂⟩
      obtain ⟨i₃, j₃, first, rest⟩ := route_cons_iff.mp h₁
      exact .cons first (ih.mpr ⟨i₁, j₁, rest, h₂⟩)

theorem Route.append (h₁ : Route Leads i j as i₁ j₁) (h₂ : Route Leads i₁ j₁ bs i₂ j₂) :
    Route Leads i j (as ++ bs) i₂ j₂ :=
  route_append_iff.mpr ⟨i₁, j₁, h₁, h₂⟩

theorem Route.mono {Leads' : Nat → Nat → α → Nat → Nat → Prop}
    (hmono : ∀ i j a i' j', Leads i j a i' j' → Leads' i j a i' j')
    (h : Route Leads i j as i₁ j₁) : Route Leads' i j as i₁ j₁ := by
  induction h with
  | nil => exact .nil
  | cons first _ ih => exact .cons (hmono _ _ _ _ _ first) ih

end Route

/-! ### Edits as steps -/

/-- **The edit leads from one pair of places to another.**  It has at least one line, its lines are
lines of the lists, and kept lines are the same in both. -/
def Edit.Leads (old new : List Text) (i j : Nat) (e : Edit) (i' j' : Nat) : Prop :=
  0 < e.length ∧
    match e.kind with
    | .keep => e.oldStart = i ∧ e.newStart = j ∧ i' = i + e.length ∧ j' = j + e.length ∧
        i' ≤ old.length ∧ j' ≤ new.length ∧ stretch old i e.length = stretch new j e.length
    | .delete => e.oldStart = i ∧ i' = i + e.length ∧ j' = j ∧ i' ≤ old.length
    | .insert => e.newStart = j ∧ i' = i ∧ j' = j + e.length ∧ j' ≤ new.length

theorem leads_keep_iff {i j i' j' : Nat} : Edit.Leads old new i j ⟨.keep, o, n, l⟩ i' j' ↔
    0 < l ∧ o = i ∧ n = j ∧ i' = i + l ∧ j' = j + l ∧ i' ≤ old.length ∧ j' ≤ new.length ∧
      stretch old i l = stretch new j l :=
  Iff.rfl

theorem leads_delete_iff {i j i' j' : Nat} : Edit.Leads old new i j ⟨.delete, o, n, l⟩ i' j' ↔
    0 < l ∧ o = i ∧ i' = i + l ∧ j' = j ∧ i' ≤ old.length :=
  Iff.rfl

theorem leads_insert_iff {i j i' j' : Nat} : Edit.Leads old new i j ⟨.insert, o, n, l⟩ i' j' ↔
    0 < l ∧ n = j ∧ i' = i ∧ j' = j + l ∧ j' ≤ new.length :=
  Iff.rfl

theorem Edit.Leads.of_keep {e : Edit} {i j i' j' : Nat} (h : e.Leads old new i j i' j')
    (hk : e.kind = .keep) :
    0 < e.length ∧ e.oldStart = i ∧ e.newStart = j ∧ i' = i + e.length ∧ j' = j + e.length ∧
      i' ≤ old.length ∧ j' ≤ new.length ∧ stretch old i e.length = stretch new j e.length := by
  rw [Leads, hk] at h
  exact h

theorem Edit.Leads.of_delete {e : Edit} {i j i' j' : Nat} (h : e.Leads old new i j i' j')
    (hk : e.kind = .delete) :
    0 < e.length ∧ e.oldStart = i ∧ i' = i + e.length ∧ j' = j ∧ i' ≤ old.length := by
  rw [Leads, hk] at h
  exact h

theorem Edit.Leads.of_insert {e : Edit} {i j i' j' : Nat} (h : e.Leads old new i j i' j')
    (hk : e.kind = .insert) :
    0 < e.length ∧ e.newStart = j ∧ i' = i ∧ j' = j + e.length ∧ j' ≤ new.length := by
  rw [Leads, hk] at h
  exact h

end Literate
