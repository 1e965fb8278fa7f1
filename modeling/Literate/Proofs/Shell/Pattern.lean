import Literate.Shell.Pattern

/-!
# What patterns stand for

`Stands items t` says that a pattern stands for a text: a run takes any piece of it, every other
item takes one character.  `matchesAll_iff` says that the search through all places where a run may
end finds out just that.

So what is cut off a text is the shortest or the longest piece at that end that the pattern stands
for, and nothing is cut off if there is none (`dropStart_spec`, `dropEnd_spec`).  A pattern whose
characters are quoted stands for these characters and nothing else (`stands_pattern_of_plain`).
-/

namespace Literate.Shell

/-- **The pattern stands for the text.** -/
inductive Stands : List PatternItem → Octets → Prop
  | nil : Stands [] []
  | item {i : PatternItem} {items : List PatternItem} {c : Char} {t : Octets}
      (h : i.accepts c = true) (rest : Stands items t) : Stands (i :: items) (c :: t)
  | run {items : List PatternItem} {t : Octets} (s : Octets) (rest : Stands items t) :
      Stands (.run :: items) (s ++ t)

variable {items items' : List PatternItem} {t t' : Octets}

theorem stands_nil_iff : Stands [] t ↔ t = [] := by
  constructor
  · intro h
    cases h
    rfl
  · rintro rfl
    exact .nil

theorem stands_run_iff :
    Stands (.run :: items) t ↔ ∃ s rest, t = s ++ rest ∧ Stands items rest := by
  constructor
  · intro h
    cases h with
    | item h => cases h
    | run s rest => exact ⟨s, _, rfl, rest⟩
  · rintro ⟨s, rest, rfl, h⟩
    exact .run s h

theorem stands_item_iff {i : PatternItem} (hi : i ≠ .run) : Stands (i :: items) t ↔
    ∃ c rest, t = c :: rest ∧ i.accepts c = true ∧ Stands items rest := by
  constructor
  · intro h
    cases h with
    | item h rest => exact ⟨_, _, rfl, h, rest⟩
    | run s rest => exact absurd rfl hi
  · rintro ⟨c, rest, rfl, hc, h⟩
    exact .item hc h

theorem matchesAll_item {i : PatternItem} (hi : i ≠ .run) (items : List PatternItem) (t : Octets) :
    matchesAll (i :: items) t =
      match t with
      | [] => false
      | c :: rest => i.accepts c && matchesAll items rest := by
  cases i with
  | run => exact absurd rfl hi
  | _ => rfl

/-- **The search decides what a pattern stands for.** -/
theorem matchesAll_iff : matchesAll items t = true ↔ Stands items t := by
  induction items generalizing t with
  | nil => rw [matchesAll, List.isEmpty_iff, stands_nil_iff]
  | cons i items ih =>
    by_cases hi : i = .run
    · subst hi
      simp only [matchesAll, List.any_eq_true, List.mem_range, ih, stands_run_iff]
      constructor
      · rintro ⟨n, -, h⟩
        exact ⟨t.take n, t.drop n, (List.take_append_drop n t).symm, h⟩
      · rintro ⟨s, rest, rfl, h⟩
        refine ⟨s.length, by rw [List.length_append]; omega, ?_⟩
        rwa [List.drop_left]
    · rw [matchesAll_item hi, stands_item_iff hi]
      cases t with
      | nil => simp
      | cons c rest =>
        rw [Bool.and_eq_true, ih]
        constructor
        · rintro ⟨hc, h⟩
          exact ⟨c, rest, rfl, hc, h⟩
        · rintro ⟨c', rest', heq, hc, h⟩
          obtain ⟨rfl, rfl⟩ := List.cons.inj heq
          exact ⟨hc, h⟩

instance (items : List PatternItem) (t : Octets) : Decidable (Stands items t) :=
  decidable_of_iff _ matchesAll_iff

/-- Patterns one after the other stand for texts one after the other. -/
theorem stands_append_iff : Stands (items ++ items') t ↔
    ∃ s s', t = s ++ s' ∧ Stands items s ∧ Stands items' s' := by
  induction items generalizing t with
  | nil =>
    constructor
    · intro h
      exact ⟨[], t, rfl, .nil, h⟩
    · rintro ⟨s, s', rfl, hs, hs'⟩
      obtain rfl := stands_nil_iff.mp hs
      exact hs'
  | cons i items ih =>
    rw [List.cons_append]
    constructor
    · intro h
      cases h with
      | item h rest =>
        obtain ⟨s, s', rfl, hs, hs'⟩ := ih.mp rest
        exact ⟨_, s', (List.cons_append ..).symm, .item h hs, hs'⟩
      | run u rest =>
        obtain ⟨s, s', rfl, hs, hs'⟩ := ih.mp rest
        exact ⟨u ++ s, s', (List.append_assoc ..).symm, .run u hs, hs'⟩
    · rintro ⟨s, s', rfl, hs, hs'⟩
      cases hs with
      | item h rest => exact .item h (ih.mpr ⟨_, s', rfl, rest, hs'⟩)
      | run u rest =>
        rw [List.append_assoc]
        exact .run u (ih.mpr ⟨_, s', rfl, rest, hs'⟩)

/-! ### Pieces cut off -/

/-- Of the pieces for which `p` holds this is a shortest one, or a longest one. -/
def IsExtreme (longest : Bool) (p : Octets → Prop) (s : Octets) : Prop :=
  p s ∧ ∀ u, p u → if longest then u.length ≤ s.length else s.length ≤ u.length

/-- What is found first in a list in order comes before all else that could be found. -/
theorem eq_or_of_find?_eq_some {α : Type} {r : α → α → Prop} {p : α → Bool} {xs : List α} {x y : α}
    (hr : xs.Pairwise r) (h : xs.find? p = some x) (hy : y ∈ xs) (hp : p y = true) :
    y = x ∨ r x y := by
  induction xs with
  | nil => cases hy
  | cons a xs ih =>
    rw [List.pairwise_cons] at hr
    by_cases ha : p a = true
    · rw [List.find?_cons_of_pos ha] at h
      obtain rfl := Option.some.inj h
      rcases List.mem_cons.mp hy with rfl | hy
      · exact Or.inl rfl
      · exact Or.inr (hr.1 y hy)
    · rw [List.find?_cons_of_neg ha] at h
      rcases List.mem_cons.mp hy with rfl | hy
      · exact absurd hp ha
      · exact ih hr.2 h hy

/-- The numbers up to `n` in the order in which cuts are tried. -/
theorem pairwise_cuts (longest : Bool) (n : Nat) :
    (if longest then (List.range n).reverse else List.range n).Pairwise fun j k =>
      if longest then k < j else j < k := by
  cases longest with
  | false => simpa using List.pairwise_lt_range
  | true => simpa [List.pairwise_reverse] using List.pairwise_lt_range

theorem mem_cuts {longest : Bool} {n k : Nat} :
    k ∈ (if longest then (List.range n).reverse else List.range n) ↔ k < n := by
  cases longest <;> simp

/-- **What is cut off the beginning** is the shortest or the longest one that the pattern stands
for.  If there is none, the text stays as it is. -/
theorem dropStart_spec (longest : Bool) (items : List PatternItem) (t : Octets) :
    (∃ s, t = s ++ dropStart longest items t ∧
      IsExtreme longest (fun u => u <+: t ∧ Stands items u) s) ∨
    (dropStart longest items t = t ∧ ∀ u, u <+: t → ¬ Stands items u) := by
  unfold dropStart
  simp only
  split
  · next n hn =>
    have hle : n ≤ t.length := Nat.le_of_lt_succ (mem_cuts.mp (List.mem_of_find?_eq_some hn))
    have hmatches : matchesAll items (t.take n) = true := by simpa using List.find?_some hn
    refine Or.inl ⟨t.take n, (List.take_append_drop n t).symm,
      ⟨List.take_prefix n t, matchesAll_iff.mp hmatches⟩, ?_⟩
    rintro u ⟨⟨v, rfl⟩, hu⟩
    have hlt : u.length < (u ++ v).length + 1 := by
      rw [List.length_append]
      omega
    have hp : matchesAll items ((u ++ v).take u.length) = true := by
      rwa [List.take_left, matchesAll_iff]
    have horder := eq_or_of_find?_eq_some (pairwise_cuts longest _) hn (mem_cuts.mpr hlt) hp
    rw [List.length_take_of_le hle]
    cases longest <;> simp at horder ⊢ <;> omega
  · next hnone =>
    refine Or.inr ⟨rfl, ?_⟩
    rintro u ⟨v, rfl⟩ hu
    have hlt : u.length < (u ++ v).length + 1 := by
      rw [List.length_append]
      omega
    refine List.find?_eq_none.mp hnone u.length (mem_cuts.mpr hlt) ?_
    rwa [List.take_left, matchesAll_iff]

/-- The cuts at the end are tried the other way round. -/
theorem dropEnd_eq (longest : Bool) (items : List PatternItem) (t : Octets) :
    dropEnd longest items t =
      match (if !longest then (List.range (t.length + 1)).reverse
        else List.range (t.length + 1)).find? fun n => matchesAll items (t.drop n) with
      | some n => t.take n
      | none => t := by
  cases longest <;> rfl

/-- **What is cut off the end** is the shortest or the longest one that the pattern stands for.  If
there is none, the text stays as it is. -/
theorem dropEnd_spec (longest : Bool) (items : List PatternItem) (t : Octets) :
    (∃ s, t = dropEnd longest items t ++ s ∧
      IsExtreme longest (fun u => u <:+ t ∧ Stands items u) s) ∨
    (dropEnd longest items t = t ∧ ∀ u, u <:+ t → ¬ Stands items u) := by
  rw [dropEnd_eq]
  split
  · next n hn =>
    have hle : n ≤ t.length := Nat.le_of_lt_succ (mem_cuts.mp (List.mem_of_find?_eq_some hn))
    have hmatches : matchesAll items (t.drop n) = true := by simpa using List.find?_some hn
    refine Or.inl ⟨t.drop n, (List.take_append_drop n t).symm,
      ⟨List.drop_suffix n t, matchesAll_iff.mp hmatches⟩, ?_⟩
    rintro u ⟨⟨v, rfl⟩, hu⟩
    have hlt : v.length < (v ++ u).length + 1 := by
      rw [List.length_append]
      omega
    have hp : matchesAll items ((v ++ u).drop v.length) = true := by
      rwa [List.drop_left, matchesAll_iff]
    have horder := eq_or_of_find?_eq_some (pairwise_cuts (!longest) _) hn (mem_cuts.mpr hlt) hp
    rw [List.length_drop]
    rw [List.length_append] at hle ⊢
    cases longest <;> simp at horder ⊢ <;> omega
  · next hnone =>
    refine Or.inr ⟨rfl, ?_⟩
    rintro u ⟨v, rfl⟩ hu
    have hlt : v.length < (v ++ u).length + 1 := by
      rw [List.length_append]
      omega
    refine List.find?_eq_none.mp hnone v.length (mem_cuts.mpr hlt) ?_
    rwa [List.drop_left, matchesAll_iff]

/-! ### Reading patterns -/

/-- A bracket expression ends, or it goes on behind one of its members. -/
theorem bracket_cons {count : Nat} {first : Bool} {c : Marked} {w rest : List Marked}
    {ranges : List (Char × Char)} (h : bracket (count + 1) first (c :: w) = some (ranges, rest)) :
    rest = w ∨ ∃ more w', w'.length ≤ w.length ∧ bracket count false w' = some (more, rest) := by
  have hgo : ∀ {w' : List Marked} {f : List (Char × Char) → List (Char × Char)},
      w'.length ≤ w.length →
      (bracket count false w').map (fun found => (f found.1, found.2)) = some (ranges, rest) →
      ∃ more w', w'.length ≤ w.length ∧ bracket count false w' = some (more, rest) := by
    intro w' f hle hmap
    obtain ⟨⟨more, rest'⟩, hmore, heq⟩ := Option.map_eq_some_iff.mp hmap
    obtain ⟨-, rfl⟩ := Prod.mk.inj heq
    exact ⟨more, w', hle, hmore⟩
  unfold bracket at h
  split at h
  · obtain ⟨-, rfl⟩ := Prod.mk.inj (Option.some.inj h)
    exact Or.inl rfl
  · split at h
    · exact Or.inr (hgo (by simp) h)
    · split at h
      · split at h
        · exact Or.inr (hgo (by simp; omega) h)
        · exact Or.inr (hgo (Nat.le_refl _) h)
      · exact Or.inr (hgo (Nat.le_refl _) h)

/-- What follows a bracket expression is shorter than what it is read from. -/
theorem length_lt_of_bracket {count : Nat} {first : Bool} {w rest : List Marked}
    {ranges : List (Char × Char)} (h : bracket count first w = some (ranges, rest)) :
    rest.length < w.length := by
  induction count generalizing first w ranges with
  | zero => cases h
  | succ count ih =>
    cases w with
    | nil => cases h
    | cons c w =>
      rcases bracket_cons h with rfl | ⟨more, w', hle, hmore⟩
      · exact Nat.lt_succ_self _
      · exact Nat.lt_succ_of_lt (Nat.lt_of_lt_of_le (ih hmore) hle)

/-- What is left over of a bound does not count. -/
theorem bracket_succ {count : Nat} {first : Bool} {w : List Marked} (h : w.length < count) :
    bracket (count + 1) first w = bracket count first w := by
  induction count generalizing first w with
  | zero => cases h
  | succ count ih =>
    cases w with
    | nil => rfl
    | cons c w =>
      have hgo : ∀ w' : List Marked, w'.length ≤ w.length →
          bracket (count + 1) false w' = bracket count false w' := by
        intro w' hle
        exact ih (by simp at h; omega)
      rw [bracket.eq_def, bracket.eq_def (count + 1)]
      simp only
      rw [hgo w (Nat.le_refl _), hgo _ (show ((w.drop 1).drop _).length ≤ w.length by simp)]
      split
      · rfl
      · split
        · rfl
        · split
          · next dash last after _ =>
            rw [hgo after (by simp; omega)]
          · rfl

theorem patternItems_succ {count : Nat} {w : List Marked} (h : w.length < count) :
    patternItems (count + 1) w = patternItems count w := by
  induction count generalizing w with
  | zero => cases h
  | succ count ih =>
    cases w with
    | nil => rfl
    | cons c w =>
      have hgo : ∀ w' : List Marked, w'.length ≤ w.length →
          patternItems (count + 1) w' = patternItems count w' := by
        intro w' hle
        exact ih (by simp at h; omega)
      rw [patternItems.eq_def, patternItems.eq_def (count + 1)]
      simp only
      rw [hgo w (Nat.le_refl _)]
      split
      · rfl
      · split
        · rfl
        · split
          · rfl
          · split
            · split
              · next ranges rest hbracket =>
                have hle : rest.length ≤ w.length := by
                  refine Nat.le_trans (Nat.le_of_lt (length_lt_of_bracket hbracket)) ?_
                  -- A bracket expression may begin with a mark that negates it.
                  split
                  · split <;> simp
                  · exact Nat.le_refl _
                rw [hgo rest hle]
              · rfl
            · rfl

/-- **A pattern is read to its end**, whatever the bound is, as long as it exceeds the length. -/
theorem patternItems_eq_pattern {count : Nat} {w : List Marked} (h : w.length < count) :
    patternItems count w = pattern w := by
  induction h with
  | refl => rfl
  | step h ih => rw [patternItems_succ h, ih]

/-! ### Characters that stand for themselves -/

/-- The character stands for itself: it is quoted, or none that begins anything else. -/
def Marked.IsPlain (m : Marked) : Prop :=
  m.quoted = true ∨ (m.char ≠ '*' ∧ m.char ≠ '?' ∧ m.char ≠ '[')

theorem patternItems_of_plain {count : Nat} {w : List Marked} (h : ∀ m ∈ w, m.IsPlain)
    (hcount : w.length < count) : patternItems count w = w.map fun m => .char m.char := by
  induction w generalizing count with
  | nil => cases count <;> rfl
  | cons m w ih =>
    cases count with
    | zero => cases hcount
    | succ count =>
      rw [List.forall_mem_cons] at h
      have hrest := ih h.2 (Nat.lt_of_succ_lt_succ hcount)
      rw [patternItems.eq_def, List.map_cons]
      simp only
      rcases h.1 with hquoted | ⟨h₁, h₂, h₃⟩
      · rw [if_pos hquoted, hrest]
      · rw [if_neg h₁, if_neg h₂, if_neg h₃, ite_self, hrest]

theorem stands_chars_iff : Stands (t.map .char) t' ↔ t' = t := by
  induction t generalizing t' with
  | nil => exact stands_nil_iff
  | cons c t ih =>
    rw [List.map_cons, stands_item_iff (by simp)]
    constructor
    · rintro ⟨c', rest, rfl, hc, h⟩
      rw [ih.mp h, of_decide_eq_true hc]
    · rintro rfl
      exact ⟨c, t, rfl, decide_eq_true rfl, ih.mpr rfl⟩

/-- **Characters that are quoted stand for themselves**, and so do those that begin nothing else. -/
theorem stands_pattern_of_plain {w : List Marked} (h : ∀ m ∈ w, m.IsPlain) :
    Stands (pattern w) t ↔ t = w.map Marked.char := by
  rw [pattern, patternItems_of_plain h (Nat.lt_succ_self _), ← stands_chars_iff, List.map_map]
  rfl

/-- Such a pattern is none for the names of files. -/
theorem isGlob_pattern_of_plain {w : List Marked} (h : ∀ m ∈ w, m.IsPlain) :
    isGlob (pattern w) = false := by
  rw [pattern, patternItems_of_plain h (Nat.lt_succ_self _), isGlob, List.any_map]
  simp

/-- The shortest and the longest piece of the form `b*` at the end of `xab*bb`, and the one piece of
the form `*b\*` at its beginning. -/
example :
    let t := Text.ofString "xab*bb"
    let p := pattern [⟨'b', false⟩, ⟨'*', false⟩]
    let q := pattern [⟨'*', false⟩, ⟨'b', false⟩, ⟨'*', true⟩]
    dropEnd false p t = Text.ofString "xab*b" ∧ dropEnd true p t = Text.ofString "xa" ∧
      dropStart true q t = Text.ofString "bb" := by
  decide

end Literate.Shell
