import Literate.Shell.Regex

/-!
# What an expression matches

`Matches` says what it is for a text to match an expression, with one rule for each form.  What the
search finds is such a match (`run_sound`), and the pieces that it cuts a text into make the text
again (`joined_allMatches`).  The search gives up some ways of repeating an empty match, so not
every match is found; an expression that stands for a text itself is found exactly where the text
occurs (`occursIn_literal_iff`).
-/

namespace Literate.Shell.Regex

/-! ### Matches -/

/-- A character that passes a test, in one of the two cases if `fold` is set. -/
def Accepts (fold : Bool) (test : Char → Bool) (c : Char) : Prop :=
  (test c || (fold && (test c.toLower || test c.toUpper))) = true

/-- **An expression matches from one place to another.** -/
inductive Matches (fold : Bool) : Regex → Place → Place → Prop
  | empty (p : Place) : Matches fold .empty p p
  | char {d c : Char} {t : Octets} {p : Place} (hp : p.rest = c :: t)
      (hc : Accepts fold (fun c => c = d) c) : Matches fold (.char d) p (p.skip 1)
  | any {c : Char} {t : Octets} {p : Place} (hp : p.rest = c :: t) :
      Matches fold .any p (p.skip 1)
  | set {negated : Bool} {ranges : List (Char × Char)} {c : Char} {t : Octets} {p : Place}
      (hp : p.rest = c :: t) (hc : Accepts fold (PatternItem.set negated ranges).accepts c) :
      Matches fold (.set negated ranges) p (p.skip 1)
  | start {p : Place} (hp : p.atStart = true) : Matches fold .start p p
  | finish {p : Place} (hp : p.rest = []) : Matches fold .finish p p
  | group {number : Nat} {body : Regex} {p q : Place} (h : Matches fold body p q) :
      Matches fold (.group number body) p { q with
        groups := (number, p.rest.take (p.rest.length - q.rest.length)) :: q.groups }
  | back {number : Nat} {text : Octets} {p : Place}
      (htext : (p.groups.find? fun g => g.1 == number).map Prod.snd = some text)
      (hp : Text.beginsWith text p.rest = true) :
      Matches fold (.back number) p (p.skip text.length)
  | append {first second : Regex} {p q z : Place} (h : Matches fold first p q)
      (h' : Matches fold second q z) : Matches fold (.append first second) p z
  | left {first second : Regex} {p q : Place} (h : Matches fold first p q) :
      Matches fold (.either first second) p q
  | right {first second : Regex} {p q : Place} (h : Matches fold second p q) :
      Matches fold (.either first second) p q
  | stop {most : Option Nat} {body : Regex} (p : Place) :
      Matches fold (.repeated 0 most body) p p
  | more {least : Nat} {most : Option Nat} {body : Regex} {p q z : Place} (hmost : most ≠ some 0)
      (h : Matches fold body p q)
      (h' : Matches fold (.repeated (least - 1) (most.map (· - 1)) body) q z) :
      Matches fold (.repeated least most body) p z

variable {fold : Bool} {r : Regex} {p q z : Place} {fuel : Nat} {next : Place → Option Place}

/-- A match takes characters from the beginning of the rest. -/
theorem Matches.suffix (h : Matches fold r p q) : q.rest <:+ p.rest := by
  induction h with
  | empty p => exact List.suffix_rfl
  | char hp hc => exact List.drop_suffix _ _
  | any hp => exact List.drop_suffix _ _
  | set hp hc => exact List.drop_suffix _ _
  | start hp => exact List.suffix_rfl
  | finish hp => exact List.suffix_rfl
  | group h ih => exact ih
  | back htext hp => exact List.drop_suffix _ _
  | append h h' ih ih' => exact ih'.trans ih
  | left h ih => exact ih
  | right h ih => exact ih
  | stop p => exact List.suffix_rfl
  | more hmost h h' ih ih' => exact ih'.trans ih

/-- What the search for a character says. -/
theorem exists_of_accept {test : Char → Bool}
    (h : (match p.rest with
      | c :: _ =>
        if test c || (fold && (test c.toLower || test c.toUpper)) then next (p.skip 1) else none
      | [] => none) = some z) :
    ∃ c t, p.rest = c :: t ∧ Accepts fold test c ∧ next (p.skip 1) = some z := by
  split at h
  · rename_i c t hrest
    split at h
    · rename_i htest
      exact ⟨c, t, hrest, htest, h⟩
    · cases h
  · cases h

/-- **What the search finds is a match**, and the search goes on from there. -/
theorem run_sound (h : run fold fuel r p next = some z) :
    ∃ q, Matches fold r p q ∧ next q = some z := by
  induction fuel generalizing r p next with
  | zero =>
    unfold run at h
    cases h
  | succ fuel ih =>
    unfold run at h
    extract_lets accept at h
    cases r with
    | empty => exact ⟨p, .empty p, h⟩
    | char d =>
      obtain ⟨c, t, hrest, htest, h⟩ := exists_of_accept h
      exact ⟨_, .char hrest htest, h⟩
    | any =>
      obtain ⟨c, t, hrest, htest, h⟩ := exists_of_accept h
      exact ⟨_, .any hrest, h⟩
    | set negated ranges =>
      obtain ⟨c, t, hrest, htest, h⟩ := exists_of_accept h
      exact ⟨_, .set hrest htest, h⟩
    | start =>
      dsimp only at h
      split at h
      · rename_i hstart
        exact ⟨p, .start hstart, h⟩
      · cases h
    | finish =>
      dsimp only at h
      split at h
      · rename_i hrest
        exact ⟨p, .finish hrest, h⟩
      · cases h
    | group number body =>
      obtain ⟨q, hq, h⟩ := ih h
      exact ⟨_, .group hq, h⟩
    | back number =>
      dsimp only at h
      split at h
      · cases h
      · rename_i text htext
        split at h
        · rename_i hbegins
          exact ⟨_, .back htext hbegins, h⟩
        · cases h
    | append first second =>
      obtain ⟨q, hq, h⟩ := ih h
      obtain ⟨q', hq', h⟩ := ih h
      exact ⟨q', .append hq hq', h⟩
    | either first second =>
      dsimp only at h
      split at h
      · rename_i hfirst
        cases h
        obtain ⟨q, hq, h⟩ := ih hfirst
        exact ⟨q, .left hq, h⟩
      · obtain ⟨q, hq, h⟩ := ih h
        exact ⟨q, .right hq, h⟩
    | repeated least most body =>
      dsimp only at h
      split at h
      · rename_i hmore
        cases h
        split at hmore
        · cases hmore
        · rename_i hmost
          obtain ⟨q, hq, h⟩ := ih hmore
          split at h
          · cases h
          · obtain ⟨q', hq', h⟩ := ih h
            exact ⟨q', .more hmost hq hq', h⟩
      · split at h
        · rename_i hleast
          subst hleast
          exact ⟨p, .stop p, h⟩
        · cases h

/-! ### The first match -/

theorem eq_take_append_of_run {t : Octets} {atStart : Bool}
    (h : run fold fuel r ⟨t, atStart, []⟩ some = some q) :
    Matches fold r ⟨t, atStart, []⟩ q ∧ t = t.take (t.length - q.rest.length) ++ q.rest := by
  obtain ⟨q', hq', hsome⟩ := run_sound h
  cases hsome
  refine ⟨hq', ?_⟩
  obtain ⟨u, hu⟩ := hq'.suffix
  have hu : u ++ q.rest = t := hu
  rw [← hu, List.length_append, Nat.add_sub_cancel, List.take_left]

/-- **The first match cuts the text in three**, and the piece in the middle is a match. -/
theorem find?_eq_some {passed before text after t : Octets} {groups : List (Nat × Octets)}
    {atStart : Bool} (h : r.find? fold passed atStart t = some (before, text, groups, after)) :
    ∃ u b q, before = passed.reverse ++ u ∧ t = u ++ text ++ after ∧
      Matches fold r ⟨text ++ after, b, []⟩ q ∧ q.rest = after ∧ q.groups = groups := by
  induction t generalizing passed atStart with
  | nil =>
    unfold find? at h
    split at h
    · rename_i q hrun
      cases h
      obtain ⟨hmatch, ht⟩ := eq_take_append_of_run hrun
      exact ⟨[], atStart, q, (List.append_nil _).symm, ht, ht ▸ hmatch, rfl, rfl⟩
    · cases h
  | cons c t ih =>
    unfold find? at h
    split at h
    · rename_i q hrun
      cases h
      obtain ⟨hmatch, ht⟩ := eq_take_append_of_run hrun
      exact ⟨[], atStart, q, (List.append_nil _).symm, ht, ht ▸ hmatch, rfl, rfl⟩
    · obtain ⟨u, b, q, hbefore, ht, hmatch⟩ := ih h
      refine ⟨c :: u, b, q, ?_, ?_, hmatch⟩
      · rw [hbefore, List.reverse_cons, List.append_assoc]
        rfl
      · rw [ht]
        rfl

/-! ### All matches -/

/-- The text that has been cut into matches and what follows them. -/
def Match.joined (cut : List Match × Octets) : Octets :=
  (cut.1.flatMap fun m => m.before ++ m.text) ++ cut.2

theorem joined_prepend (octets : Octets) (cut : List Match × Octets) :
    Match.joined (prepend octets cut) = octets ++ Match.joined cut := by
  obtain ⟨ms, rest⟩ := cut
  cases ms with
  | nil => rfl
  | cons m ms =>
    rw [prepend, Match.joined, Match.joined, List.flatMap_cons, List.flatMap_cons]
    simp only [List.append_assoc]

theorem joined_append (ms : List Match) (cut : List Match × Octets) :
    Match.joined (ms ++ cut.1, cut.2) =
      (ms.flatMap fun m => m.before ++ m.text) ++ Match.joined cut := by
  rw [Match.joined, Match.joined, List.flatMap_append, List.append_assoc]

/-- **Nothing of a text is lost when it is cut into its matches.** -/
theorem joined_allMatches (r : Regex) (fold : Bool) (count : Nat) (atStart touching : Bool)
    (t : Octets) : Match.joined (r.allMatches fold count atStart touching t) = t := by
  induction count generalizing atStart touching t with
  | zero => rfl
  | succ count ih =>
    unfold allMatches
    split
    · rfl
    · rename_i before groups after hfind
      obtain ⟨u, b, q, rfl, rfl, -⟩ := find?_eq_some hfind
      extract_lets here left
      -- An empty match that is left out has nothing in front of it.
      have hhere : (here.flatMap fun m => m.before ++ m.text) ++ left = before := by
        simp only [left, here]
        split
        · rename_i hnone
          rw [hnone.2]
          rfl
        · rw [if_neg (List.cons_ne_nil _ _)]
          simp
      rw [List.append_nil]
      cases after with
      | nil => exact hhere.trans (List.append_nil before).symm
      | cons c rest =>
        refine (joined_append here (prepend (left ++ [c]) _)).trans ?_
        rw [joined_prepend, ih, ← List.append_assoc, ← List.append_assoc, hhere, List.append_assoc]
        rfl
    · rename_i before text groups after _ hfind
      obtain ⟨u, b, q, rfl, rfl, -⟩ := find?_eq_some hfind
      refine (joined_append [⟨before, text, groups⟩]
        (r.allMatches fold count false true after)).trans ?_
      rw [ih]
      simp

/-- A match that has been found in a text. -/
def Match.StandsIn (m : Match) (r : Regex) (fold : Bool) (t : Octets) : Prop :=
  ∃ u after b q, t = u ++ m.text ++ after ∧ Matches fold r ⟨m.text ++ after, b, []⟩ q ∧
    q.rest = after ∧ q.groups = m.groups

theorem Match.StandsIn.append_left {m : Match} {t : Octets} (h : m.StandsIn r fold t)
    (passed : Octets) : m.StandsIn r fold (passed ++ t) := by
  obtain ⟨u, after, b, q, rfl, h⟩ := h
  exact ⟨passed ++ u, after, b, q, by simp only [List.append_assoc], h⟩

/-- What stands in front of a match is none of it. -/
theorem exists_of_mem_prepend {octets : Octets} {cut : List Match × Octets} {m : Match}
    (h : m ∈ (prepend octets cut).1) : ∃ m' ∈ cut.1, m'.text = m.text ∧ m'.groups = m.groups := by
  obtain ⟨ms, rest⟩ := cut
  cases ms with
  | nil => cases h
  | cons m' ms =>
    rcases List.mem_cons.mp h with rfl | h
    · exact ⟨m', List.mem_cons_self, rfl, rfl⟩
    · exact ⟨m, List.mem_cons_of_mem _ h, rfl, rfl⟩

/-- **Each of the matches is one.** -/
theorem standsIn_of_mem_allMatches {count : Nat} {atStart touching : Bool} {t : Octets} {m : Match}
    (h : m ∈ (r.allMatches fold count atStart touching t).1) : m.StandsIn r fold t := by
  induction count generalizing atStart touching t m with
  | zero => cases h
  | succ count ih =>
    unfold allMatches at h
    split at h
    · cases h
    · rename_i before groups after hfind
      obtain ⟨u, b, q, rfl, rfl, hmatch⟩ := find?_eq_some hfind
      extract_lets here left at h
      have hhere (hm : m ∈ here) : m.StandsIn r fold (before ++ [] ++ after) := by
        simp only [here] at hm
        split at hm
        · cases hm
        · cases List.mem_singleton.mp hm
          exact ⟨before, after, b, q, rfl, hmatch⟩
      cases after with
      | nil => exact hhere h
      | cons c rest =>
        rcases List.mem_append.mp h with h | h
        · exact hhere h
        · obtain ⟨m', hm', htext, hgroups⟩ := exists_of_mem_prepend h
          have hstands : m.StandsIn r fold rest := by
            have hstands := ih hm'
            unfold Match.StandsIn at hstands ⊢
            rwa [htext, hgroups] at hstands
          have hmore := hstands.append_left (before ++ [c])
          rwa [List.append_assoc, List.singleton_append, ← List.append_nil before] at hmore
    · rename_i before text groups after _ hfind
      obtain ⟨u, b, q, rfl, rfl, hmatch⟩ := find?_eq_some hfind
      rcases List.mem_cons.mp h with rfl | h
      · exact ⟨before, after, b, q, rfl, hmatch⟩
      · exact (ih h).append_left (before ++ text)

theorem allMatches_eq_nil_iff {count : Nat} {atStart : Bool} {t : Octets} :
    (r.allMatches fold (count + 1) atStart false t).1 = [] ↔ r.find? fold [] atStart t = none := by
  unfold allMatches
  split
  · rename_i hnone
    exact iff_of_true rfl hnone
  · rename_i before groups after hfind
    refine iff_of_false ?_ (by rw [hfind]; exact Option.some_ne_none _)
    rw [if_neg (fun h => Bool.false_ne_true h.1)]
    cases after with
    | nil => exact List.cons_ne_nil _ _
    | cons c rest => exact List.cons_ne_nil _ _
  · rename_i hfind
    refine iff_of_false ?_ (by rw [hfind]; exact Option.some_ne_none _)
    exact List.cons_ne_nil _ _

/-! ### Texts that stand for themselves -/

theorem eq_append_of_literal {w : Octets} (h : Matches false (literal w) p q) :
    p.rest = w ++ q.rest := by
  induction w generalizing p with
  | nil =>
    cases h
    rfl
  | cons c w ih =>
    cases h with
    | append h h' =>
      cases h with
      | char hp hc =>
        have hrest := ih h'
        rw [Place.skip, hp] at hrest
        have hc := of_decide_eq_true ((Bool.or_false _).symm.trans hc)
        rw [hp, hc, List.cons_append]
        exact congrArg (List.cons c) hrest

theorem run_char {c : Char} {t : Octets} (hp : p.rest = c :: t) (next : Place → Option Place) :
    run fold (fuel + 1) (.char c) p next = next (p.skip 1) := by
  unfold run
  dsimp only
  rw [hp]
  simp

theorem run_literal {w t : Octets} (hfuel : w.length < fuel) (b : Bool)
    (groups : List (Nat × Octets)) (next : Place → Option Place) :
    run false fuel (literal w) ⟨w ++ t, b, groups⟩ next = next ⟨t, b && w == [], groups⟩ := by
  induction w generalizing fuel b with
  | nil =>
    cases fuel with
    | zero => cases hfuel
    | succ fuel =>
      show next ⟨t, b, groups⟩ = _
      rw [beq_self_eq_true, Bool.and_true]
  | cons c w ih =>
    rw [List.length_cons] at hfuel
    obtain ⟨fuel, rfl⟩ := Nat.exists_eq_add_of_le' (Nat.zero_lt_of_lt hfuel)
    obtain ⟨fuel, rfl⟩ := Nat.exists_eq_add_of_le' (show 1 ≤ fuel by omega)
    have hfirst := @run_char false ⟨c :: (w ++ t), b, groups⟩ fuel c (w ++ t) rfl
      fun q => run false (fuel + 1) (literal w) q next
    refine hfirst.trans ((ih (by omega) (b && false)).trans ?_)
    simp

theorem run_literal_isSome_iff {w t : Octets} {b : Bool} (hfuel : t.length < fuel) :
    (run false fuel (literal w) ⟨t, b, []⟩ some).isSome = true ↔ w <+: t := by
  constructor
  · intro h
    obtain ⟨q, hq⟩ := Option.isSome_iff_exists.mp h
    obtain ⟨q', hmatch, -⟩ := run_sound hq
    exact ⟨q'.rest, (eq_append_of_literal hmatch).symm⟩
  · rintro ⟨t, rfl⟩
    rw [List.length_append] at hfuel
    rw [run_literal (by omega)]
    rfl

theorem find?_literal_isSome_iff {w t : Octets} (passed : Octets) (b : Bool) :
    ((literal w).find? false passed b t).isSome = true ↔ w <:+: t := by
  have hrun (t : Octets) (b : Bool) :=
    @run_literal_isSome_iff (8 * t.length + 64) w t b (by omega)
  induction t generalizing passed b with
  | nil =>
    rw [List.infix_nil, ← List.prefix_nil, ← hrun [] b]
    unfold find?
    split
    · rename_i hsome
      rw [hsome]
      rfl
    · rename_i hnone
      rw [hnone]
      rfl
  | cons c t ih =>
    rw [List.infix_cons_iff, ← hrun (c :: t) b]
    unfold find?
    split
    · rename_i hsome
      rw [hsome]
      exact iff_of_true rfl (.inl rfl)
    · rename_i hnone
      rw [hnone]
      refine (ih (c :: passed) false).trans ?_
      simp

/-- **A text is found exactly where it occurs.** -/
theorem occursIn_literal_iff {w t : Octets} :
    (literal w).occursIn false t = true ↔ w <:+: t :=
  find?_literal_isSome_iff [] true

end Literate.Shell.Regex
