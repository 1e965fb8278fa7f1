import Literate.Proofs.Shell.Line

/-!
# How far a reader gets

A reader takes text away from a script and puts none back, and the number of its line never goes
down (`Script.Reaches`).  Lines are counted right as long as the script has no text of its own
below a command: every end of a line is passed over once.  `Reader.Ensures` carries this through the
readers, with a fact about what is read.  The readers of commands call one another, so what is known
of those with less to go is put together in `Advancing`, and there is one lemma for each of them.

A command is not empty, so each line that is read makes the script shorter
(`reaches_of_nextCommand`), and an error names a line of the script (`line_of_nextCommand`).  The
bound on the number of lines that are carried out is therefore no bound at all
(`Run.script_eq_iterate`).
-/

namespace Literate.Shell

namespace Script

/-- The number of the last line, as far as the reader can tell. -/
def lastLine (s : Script) : Nat :=
  s.line + s.skipped + s.rest.count '\n'

/-- **What reading does to a script.**  If it is `plain`, it has no text below a command.  Such a
text may come without the line that ends it, and then a line is counted that is not there. -/
structure Reaches (plain : Prop) (s s' : Script) : Prop where
  rest : s'.rest.Sublist s.rest
  line : s.line ≤ s'.line
  lastLine : plain → s'.lastLine = s.lastLine

variable {plain : Prop} {s s' s'' : Script} {t u : Octets}

theorem Reaches.refl (s : Script) : s.Reaches plain s :=
  ⟨List.Sublist.refl _, Nat.le_refl _, fun _ => rfl⟩

theorem Reaches.trans (h : Reaches plain s s') (h' : Reaches plain s' s'') :
    Reaches plain s s'' where
  rest := h'.rest.trans h.rest
  line := Nat.le_trans h.line h'.line
  lastLine hplain := (h'.lastLine hplain).trans (h.lastLine hplain)

theorem Reaches.length_le (h : Reaches plain s s') : s'.rest.length ≤ s.rest.length :=
  h.rest.length_le

/-- Text of the line is passed over. -/
theorem reaches_of_rest_eq (h : s.rest = u ++ t) (hu : '\n' ∉ u) :
    Reaches plain s { s with rest := t } where
  rest := h ▸ List.sublist_append_right u t
  line := Nat.le_refl _
  lastLine _ := by
    rw [lastLine, lastLine, h, List.count_append, List.count_eq_zero.mpr hu, Nat.zero_add]

/-- Text is passed over, and the ends of lines in it are counted. -/
theorem reaches_of_suffix (h : t <:+ s.rest) : Reaches plain s
    { s with rest := t, line := s.line + (s.rest.count '\n' - t.count '\n') } where
  rest := h.sublist
  line := Nat.le_add_right _ _
  lastLine _ := by
    have hcount := h.sublist.count_le '\n'
    simp only [lastLine]
    omega

theorem reaches_nextLine (h : s.rest = '\n' :: t) :
    Reaches plain s ⟨t, s.line + 1 + s.skipped, 0⟩ where
  rest := h ▸ List.sublist_cons_self _ _
  line := by
    show s.line ≤ s.line + 1 + s.skipped
    omega
  lastLine _ := by
    simp only [lastLine, h, List.count_cons_self]
    omega

end Script

namespace Reader

variable {α β : Type} {plain : Prop}

/-- What a reader does from a place on: `post` is what is known of its result and of the place that
it gets to.  An error names a line that has been reached. -/
def Ensures (r : Reader α) (plain : Prop) (s : Script) (post : α → Script → Prop) : Prop :=
  (plain → '<' ∉ s.rest) →
    match r s with
    | .ok (a, s') => s.Reaches plain s' ∧ post a s'
    | .error e => s.line ≤ e.line ∧ (plain → e.line ≤ s.lastLine)

/-- A reader of which no more is known than how it gets on. -/
def Advances (r : Reader α) (plain : Prop) (s : Script) : Prop :=
  r.Ensures plain s fun _ _ => True

variable {r : Reader α} {f : α → Reader β} {s : Script} {post : α → Script → Prop}
  {post' : β → Script → Prop} {t u : Octets}

theorem Ensures.of_ok {a : α} {s' : Script} (h : Ensures r plain s post)
    (hs : plain → '<' ∉ s.rest) (hr : r s = .ok (a, s')) : s.Reaches plain s' ∧ post a s' := by
  have h := h hs
  rw [hr] at h
  exact h

theorem Ensures.of_error {e : ReadError} (h : Ensures r plain s post)
    (hs : plain → '<' ∉ s.rest) (hr : r s = .error e) :
    s.line ≤ e.line ∧ (plain → e.line ≤ s.lastLine) := by
  have h := h hs
  rw [hr] at h
  exact h

theorem Ensures.imp {post'' : α → Script → Prop} (h : Ensures r plain s post)
    (himp : ∀ a s', s.Reaches plain s' → post a s' → post'' a s') : Ensures r plain s post'' := by
  intro hs
  have h := h hs
  split at h
  · exact ⟨h.1, himp _ _ h.1 h.2⟩
  · exact h

theorem Ensures.advances (h : Ensures r plain s post) : Advances r plain s :=
  h.imp fun _ _ _ _ => trivial

theorem ensures_pure {a : α} (h : post a s) : (pure a : Reader α).Ensures plain s post :=
  fun _ => ⟨.refl s, h⟩

theorem advances_pure (a : α) (s : Script) : (pure a : Reader α).Advances plain s :=
  ensures_pure trivial

theorem Ensures.bind (h : Ensures r plain s post)
    (hf : ∀ a s', s.Reaches plain s' → post a s' → (f a).Ensures plain s' post') :
    (r >>= f).Ensures plain s post' := by
  intro hs
  cases hr : r s with
  | error e =>
    have hbind : (r >>= f) s = .error e := by
      show StateT.bind r f s = _
      unfold StateT.bind
      rw [hr]
      rfl
    rw [hbind]
    exact h.of_error hs hr
  | ok result =>
    obtain ⟨a, s'⟩ := result
    obtain ⟨hreaches, hpost⟩ := h.of_ok hs hr
    have hrest := hf a s' hreaches hpost fun hplain hmem => hs hplain (hreaches.rest.subset hmem)
    rw [bind_apply_of_eq_ok hr]
    split at hrest
    · exact ⟨hreaches.trans hrest.1, hrest.2⟩
    · exact ⟨Nat.le_trans hreaches.line hrest.1, fun hplain =>
        hreaches.lastLine hplain ▸ hrest.2 hplain⟩

theorem Advances.bind (h : Advances r plain s)
    (hf : ∀ a s', s.Reaches plain s' → (f a).Ensures plain s' post') :
    (r >>= f).Ensures plain s post' :=
  Ensures.bind h fun a s' hreaches _ => hf a s' hreaches

/-- What has been taken away is not put back. -/
theorem Ensures.bind_advances {n : Nat}
    (h : Ensures r plain s fun _ s' => s'.rest.length < n)
    (hf : ∀ a s', (f a).Advances plain s') :
    (r >>= f).Ensures plain s fun _ s' => s'.rest.length < n :=
  h.bind fun a s' _ hlt => (hf a s').imp fun _ _ h'' _ => Nat.lt_of_le_of_lt h''.length_le hlt

theorem Ensures.bind_advances_of {p : Prop} {n : Nat}
    (h : Ensures r plain s fun _ s' => p → s'.rest.length < n)
    (hf : ∀ a s', (f a).Advances plain s') :
    (r >>= f).Ensures plain s fun _ s' => p → s'.rest.length < n := by
  by_cases hp : p
  · exact ((h.imp fun _ _ _ hlt => hlt hp).bind_advances hf).imp fun _ _ _ hlt _ => hlt
  · exact (h.advances.bind fun a s' _ => hf a s').imp fun _ _ _ _ h => absurd h hp

theorem ensures_rest_bind {f : Octets → Reader β} (h : (f s.rest).Ensures plain s post') :
    (rest >>= f).Ensures plain s post' :=
  h

theorem ensures_bound_bind {f : Nat → Reader β}
    (h : (f (s.rest.length + 1)).Ensures plain s post') : (bound >>= f).Ensures plain s post' :=
  h

theorem ensures_get_bind {f : Script → Reader β} (h : (f s).Ensures plain s post') :
    (get >>= f).Ensures plain s post' :=
  h

theorem ensures_fail (message : Octets) : (fail message : Reader α).Ensures plain s post := by
  refine fun _ => ⟨Nat.le_refl _, fun _ => ?_⟩
  show s.line ≤ s.line + s.skipped + _
  omega

theorem ensures_unexpected (expected : Option String) :
    (unexpected expected : Reader α).Ensures plain s post := by
  unfold unexpected
  exact ensures_rest_bind (ensures_fail _)

/-- There is nothing after an error. -/
theorem ensures_unexpected_bind (expected : Option String) :
    (unexpected expected >>= f).Ensures plain s post' :=
  (@ensures_unexpected α plain s (fun _ _ => False) expected).bind fun _ _ _ h => h.elim

/-- Text of the line is passed over. -/
theorem ensures_setRest (h : s.rest = u ++ t) (hu : '\n' ∉ u) (hne : u ≠ []) :
    (setRest t).Ensures plain s fun _ s' => s'.rest.length < s.rest.length := by
  refine fun _ => ⟨Script.reaches_of_rest_eq h hu, ?_⟩
  have hpos := List.length_pos_iff.mpr hne
  rw [h, List.length_append]
  show t.length < _
  omega

theorem ensures_setRest_cons {c : Char} (h : s.rest = c :: t) (hc : c ≠ '\n') :
    (setRest t).Ensures plain s fun _ s' => s'.rest.length < s.rest.length :=
  @ensures_setRest plain s t [c] h (by simpa using hc.symm) (List.cons_ne_nil _ _)

/-! ### Tokens -/

theorem skipBlanks_suffix (inComment : Bool) (t : Octets) : skipBlanks inComment t <:+ t := by
  fun_induction skipBlanks inComment t with
  | case1 => exact List.suffix_rfl
  | case2 t => exact List.suffix_cons _ _
  | case3 b t h ih => exact ih.trans ((List.suffix_cons _ _).trans (List.suffix_cons _ _))
  | case4 => exact List.suffix_rfl
  | case5 c t _ _ ih => exact ih.trans (List.suffix_cons _ _)
  | case6 b c t _ _ _ _ ih => exact ih.trans (List.suffix_cons _ _)
  | case7 b t _ _ _ _ ih => exact ih.trans (List.suffix_cons _ _)
  | case8 => exact List.suffix_rfl

theorem advances_blanks (s : Script) : blanks.Advances plain s := by
  unfold blanks
  refine ensures_rest_bind fun _ => ⟨Script.reaches_of_suffix (skipBlanks_suffix _ _), trivial⟩

theorem scanWord_suffix {opened : List Open} {acc t w after : Octets}
    (h : scanWord opened acc t = .ok (w, after)) : after <:+ t := by
  fun_induction scanWord opened acc t with
  | case1 =>
    cases h
    exact List.suffix_rfl
  | case2 => cases h
  | case3 =>
    cases h
    exact List.suffix_rfl
  | case4 =>
    cases h
    exact List.nil_suffix
  | case5 => cases h
  | case6 =>
    cases h
    exact List.suffix_rfl
  | case7 _ _ _ _ _ _ _ ih =>
    exact (ih h).trans ((List.suffix_cons _ _).trans (List.suffix_cons _ _))
  | case8 _ _ _ _ _ _ _ _ _ ih =>
    exact (ih h).trans ((List.suffix_cons _ _).trans (List.suffix_cons _ _))
  | case9 _ _ _ _ _ _ _ _ _ ih => exact (ih h).trans (List.suffix_cons _ _)

/-- A word is not empty unless a character that ends one comes first. -/
theorem suffix_of_scanWord_cons {acc t w after : Octets} {c : Char}
    (h : scanWord [] acc (c :: t) = .ok (w, after)) (hc : isMeta c = false) : after <:+ t := by
  have hmeta : ¬(([] : List Open) = [] ∧ isMeta c = true) := by
    rw [hc]
    simp
  cases t with
  | nil =>
    rw [scanWord, if_neg hmeta] at h
    split at h
    · cases h
      exact List.suffix_rfl
    · cases h
  | cons d t =>
    rw [scanWord, if_neg hmeta] at h
    split at h
    · exact (scanWord_suffix h).trans (List.suffix_cons _ _)
    · split at h
      · exact (scanWord_suffix h).trans (List.suffix_cons _ _)
      · exact scanWord_suffix h

theorem ensures_word (s : Script) : word.Ensures plain s fun _ s' =>
    ∀ c, s.rest.head? = some c → isMeta c = false → s'.rest.length < s.rest.length := by
  unfold word
  refine ensures_rest_bind ?_
  split
  · exact ensures_fail _
  · rename_i w after hscan
    refine ensures_rest_bind fun _ => ⟨Script.reaches_of_suffix (scanWord_suffix hscan), ?_⟩
    intro c hc hmeta
    obtain ⟨t, hrest⟩ := List.head?_eq_some_iff.mp hc
    rw [hrest] at hscan ⊢
    exact Nat.lt_succ_of_le (suffix_of_scanWord_cons hscan hmeta).length_le

theorem exists_of_nextIs {w : String} (h : nextIs w t = true) :
    t = Text.ofString w ++ t.drop w.length := by
  unfold nextIs at h
  cases hafter : Text.after? (Text.ofString w) t with
  | none =>
    rw [hafter] at h
    cases h
  | some u =>
    have ht := Text.after?_eq_some_iff.mp hafter
    have hlength : w.length = (Text.ofString w).length := String.length_toList.symm
    rw [ht, hlength, List.drop_left]

theorem ensures_setRest_drop_one {c : Char} (h : s.rest.head? = some c) (hc : c ≠ '\n') :
    (setRest (s.rest.drop 1)).Ensures plain s fun _ s' =>
      s'.rest.length < s.rest.length := by
  obtain ⟨t, hrest⟩ := List.head?_eq_some_iff.mp h
  refine ensures_setRest_cons ?_ hc
  rw [hrest]
  rfl

theorem eq_append_drop_of_beginsWith (h : Text.beginsWith u t = true) :
    t = u ++ t.drop u.length := by
  obtain ⟨after, hafter⟩ := Option.isSome_iff_exists.mp h
  rw [Text.after?_eq_some_iff.mp hafter, List.drop_left]

/-- A reserved word is passed over. -/
theorem ensures_setRest_drop {w : String} {length : Nat} (h : nextIs w s.rest = true)
    (hlength : w.length = length) (hw : '\n' ∉ Text.ofString w) (hne : Text.ofString w ≠ []) :
    (setRest (s.rest.drop length)).Ensures plain s fun _ s' =>
      s'.rest.length < s.rest.length :=
  hlength ▸ ensures_setRest (exists_of_nextIs h) hw hne

theorem advances_expect {w : String} (s : Script) (hw : '\n' ∉ Text.ofString w)
    (hne : Text.ofString w ≠ []) : (expect w).Advances plain s := by
  unfold expect
  refine (advances_blanks s).bind fun _ s' _ => ensures_rest_bind ?_
  split
  · rename_i h
    exact (ensures_setRest_drop h rfl hw hne).advances
  · exact ensures_unexpected _

/-! ### Redirections -/

theorem hereLines_suffix (tabs : Bool) (stop : Octets) (count : Nat) (acc : List Octets)
    (t : Octets) : (hereLines tabs stop count acc t).2 <:+ t := by
  fun_induction hereLines tabs stop count acc t with
  | case1 => exact List.suffix_rfl
  | case2 => exact List.suffix_rfl
  | case3 => exact List.drop_suffix _ _
  | case4 _ _ _ _ _ _ _ _ _ ih => exact ih.trans (List.drop_suffix _ _)

theorem advances_hereText (tabs : Bool) (stop : Octets) (s : Script) (hplain : ¬plain) :
    (hereText tabs stop).Advances plain s := by
  unfold hereText
  refine ensures_rest_bind ?_
  extract_lets current
  split
  · exact advances_pure _ _
  · rename_i c below hbelow
    refine fun _ => ⟨⟨?_, Nat.le_refl _, fun h => absurd h hplain⟩, trivial⟩
    have hrest : s.rest = current ++ c :: below := by
      rw [← hbelow]
      exact List.takeWhile_append_dropWhile.symm
    have hc : c = '\n' := by
      have hhead := List.head?_dropWhile_not (fun c : Char => decide (c ≠ '\n')) s.rest
      rw [hbelow] at hhead
      simpa using hhead
    show (current ++ '\n' :: _).Sublist s.rest
    rw [hrest, hc]
    exact (List.Sublist.refl _).append ((hereLines_suffix _ _ _ _ _).sublist.cons_cons _)

theorem ensures_redirect? (s : Script) : redirect?.Ensures plain s fun r s' =>
    r.isSome → s'.rest.length < s.rest.length := by
  unfold redirect?
  refine ensures_rest_bind ?_
  extract_lets digits at? number fd target here
  have hdigits : '\n' ∉ digits := by
    intro hmem
    exact absurd (List.all_eq_true.mp List.all_takeWhile _ hmem) (by decide)
  have hat (op : Octets) (h : at? = some op) : s.rest = digits ++ op := by
    have hop : s.rest.dropWhile Char.isDigit = op := by
      simp only [at?] at h
      split at h <;> rename_i heq
      · exact heq.trans (Option.some.inj h)
      · exact heq.trans (Option.some.inj h)
      · cases h
    rw [← hop]
    exact List.takeWhile_append_dropWhile.symm
  -- Whatever follows, the characters of the operator are gone.
  have hpassed {u after : Octets} (h : at? = some (u ++ after)) (hu : '\n' ∉ u) (hne : u ≠ []) :
      (setRest after).Ensures plain s fun _ s' => s'.rest.length < s.rest.length := by
    have hrest : s.rest = digits ++ u ++ after := by
      rw [hat _ h, List.append_assoc]
    exact ensures_setRest hrest (by simp [hdigits, hu]) (by simp [hne])
  have htarget (standard : Nat) (kind : RedirectKind) {u after : Octets}
      (h : at? = some (u ++ after)) (hu : '\n' ∉ u) (hne : u ≠ []) :
      (target standard kind after).Ensures plain s fun _ s' =>
        s'.rest.length < s.rest.length := by
    refine (hpassed h hu hne).bind fun _ s₁ _ hlt => (advances_blanks s₁).bind fun _ s₂ h₂ => ?_
    refine (ensures_word s₂).advances.bind fun w s₃ h₃ => ?_
    have hshort : s₃.rest.length < s.rest.length :=
      Nat.lt_of_le_of_lt (Nat.le_trans h₃.length_le h₂.length_le) hlt
    dsimp only
    split
    · exact ensures_unexpected_bind _
    · exact ensures_pure hshort
  have hhere (tabs : Bool) {u after : Octets} (h : at? = some (u ++ after)) (hu : '\n' ∉ u)
      (hmem : '<' ∈ u) : (here tabs after).Ensures plain s fun _ s' =>
        s'.rest.length < s.rest.length := by
    intro hs
    have hplain : ¬plain := by
      intro hplain
      refine hs hplain ?_
      rw [hat _ h]
      exact List.mem_append_right _ (List.mem_append_left _ hmem)
    refine Ensures.bind (hpassed h hu (List.ne_nil_of_mem hmem)) (fun _ s₁ _ hlt => ?_) hs
    refine (advances_blanks s₁).bind fun _ s₂ h₂ => ?_
    refine (ensures_word s₂).advances.bind fun w s₃ h₃ => ?_
    refine (advances_hereText tabs _ s₃ hplain).bind fun body s₄ h₄ => ensures_pure ?_
    have hle := Nat.le_trans (Nat.le_trans h₄.length_le h₃.length_le) h₂.length_le
    exact Nat.lt_of_le_of_lt hle hlt
  clear_value at? target here
  have himp {r : Reader (Option Redirect)}
      (h : r.Ensures plain s fun _ s' => s'.rest.length < s.rest.length) :
      r.Ensures plain s fun r s' => r.isSome → s'.rest.length < s.rest.length :=
    h.imp fun _ _ _ hlt _ => hlt
  cases at? with
  | none => exact ensures_pure fun h => absurd h Bool.false_ne_true
  | some op =>
    dsimp only
    split
    case h_1 after => exact himp (@hhere true ['<', '<', '-'] after rfl (by decide) (by decide))
    case h_2 after _ => exact himp (@hhere false ['<', '<'] after rfl (by decide) (by decide))
    case h_3 after => exact himp (@htarget _ _ ['<', '&'] after rfl (by decide) (by decide))
    case h_4 after => exact himp (@htarget _ _ ['<', '>'] after rfl (by decide) (by decide))
    case h_5 _ after _ _ _ _ => exact himp (@htarget _ _ ['<'] after rfl (by decide) (by decide))
    case h_6 after => exact himp (@htarget _ _ ['>', '>'] after rfl (by decide) (by decide))
    case h_7 after => exact himp (@htarget _ _ ['>', '&'] after rfl (by decide) (by decide))
    case h_8 after => exact himp (@htarget _ _ ['>', '|'] after rfl (by decide) (by decide))
    case h_9 _ after _ _ _ => exact himp (@htarget _ _ ['>'] after rfl (by decide) (by decide))
    case h_10 => exact ensures_pure fun h => absurd h Bool.false_ne_true

theorem advances_redirects (count : Nat) (s : Script) : (redirects count).Advances plain s := by
  induction count generalizing s with
  | zero =>
    rw [redirects]
    exact advances_pure _ _
  | succ count ih =>
    rw [redirects]
    refine (advances_blanks s).bind fun _ s₁ _ => ?_
    refine (ensures_redirect? s₁).advances.bind fun r s₂ _ => ?_
    split
    · exact advances_pure _ _
    · exact (ih s₂).bind fun _ s₃ _ => advances_pure _ _

/-! ### Words and lines -/

/-- Words and redirections are read, or nothing is taken out of the script but blanks. -/
theorem ensures_simple (count : Nat) (words : List Word) (redirects : List Redirect) (s : Script) :
    (simple count words redirects).Ensures plain s fun read s' =>
      s'.rest.length < s.rest.length ∨ read = (words.reverse, redirects.reverse) := by
  induction count generalizing words redirects s with
  | zero =>
    rw [simple]
    exact ensures_pure (.inr rfl)
  | succ count ih =>
    rw [simple]
    refine (advances_blanks s).bind fun _ s₁ h₁ => ?_
    refine (ensures_redirect? s₁).bind fun r s₂ h₂ hr => ?_
    split
    · refine (ih _ _ s₂).imp fun _ s₃ h₃ _ => .inl ?_
      exact Nat.lt_of_le_of_lt h₃.length_le (Nat.lt_of_lt_of_le (hr rfl) h₁.length_le)
    · refine ensures_rest_bind ?_
      split
      · exact ensures_pure (.inr rfl)
      · rename_i c t hrest
        split
        · exact ensures_pure (.inr rfl)
        · rename_i hmeta
          refine (ensures_word s₂).bind fun w s₃ h₃ hw => (ih _ _ s₃).imp fun _ s₄ h₄ _ => .inl ?_
          have hlt := hw c (by rw [hrest]; rfl) (Bool.eq_false_iff.mpr hmeta)
          have hle := Nat.le_trans h₂.length_le h₁.length_le
          exact Nat.lt_of_le_of_lt h₄.length_le (Nat.lt_of_lt_of_le hlt hle)

theorem ensures_nextLine (h : s.rest = '\n' :: t) :
    (nextLine t).Ensures plain s fun _ s' => s'.rest.length < s.rest.length := by
  refine fun _ => ⟨Script.reaches_nextLine h, ?_⟩
  rw [h]
  exact Nat.lt_succ_self _

theorem advances_newlines (count : Nat) (s : Script) : (newlines count).Advances plain s := by
  induction count generalizing s with
  | zero =>
    rw [newlines]
    exact advances_pure _ _
  | succ count ih =>
    rw [newlines]
    refine (advances_blanks s).bind fun _ s₁ _ => ensures_rest_bind ?_
    split
    · rename_i hrest
      exact (ensures_nextLine hrest).advances.bind fun _ s₂ _ => ih s₂
    · exact advances_pure _ _

theorem advances_wordList (count : Nat) (s : Script) : (wordList count).Advances plain s := by
  induction count generalizing s with
  | zero =>
    rw [wordList]
    exact advances_pure _ _
  | succ count ih =>
    rw [wordList]
    refine (advances_blanks s).bind fun _ s₁ _ => ensures_rest_bind ?_
    split
    · exact advances_pure _ _
    · split
      · exact advances_pure _ _
      · refine (ensures_word s₁).advances.bind fun w s₂ _ => ?_
        exact (ih s₂).bind fun _ s₃ _ => advances_pure _ _

theorem advances_patterns (count : Nat) (s : Script) : (patterns count).Advances plain s := by
  induction count generalizing s with
  | zero =>
    rw [patterns]
    exact advances_pure _ _
  | succ count ih =>
    rw [patterns]
    refine (advances_blanks s).bind fun _ s₁ _ => (ensures_word s₁).advances.bind fun w s₂ _ => ?_
    refine (advances_blanks s₂).bind fun _ s₃ _ => ensures_rest_bind ?_
    split
    · rename_i t hrest
      refine (ensures_setRest_cons hrest (by decide)).advances.bind fun _ s₄ _ => ?_
      exact advances_pure _ _
    · rename_i t hrest
      refine (ensures_setRest_cons hrest (by decide)).advances.bind fun _ s₄ _ => ?_
      exact (ih s₄).bind fun _ s₅ _ => advances_pure _ _
    · exact ensures_unexpected _

/-! ### Commands -/

/-- What is known of the readers that have less to go.  A command is not empty, as long as the
reader may go deep enough to look at one. -/
structure Advancing (plain : Prop) (fuel : Nat) : Prop where
  list : ∀ s, (readList fuel).Advances plain s
  commands : ∀ s, (readCommands fuel).Advances plain s
  andOr : ∀ s, (readAndOr fuel).Ensures plain s fun _ s' =>
    3 < fuel → s'.rest.length < s.rest.length
  andOrRest : ∀ first s, (readAndOrRest fuel first).Advances plain s
  pipeline : ∀ s, (readPipeline fuel).Ensures plain s fun _ s' =>
    2 < fuel → s'.rest.length < s.rest.length
  stages : ∀ s, (readStages fuel).Ensures plain s fun _ s' =>
    1 < fuel → s'.rest.length < s.rest.length
  branches : ∀ s, (readBranches fuel).Advances plain s
  body : ∀ s, (readBody fuel).Advances plain s
  arms : ∀ s, (readArms fuel).Advances plain s
  compound : ∀ s, (readCompound fuel).Ensures plain s fun c s' =>
    c.isSome → s'.rest.length < s.rest.length
  command : ∀ s, (readCommand fuel).Ensures plain s fun _ s' =>
    0 < fuel → s'.rest.length < s.rest.length

section Step

variable {fuel : Nat} (h : Advancing plain fuel)

include h

theorem advances_readList_succ (s : Script) : (readList (fuel + 1)).Advances plain s := by
  rw [readList]
  refine ensures_bound_bind ((advances_newlines _ s).bind fun _ s₁ _ => ensures_rest_bind ?_)
  split
  · exact advances_pure _ _
  · refine (h.andOr s₁).advances.bind fun c s₂ _ => (advances_blanks s₂).bind fun _ s₃ _ => ?_
    refine ensures_rest_bind ?_
    split
    · exact advances_pure _ _
    · rename_i t _ hrest
      refine (ensures_setRest_cons hrest (by decide)).advances.bind fun _ s₄ _ => ?_
      exact (h.list s₄).bind fun _ s₅ _ => advances_pure _ _
    · rename_i t hrest
      refine (ensures_setRest_cons hrest (by decide)).advances.bind fun _ s₄ _ => ?_
      exact (h.list s₄).bind fun _ s₅ _ => advances_pure _ _
    · exact (h.list s₃).bind fun _ s₄ _ => advances_pure _ _
    · exact advances_pure _ _

theorem advances_readCommands_succ (s : Script) : (readCommands (fuel + 1)).Advances plain s := by
  rw [readCommands]
  refine ensures_bound_bind ((advances_newlines _ s).bind fun _ s₁ _ => ensures_rest_bind ?_)
  split
  · exact ensures_unexpected_bind _
  · exact h.list s₁

theorem ensures_readAndOr_succ (s : Script) :
    (readAndOr (fuel + 1)).Ensures plain s fun _ s' =>
      3 < fuel + 1 → s'.rest.length < s.rest.length := by
  rw [readAndOr]
  refine Ensures.bind_advances_of ?_ fun first s₁ => h.andOrRest first s₁
  exact (h.pipeline s).imp fun _ _ _ hlt hfuel => hlt (Nat.lt_of_succ_lt_succ hfuel)

theorem advances_readAndOrRest_succ (first : Command) (s : Script) :
    (readAndOrRest (fuel + 1) first).Advances plain s := by
  rw [readAndOrRest]
  refine (advances_blanks s).bind fun _ s₁ _ => ensures_rest_bind ?_
  split
  · rename_i t hrest
    refine (@ensures_setRest plain s₁ t ['&', '&'] hrest (by decide) (by decide)).advances.bind
      fun _ s₂ _ => ensures_bound_bind ?_
    refine (advances_newlines _ s₂).bind fun _ s₃ _ => ?_
    exact (h.pipeline s₃).advances.bind fun second s₄ _ => h.andOrRest _ s₄
  · rename_i t hrest
    refine (@ensures_setRest plain s₁ t ['|', '|'] hrest (by decide) (by decide)).advances.bind
      fun _ s₂ _ => ensures_bound_bind ?_
    refine (advances_newlines _ s₂).bind fun _ s₃ _ => ?_
    exact (h.pipeline s₃).advances.bind fun second s₄ _ => h.andOrRest _ s₄
  · exact advances_pure _ _

theorem ensures_readPipeline_succ (s : Script) :
    (readPipeline (fuel + 1)).Ensures plain s fun _ s' =>
      2 < fuel + 1 → s'.rest.length < s.rest.length := by
  rw [readPipeline]
  refine (advances_blanks s).bind fun _ s₁ h₁ => ensures_rest_bind ?_
  split
  · rename_i hnot
    have hskip := @ensures_setRest_drop plain s₁ _ 1 hnot rfl (by decide) (by decide)
    refine (hskip.bind_advances fun _ s₂ => ?_).imp fun _ _ _ hlt _ =>
      Nat.lt_of_lt_of_le hlt h₁.length_le
    exact (h.pipeline s₂).advances.bind fun _ s₃ _ => advances_pure _ _
  · refine ((h.stages s₁).bind_advances_of fun stages s₂ => ?_).imp fun _ _ _ hlt hfuel =>
      Nat.lt_of_lt_of_le (hlt (Nat.lt_of_succ_lt_succ hfuel)) h₁.length_le
    split
    · exact advances_pure _ _
    · exact advances_pure _ _

theorem ensures_readStages_succ (s : Script) :
    (readStages (fuel + 1)).Ensures plain s fun _ s' =>
      1 < fuel + 1 → s'.rest.length < s.rest.length := by
  rw [readStages]
  refine Ensures.bind_advances_of ((h.command s).imp fun _ _ _ hlt hfuel =>
    hlt (Nat.lt_of_succ_lt_succ hfuel)) fun c s₁ => (advances_blanks s₁).bind fun _ s₂ _ => ?_
  refine ensures_rest_bind ?_
  split
  · exact advances_pure _ _
  · rename_i t _ hrest
    refine (ensures_setRest_cons hrest (by decide)).advances.bind fun _ s₃ _ => ?_
    refine ensures_bound_bind ((advances_newlines _ s₃).bind fun _ s₄ _ => ?_)
    exact (h.stages s₄).advances.bind fun _ s₅ _ => advances_pure _ _
  · exact advances_pure _ _

theorem advances_readBranches_succ (s : Script) : (readBranches (fuel + 1)).Advances plain s := by
  rw [readBranches]
  refine (h.commands s).bind fun condition s₁ _ => ?_
  refine (advances_expect s₁ (by decide) (by decide)).bind fun _ s₂ _ => ?_
  refine (h.commands s₂).bind fun yes s₃ _ => ensures_rest_bind ?_
  split
  · rename_i hnext
    refine (ensures_setRest_drop hnext rfl (by decide) (by decide)).advances.bind fun _ s₄ _ => ?_
    exact (h.branches s₄).bind fun _ s₅ _ => advances_pure _ _
  · split
    · rename_i hnext
      refine (ensures_setRest_drop hnext rfl (by decide) (by decide)).advances.bind
        fun _ s₄ _ => (h.commands s₄).bind fun no s₅ _ => ?_
      exact (advances_expect s₅ (by decide) (by decide)).bind fun _ s₆ _ => advances_pure _ _
    · exact (advances_expect s₃ (by decide) (by decide)).bind fun _ s₄ _ => advances_pure _ _

theorem advances_readBody_succ (s : Script) : (readBody (fuel + 1)).Advances plain s := by
  rw [readBody]
  refine ensures_bound_bind ((advances_newlines _ s).bind fun _ s₁ _ => ?_)
  refine (advances_expect s₁ (by decide) (by decide)).bind fun _ s₂ _ => ?_
  refine (h.commands s₂).bind fun body s₃ _ => ?_
  exact (advances_expect s₃ (by decide) (by decide)).bind fun _ s₄ _ => advances_pure _ _

theorem advances_readArms_succ (s : Script) : (readArms (fuel + 1)).Advances plain s := by
  rw [readArms]
  refine ensures_bound_bind ((advances_newlines _ s).bind fun _ s₁ _ => ensures_rest_bind ?_)
  split
  · rename_i hnext
    refine (ensures_setRest_drop hnext rfl (by decide) (by decide)).advances.bind fun _ s₂ _ => ?_
    exact advances_pure _ _
  · extract_lets arm
    have harm (u : Unit) (s : Script) : (arm u).Advances plain s := by
      refine ensures_bound_bind ((advances_patterns _ s).bind fun patterns s₂ _ => ?_)
      refine (h.list s₂).bind fun body s₃ _ => ensures_rest_bind ?_
      split
      · rename_i hends
        refine (ensures_setRest (eq_append_drop_of_beginsWith hends) (by decide)
          (by decide)).advances.bind fun _ s₄ _ => ?_
        exact (h.arms s₄).bind fun _ s₅ _ => advances_pure _ _
      · exact (advances_expect s₃ (by decide) (by decide)).bind fun _ s₄ _ => advances_pure _ _
    split
    · rename_i hhead
      exact (ensures_setRest_drop_one hhead (by decide)).advances.bind fun u s₂ _ => harm u s₂
    · exact harm () s₁

theorem ensures_readCompound_succ (s : Script) :
    (readCompound (fuel + 1)).Ensures plain s fun c s' =>
      c.isSome → s'.rest.length < s.rest.length := by
  rw [readCompound]
  refine ensures_rest_bind (ensures_get_bind ?_)
  extract_lets line
  have hsome {r : Reader (Option Command)}
      (h : r.Ensures plain s fun _ s' => s'.rest.length < s.rest.length) :
      r.Ensures plain s fun c s' => c.isSome → s'.rest.length < s.rest.length :=
    h.imp fun _ _ _ hlt _ => hlt
  -- Commands in parentheses, then those in braces.
  split
  · rename_i hhead
    refine hsome ((ensures_setRest_drop_one hhead (by decide)).bind_advances fun _ s₁ => ?_)
    refine (h.commands s₁).bind fun body s₂ _ => ensures_rest_bind ?_
    split
    · rename_i t hrest
      refine (ensures_setRest_cons hrest (by decide)).advances.bind fun _ s₃ _ => ?_
      exact advances_pure _ _
    · exact ensures_unexpected _
  split
  · rename_i hnext
    refine hsome ((ensures_setRest_drop hnext rfl (by decide) (by decide)).bind_advances
      fun _ s₁ => (h.commands s₁).bind fun body s₂ _ => ?_)
    exact (advances_expect s₂ (by decide) (by decide)).bind fun _ s₃ _ => advances_pure _ _
  -- A conditional.
  split
  · rename_i hnext
    refine hsome ((ensures_setRest_drop hnext rfl (by decide) (by decide)).bind_advances
      fun _ s₁ => ?_)
    exact (h.branches s₁).bind fun _ s₂ _ => advances_pure _ _
  -- A loop with a condition.
  split
  · rename_i hnext
    have hskip : (setRest (s.rest.drop 5)).Ensures plain s fun _ s' =>
        s'.rest.length < s.rest.length := by
      rcases hnext with hnext | hnext
      · exact ensures_setRest_drop hnext rfl (by decide) (by decide)
      · exact ensures_setRest_drop hnext rfl (by decide) (by decide)
    refine hsome (hskip.bind_advances fun _ s₁ => ?_)
    refine (h.commands s₁).bind fun condition s₂ _ => ?_
    exact (h.body s₂).bind fun body s₃ _ => advances_pure _ _
  -- A loop over words, which may be left out.
  split
  · rename_i hnext
    refine hsome ((ensures_setRest_drop hnext rfl (by decide) (by decide)).bind_advances
      fun _ s₁ => (advances_blanks s₁).bind fun _ s₂ _ => ?_)
    refine (ensures_word s₂).advances.bind fun name s₃ _ => ?_
    extract_lets listed named
    have hlisted (words : Option (List Word)) (s : Script) :
        (listed words).Advances plain s := by
      refine (advances_blanks s).bind fun _ s₄ _ => ensures_rest_bind ?_
      extract_lets looped
      have hlooped (u : Unit) (s : Script) : (looped u).Advances plain s :=
        (h.body s).bind fun _ s₅ _ => advances_pure _ _
      split
      · rename_i t hrest
        exact (ensures_setRest_cons hrest (by decide)).advances.bind fun u s₅ _ => hlooped u s₅
      · exact hlooped () s₄
    have hnamed (u : Unit) (s : Script) : (named u).Advances plain s := by
      refine ensures_bound_bind ((advances_newlines _ s).bind fun _ s₄ _ => ensures_rest_bind ?_)
      split
      · rename_i hin
        refine (ensures_setRest_drop hin rfl (by decide) (by decide)).advances.bind
          fun _ s₅ _ => ensures_bound_bind ((advances_wordList _ s₅).bind fun words s₆ _ => ?_)
        exact (advances_pure _ s₆).bind fun words s₇ _ => hlisted words s₇
      · exact (advances_pure _ s₄).bind fun words s₅ _ => hlisted words s₅
    split
    · exact Ensures.bind (@ensures_fail _ plain s₃ (fun _ _ => False) _) fun _ _ _ h => h.elim
    · exact hnamed () s₃
  -- A choice.
  split
  · rename_i hnext
    refine hsome ((ensures_setRest_drop hnext rfl (by decide) (by decide)).bind_advances
      fun _ s₁ => (advances_blanks s₁).bind fun _ s₂ _ => ?_)
    refine (ensures_word s₂).advances.bind fun w s₃ _ => ensures_bound_bind ?_
    refine (advances_newlines _ s₃).bind fun _ s₄ _ => ?_
    refine (advances_expect s₄ (by decide) (by decide)).bind fun _ s₅ _ => ?_
    exact (h.arms s₅).bind fun _ s₆ _ => advances_pure _ _
  · exact ensures_pure fun h => absurd h Bool.false_ne_true

theorem ensures_readCommand_succ (s : Script) :
    (readCommand (fuel + 1)).Ensures plain s fun _ s' => s'.rest.length < s.rest.length := by
  rw [readCommand]
  refine (advances_blanks s).bind fun _ s₁ h₁ => (h.compound s₁).bind fun c s₂ h₂ hc => ?_
  split
  · refine ensures_bound_bind ((advances_redirects _ s₂).bind fun rs s₃ h₃ => ?_)
    have hlt : s₃.rest.length < s.rest.length :=
      Nat.lt_of_le_of_lt h₃.length_le (Nat.lt_of_lt_of_le (hc rfl) h₁.length_le)
    split
    · exact ensures_pure hlt
    · exact ensures_pure hlt
  · have hle := Nat.le_trans h₂.length_le h₁.length_le
    refine ensures_rest_bind ?_
    extract_lets read
    split
    · exact ensures_unexpected_bind _
    refine ensures_get_bind ?_
    extract_lets line
    refine ensures_bound_bind ((ensures_simple _ [] [] s₂).bind fun read s₃ h₃ hread => ?_)
    obtain ⟨words, redirects⟩ := read
    dsimp only
    split
    · exact ensures_unexpected_bind _
    rename_i hne
    have hlt : s₃.rest.length < s.rest.length := by
      rcases hread with hlt | heq
      · exact Nat.lt_of_lt_of_le hlt hle
      · obtain ⟨rfl, rfl⟩ := Prod.mk.inj heq
        exact absurd ⟨rfl, rfl⟩ hne
    refine ensures_rest_bind ?_
    split
    · rename_i hrest
      split
      · exact ensures_unexpected_bind _
      have hopen := @ensures_setRest_cons plain s₃ _ _ hrest (by decide)
      refine (hopen.imp fun _ _ _ h => Nat.lt_trans h hlt).bind_advances fun _ s₄ => ?_
      refine (advances_blanks s₄).bind fun _ s₅ _ => ensures_rest_bind ?_
      split
      · rename_i hclose
        refine (ensures_setRest_cons hclose (by decide)).advances.bind fun _ s₆ _ => ?_
        refine ensures_bound_bind ((advances_newlines _ s₆).bind fun _ s₇ _ => ?_)
        exact (h.command s₇).advances.bind fun _ s₈ _ => advances_pure _ _
      · exact ensures_unexpected _
    · exact ensures_unexpected _
    · exact ensures_pure hlt

end Step

theorem advancing (plain : Prop) (fuel : Nat) : Advancing plain fuel := by
  induction fuel with
  | zero =>
    refine
      { list := fun s => ?_
        commands := fun s => ?_
        andOr := fun s => ?_
        andOrRest := fun first s => ?_
        pipeline := fun s => ?_
        stages := fun s => ?_
        branches := fun s => ?_
        body := fun s => ?_
        arms := fun s => ?_
        compound := fun s => ?_
        command := fun s => ?_ }
    · rw [readList]
      exact advances_pure _ _
    · rw [readCommands]
      exact advances_pure _ _
    · rw [readAndOr]
      exact ensures_pure fun h => absurd h (by decide)
    · rw [readAndOrRest]
      exact advances_pure _ _
    · rw [readPipeline]
      exact ensures_pure fun h => absurd h (by decide)
    · rw [readStages]
      exact ensures_pure fun h => absurd h (by decide)
    · rw [readBranches]
      exact advances_pure _ _
    · rw [readBody]
      exact advances_pure _ _
    · rw [readArms]
      exact advances_pure _ _
    · rw [readCompound]
      exact ensures_pure fun h => absurd h Bool.false_ne_true
    · rw [readCommand]
      exact ensures_pure fun h => absurd h (by decide)
  | succ fuel ih =>
    exact
      { list := advances_readList_succ ih
        commands := advances_readCommands_succ ih
        andOr := ensures_readAndOr_succ ih
        andOrRest := advances_readAndOrRest_succ ih
        pipeline := ensures_readPipeline_succ ih
        stages := ensures_readStages_succ ih
        branches := advances_readBranches_succ ih
        body := advances_readBody_succ ih
        arms := advances_readArms_succ ih
        compound := ensures_readCompound_succ ih
        command := fun s => (ensures_readCommand_succ ih s).imp fun _ _ _ hlt _ => hlt }

/-! ### Lines -/

theorem ensures_readLine (count : Nat) (s : Script) :
    (readLine count).Ensures plain s fun _ s' =>
      0 < count → s.rest ≠ [] → s'.rest.length < s.rest.length := by
  induction count generalizing s with
  | zero =>
    rw [readLine]
    exact ensures_pure fun h => absurd h (Nat.lt_irrefl 0)
  | succ count ih =>
    rw [readLine]
    have himp {r : Reader Command}
        (h : r.Ensures plain s fun _ s' => s.rest ≠ [] → s'.rest.length < s.rest.length) :
        r.Ensures plain s fun _ s' =>
          0 < count + 1 → s.rest ≠ [] → s'.rest.length < s.rest.length :=
      h.imp fun _ _ _ hlt _ => hlt
    refine himp ((advances_blanks s).bind fun _ s₁ h₁ => ensures_rest_bind ?_)
    split
    · rename_i hrest
      refine ensures_pure fun hne => ?_
      rw [hrest]
      exact List.length_pos_iff.mpr hne
    · rename_i t hrest
      refine ((ensures_nextLine hrest).bind_advances fun _ s₂ => advances_pure _ _).imp ?_
      exact fun _ _ _ hlt _ => Nat.lt_of_lt_of_le hlt h₁.length_le
    · refine ensures_bound_bind ?_
      have hcommand := ((advancing plain (4 * (s₁.rest.length + 1) + 8)).andOr s₁).imp
        fun _ _ _ hlt => Nat.lt_of_lt_of_le (hlt (by omega)) h₁.length_le
      refine (hcommand.bind_advances fun c s₂ => ?_).imp fun _ _ _ hlt _ => hlt
      refine (advances_blanks s₂).bind fun _ s₃ _ => ensures_rest_bind ?_
      split
      · exact ensures_unexpected _
      · rename_i hrest
        refine (ensures_setRest_cons hrest (by decide)).advances.bind fun _ s₄ _ => ?_
        exact (ih s₄).advances.bind fun _ s₅ _ => advances_pure _ _
      · rename_i hrest
        refine (ensures_setRest_cons hrest (by decide)).advances.bind fun _ s₄ _ => ?_
        exact (ih s₄).advances.bind fun _ s₅ _ => advances_pure _ _
      · rename_i hrest
        exact (ensures_nextLine hrest).advances.bind fun _ s₄ _ => advances_pure _ _
      · exact advances_pure _ _
      · exact ensures_unexpected _

end Reader

theorem nextCommand_eq_none_iff {s : Script} : nextCommand s = .ok none ↔ s.rest = [] := by
  unfold nextCommand
  split
  · rename_i h
    exact ⟨fun _ => h, fun _ => rfl⟩
  · rename_i hne
    refine ⟨fun h => ?_, fun h => absurd h (hne ·)⟩
    split at h <;> cases h

/-- **Each line that is read makes the script shorter.** -/
theorem reaches_of_nextCommand {s s' : Script} {c : Command}
    (h : nextCommand s = .ok (some (c, s'))) :
    s.Reaches ('<' ∉ s.rest) s' ∧ s'.rest.length < s.rest.length := by
  unfold nextCommand at h
  split at h
  · cases h
  · rename_i hne
    split at h
    · rename_i hrun
      cases h
      obtain ⟨hreaches, hlt⟩ := (Reader.ensures_readLine _ s).of_ok id hrun
      exact ⟨hreaches, hlt (Nat.succ_pos _) (hne ·)⟩
    · cases h

/-- **An error names a line of the script**, and one that has not been read yet. -/
theorem line_of_nextCommand {s : Script} {e : ReadError} (h : nextCommand s = .error e) :
    s.line ≤ e.line ∧ ('<' ∉ s.rest → e.line ≤ s.lastLine) := by
  unfold nextCommand at h
  split at h
  · cases h
  · split at h
    · cases h
    · rename_i hrun
      cases h
      exact (Reader.ensures_readLine _ s).of_error id hrun

/-! ### Carrying out a script -/

namespace Run

theorem iterate_eq_of_lt {σ : Type} {step : σ → Run (Option σ)} {size : σ → Nat}
    (hstep : ∀ x y s s', step x s = .ok (some y) s' → size y < size x) {count count' : Nat} (x : σ)
    (hcount : size x < count) (hcount' : size x < count') :
    iterate step count x = iterate step count' x := by
  induction count generalizing count' x with
  | zero => cases hcount
  | succ count ih =>
    cases count' with
    | zero => cases hcount'
    | succ count' =>
      funext s
      unfold iterate
      split
      · rename_i y s' hy
        have hlt := hstep _ _ _ _ hy
        exact congrFun (ih y (by omega) (by omega)) s'
      · rfl
      · rfl

/-- A line of a script is read and carried out. -/
def line (fuel : Nat) (s : Script) : Run (Option Script) := do
  match nextCommand s with
  | .error e =>
    changeSession fun session => { session with line := e.line }
    fatal e.message
  | .ok none => return none
  | .ok (some (c, rest)) =>
    command fuel c
    return some rest

theorem fatal_apply_ne_ok {α : Type} (message : Octets) (s s' : State) (a : α) :
    fatal message s ≠ .ok a s' := by
  intro h
  obtain ⟨_, s₁, -, h⟩ := exists_of_bind_apply_eq_ok h
  obtain ⟨_, s₂, -, h⟩ := exists_of_bind_apply_eq_ok h
  cases h

theorem length_lt_of_line {fuel : Nat} {x y : Script} {s s' : State}
    (h : line fuel x s = .ok (some y) s') : y.rest.length < x.rest.length := by
  unfold line at h
  cases hnext : nextCommand x with
  | error e =>
    rw [hnext] at h
    obtain ⟨_, s₁, -, h⟩ := exists_of_bind_apply_eq_ok h
    exact absurd h (fatal_apply_ne_ok _ _ _ _)
  | ok read =>
    rw [hnext] at h
    cases read with
    | none => cases h
    | some read =>
      obtain ⟨_, s₁, -, h⟩ := exists_of_bind_apply_eq_ok h
      cases h
      exact (reaches_of_nextCommand hnext).2

/-- **A script is carried out to its end**: the number of lines that may be read is not what stops
it. -/
theorem script_eq_iterate (fuel first : Nat) {text : Octets} {count : Nat}
    (hcount : text.length < count) :
    script (fuel + 1) first text = iterate (line fuel) count ⟨text, first, 0⟩ := by
  have hline : script (fuel + 1) first text =
      iterate (line fuel) (text.length + 1) ⟨text, first, 0⟩ := by
    rw [script]
    rfl
  rw [hline]
  exact @iterate_eq_of_lt _ _ (fun s => s.rest.length) (fun _ _ _ _ h => length_lt_of_line h) _ _ _
    (Nat.lt_succ_self _) hcount

end Run

end Literate.Shell
