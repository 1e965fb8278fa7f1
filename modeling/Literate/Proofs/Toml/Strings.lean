import Literate.Proofs.Text.Cutting
import Literate.Toml.Scan
import Literate.Toml.Writer

/-!
# Strings and keys read back

What the writer makes of a text is read as that text, whatever follows it that could not belong to
it: a string in any of its four forms (`string?_stringText`) and a key (`key?_keyText`).  A
character that cannot stand for itself is written as an escape, and `Escapes` says what both readers
of double quotes ask of one.
-/

namespace Literate.Toml

variable {c : Char} {s t rest : Text} {quotes : Nat}

/-! ### Characters -/

/-- A character that needs no escape may stand in a string, unless it is LF. -/
theorem isShown_of_isControl_eq_false (h : isControl c = false) (hc : c ≠ '\n') :
    isShown c = true := by
  simp only [isControl, Bool.or_eq_false_iff, decide_eq_false_iff_not] at h
  simp only [isShown, Bool.and_eq_true, Bool.or_eq_true, decide_eq_true_eq, bne_iff_ne]
  refine ⟨?_, h.2⟩
  by_contra hn
  simp_all

theorem ne_return_of_isShown (h : isShown c = true) : c ≠ '\r' := by
  rintro rfl
  exact absurd h (by decide)

/-- A backslash and what follows it, as the escape for `c`. -/
inductive Escapes (c : Char) : Text → Prop
  | short {e : Char} (h : escape? e = some c) : Escapes c ['\\', e]
  | point {x y z w : Char} (h : codePoint? [x, y, z, w] = some c) :
      Escapes c ['\\', 'u', x, y, z, w]

/-- The letters of the short escapes. -/
theorem eq_of_escape?_eq_some {e : Char} (h : escape? e = some c) :
    e = 'b' ∨ e = 't' ∨ e = 'n' ∨ e = 'f' ∨ e = 'r' ∨ e = 'e' ∨ e = '"' ∨ e = '\\' := by
  by_contra hn
  simp only [not_or] at hn
  simp [escape?, hn] at h

theorem basicString_of_escapes (h : Escapes c s) (t : Text) :
    basicString (s ++ t) = consRead (some c) (basicString t) := by
  cases h with
  | short h =>
    rw [← h]
    obtain rfl | rfl | rfl | rfl | rfl | rfl | rfl | rfl := eq_of_escape?_eq_some h <;> rfl
  | point h => rw [← h]; rfl

theorem longBasicString_of_escapes (h : Escapes c s) (t : Text) :
    longBasicString false (s ++ t) = consRead (some c) (longBasicString false t) := by
  cases h with
  | short h =>
    rw [← h]
    obtain rfl | rfl | rfl | rfl | rfl | rfl | rfl | rfl := eq_of_escape?_eq_some h <;> rfl
  | point h => rw [← h]; rfl

theorem escapes_quote : Escapes '"' ['\\', '"'] :=
  .short rfl

theorem escapes_slash : Escapes '\\' ['\\', '\\'] :=
  .short rfl

theorem escapes_tab : Escapes '\t' ['\\', 't'] :=
  .short rfl

theorem escapes_newline : Escapes '\n' ['\\', 'n'] :=
  .short rfl

/-- The character that an escape of either form is for. -/
def escapeValue? : Text → Option Char
  | ['\\', e] => escape? e
  | ['\\', 'u', x, y, z, w] => codePoint? [x, y, z, w]
  | _ => none

theorem escapes_of_escapeValue? (h : escapeValue? s = some c) : Escapes c s := by
  unfold escapeValue? at h
  split at h
  · exact .short h
  · exact .point h
  · cases h

/-- The escapes of control characters, all of which are below 128. -/
theorem escapes_controlEscape (h : isControl c = true) : Escapes c (controlEscape c) := by
  have hcode : ∀ n < 128, isControl (Char.ofNat n) = true →
      escapeValue? (controlEscape (Char.ofNat n)) = some (Char.ofNat n) := by
    decide +kernel
  have hlt : c.toNat < 128 := by
    simp only [isControl, Bool.or_eq_true, Bool.and_eq_true, decide_eq_true_eq] at h
    omega
  have hc := hcode c.toNat hlt
  rw [Char.ofNat_toNat] at hc
  exact escapes_of_escapeValue? (hc h)

/-- How a character other than a double quote is written in double quotes: as an escape, or as
itself, which LF is in the long form alone. -/
theorem escaped_cons (long : Bool) (quotes : Nat) (hc : c ≠ '"') (t : Text) :
    ∃ s, escaped long quotes (c :: t) = s ++ escaped long 0 t ∧
      (Escapes c s ∨ s = [c] ∧ (isShown c = true ∧ c ≠ '\\' ∨ long = true ∧ c = '\n')) := by
  refine ⟨_, by rw [escaped, if_neg hc], ?_⟩
  split
  · next h => exact .inl (h ▸ escapes_slash)
  · next hs =>
    split
    · next h => exact .inl (h ▸ escapes_tab)
    · split
      · next h =>
        split
        · next hl => exact .inr ⟨rfl, .inr ⟨hl, h⟩⟩
        · exact .inl (h ▸ escapes_newline)
      · next hn =>
        split
        · next h => exact .inl (escapes_controlEscape h)
        · next h =>
          have hshown := isShown_of_isControl_eq_false (eq_false_of_ne_true h) hn
          exact .inr ⟨rfl, .inl ⟨hshown, hs⟩⟩

/-! ### Double quotes -/

theorem basicString_cons (hc : isShown c = true) (hq : c ≠ '"') (hs : c ≠ '\\') (t : Text) :
    basicString (c :: t) = consRead (some c) (basicString t) := by
  rw [basicString, if_pos ⟨hc, hs⟩]
  · exact hq
  all_goals
    intros
    exact absurd ‹_› hs

theorem basicString_escaped (t rest : Text) (quotes : Nat) :
    basicString (escaped false quotes t ++ '"' :: rest) = some (t, rest) := by
  induction t generalizing quotes with
  | nil => rfl
  | cons c t ih =>
    by_cases hc : c = '"'
    · rw [hc, escaped, if_pos rfl, Bool.false_and, if_neg (by decide)]
      refine (basicString_of_escapes escapes_quote (escaped false 0 t ++ '"' :: rest)).trans ?_
      rw [ih]
      rfl
    · obtain ⟨s, hs, hread⟩ := escaped_cons false quotes hc t
      rw [hs, List.append_assoc]
      obtain he | ⟨rfl, ⟨hshown, hslash⟩ | ⟨hl, -⟩⟩ := hread
      · rw [basicString_of_escapes he, ih]
        rfl
      · rw [List.singleton_append, basicString_cons hshown hc hslash, ih]
        rfl
      · contradiction

/-- In the long form a double quote stands for itself where no two others follow it. -/
theorem longBasicString_cons (hc : isShown c = true ∧ c ≠ '\\' ∨ c = '\n')
    (hq : ∀ u, c = '"' → t ≠ '"' :: '"' :: u) :
    longBasicString false (c :: t) = consRead (some c) (longBasicString false t) := by
  have hs : c ≠ '\\' := by
    rintro rfl
    simp at hc
  have hread : (isShown c = true ∧ c ≠ '\\') ∨ isLineBreak c t = true :=
    hc.imp_right fun h => by rw [h]; rfl
  rw [longBasicString, Bool.false_and, if_neg (by decide), if_pos hread]
  all_goals
    intros
    first
    | exact absurd ‹_› hs
    | exact absurd ‹_› (hq _ ‹_›)

/-- What is written for a character begins with a backslash or with the character itself, a double
quote only if it is among the first two of its row in the long form. -/
theorem exists_of_escaped (long : Bool) (quotes : Nat) (c : Char) (t : Text) :
    ∃ d s, escaped long quotes (c :: t) = d :: s ∧
      (d = '\\' ∨
        d = c ∧ (isShown c = true ∨ c = '\n') ∧ (c = '"' → long = true ∧ quotes < 2)) := by
  by_cases hc : c = '"'
  · subst hc
    rw [escaped, if_pos rfl]
    split
    · next h => exact ⟨_, _, rfl, .inr ⟨rfl, .inl (by decide), fun _ => by simpa using h⟩⟩
    · exact ⟨_, _, rfl, .inl rfl⟩
  · obtain ⟨s, hs, he | ⟨rfl, hplain⟩⟩ := escaped_cons long quotes hc t
    · cases he with
      | short => exact ⟨_, _, hs, .inl rfl⟩
      | point => exact ⟨_, _, hs, .inl rfl⟩
    · exact ⟨_, _, hs, .inr ⟨rfl, hplain.imp And.left And.right, fun h => absurd h hc⟩⟩

theorem escaped_append_ne_quote {long : Bool} (h : c = '"' → long = true → 2 ≤ quotes)
    (t s u : Text) : escaped long quotes (c :: t) ++ s ≠ '"' :: u := by
  obtain ⟨d, s', hs, rfl | ⟨rfl, -, hd⟩⟩ := exists_of_escaped long quotes c t
  · simp [hs]
  · intro h'
    have hq : d = '"' := by
      rw [hs] at h'
      exact (List.cons.inj h').1
    have := h hq (hd hq).1
    have := (hd hq).2
    omega

/-- After a double quote that stands for itself come no two others, unless the text ends there or
after one more. -/
theorem escaped_append_ne (hq : quotes < 2) (ht : ∀ n < 2 - quotes, t ≠ List.replicate n '"')
    (s u : Text) : escaped true (quotes + 1) t ++ s ≠ '"' :: '"' :: u := by
  match t with
  | [] => exact absurd rfl (ht 0 (by omega))
  | c :: t =>
    by_cases hc : c = '"' ∧ quotes = 0
    · obtain ⟨rfl, rfl⟩ := hc
      match t with
      | [] => exact absurd rfl (ht 1 (by decide))
      | d :: t =>
        intro h
        have hd : escaped true 2 (d :: t) ++ s = '"' :: u := (List.cons.inj h).2
        exact escaped_append_ne_quote (fun _ _ => le_rfl) t s u hd
    · refine escaped_append_ne_quote (fun h _ => ?_) t s _
      have := not_and.mp hc h
      omega

/-- One or two double quotes that end a text, before the closing ones. -/
theorem longBasicString_replicate (hrest : rest.head? ≠ some '"') :
    ∀ n ≤ 2, longBasicString false (List.replicate n '"' ++ '"' :: '"' :: '"' :: rest) =
      some (List.replicate n '"', rest) := by
  have hne : ∀ u, rest ≠ '"' :: u := by
    rintro u rfl
    exact hrest rfl
  intro n hn
  match n with
  | 0 =>
    simp only [List.replicate, List.nil_append]
    rw [longBasicString] <;> simp [hne]
  | 1 =>
    simp only [List.replicate, List.nil_append, List.cons_append]
    rw [longBasicString]
    simp [hne]
  | 2 => rfl

theorem longBasicString_escaped (hrest : rest.head? ≠ some '"') (t : Text) (quotes : Nat) :
    longBasicString false (escaped true quotes t ++ '"' :: '"' :: '"' :: rest) =
      some (t, rest) := by
  induction t generalizing quotes with
  | nil => exact longBasicString_replicate hrest 0 (by decide)
  | cons c t ih =>
    by_cases hc : c = '"'
    · subst hc
      rw [escaped, if_pos rfl, Bool.true_and]
      split
      · next hq =>
        have hq : quotes < 2 := by simpa using hq
        -- the text may end in one or two double quotes, which then stand before the closing ones
        by_cases ht : ∃ n < 2 - quotes, t = List.replicate n '"'
        · obtain ⟨n, hn, rfl⟩ := ht
          have hs : escaped true (quotes + 1) (List.replicate n '"') = List.replicate n '"' := by
            obtain rfl | ⟨rfl, rfl⟩ : n = 0 ∨ n = 1 ∧ quotes = 0 := by omega
            · rfl
            · rfl
          rw [hs]
          have hle : n + 1 ≤ 2 := by omega
          exact longBasicString_replicate hrest (n + 1) hle
        · have hne := escaped_append_ne hq (fun n hn h => ht ⟨n, hn, h⟩) ('"' :: '"' :: '"' :: rest)
          rw [List.cons_append, longBasicString_cons (.inl (by decide)) fun u _ => hne u, ih]
          rfl
      · refine (longBasicString_of_escapes escapes_quote
          (escaped true 0 t ++ '"' :: '"' :: '"' :: rest)).trans ?_
        rw [ih]
        rfl
    · obtain ⟨s, hs, hread⟩ := escaped_cons true quotes hc t
      rw [hs, List.append_assoc]
      obtain he | ⟨rfl, hplain⟩ := hread
      · rw [longBasicString_of_escapes he, ih]
        rfl
      · rw [List.singleton_append,
          longBasicString_cons (hplain.imp_right And.right) fun _ h => absurd h hc, ih]
        rfl

/-! ### Single quotes -/

theorem literalString_append (ht : ∀ c ∈ t, isShown c = true ∧ c ≠ '\'') (rest : Text) :
    literalString (t ++ '\'' :: rest) = some (t, rest) := by
  induction t with
  | nil => rfl
  | cons c t ih =>
    obtain ⟨hshown, hc⟩ := ht c List.mem_cons_self
    rw [List.cons_append, literalString, if_pos hshown, ih fun d hd => ht d (.tail c hd)]
    · rfl
    · exact hc

theorem longLiteralString_cons (hc : isShown c = true ∨ c = '\n')
    (hq : ∀ u, c = '\'' → t ≠ '\'' :: '\'' :: u) :
    longLiteralString (c :: t) = consRead (some c) (longLiteralString t) := by
  have hread : isShown c = true ∨ isLineBreak c t = true :=
    hc.imp_right fun h => by rw [h]; rfl
  rw [longLiteralString, if_pos hread]
  all_goals
    intros
    exact absurd ‹_› (hq _ ‹_›)

/-- One or two single quotes that end a text, before the closing ones. -/
theorem longLiteralString_replicate (hrest : rest.head? ≠ some '\'') :
    ∀ n ≤ 2, longLiteralString (List.replicate n '\'' ++ '\'' :: '\'' :: '\'' :: rest) =
      some (List.replicate n '\'', rest) := by
  have hne : ∀ u, rest ≠ '\'' :: u := by
    rintro u rfl
    exact hrest rfl
  intro n hn
  match n with
  | 0 =>
    simp only [List.replicate, List.nil_append]
    rw [longLiteralString] <;> simp [hne]
  | 1 =>
    simp only [List.replicate, List.nil_append, List.cons_append]
    rw [longLiteralString]
    simp [hne]
  | 2 => rfl

/-- The second part of a pair only grows if it does so with each step. -/
theorem snd_le_foldl {step : Nat × Nat → Char → Nat × Nat} (h : ∀ p d, p.2 ≤ (step p d).2)
    (t : Text) (p : Nat × Nat) : p.2 ≤ (t.foldl step p).2 := by
  induction t generalizing p with
  | nil => exact Nat.le_refl _
  | cons d t ih => exact (h p d).trans (ih (step p d))

/-- A text in which no run of a character is longer than two. -/
theorem not_infix_of_longestRun_le (h : longestRun c t ≤ 2) : ¬[c, c, c] <:+: t := by
  rintro ⟨before, after, rfl⟩
  rw [longestRun, List.foldl_append, List.foldl_append] at h
  simp only [List.foldl_cons, List.foldl_nil, if_true] at h
  -- The run has grown by three, and what follows it cannot shorten the longest one.
  have hrun : _ + 3 ≤ 2 :=
    (Nat.le_max_right _ _).trans ((snd_le_foldl (fun p d => ?_) after _).trans h)
  · exact absurd hrun (by omega)
  · by_cases hd : d = c
    · simp only [if_pos hd]
      exact Nat.le_max_left _ _
    · simp only [if_neg hd]
      exact Nat.le_refl _

theorem longLiteralString_append (hrest : rest.head? ≠ some '\'')
    (ht : ∀ c ∈ t, isShown c = true ∨ c = '\n') (hrun : ¬['\'', '\'', '\''] <:+: t) :
    longLiteralString (t ++ '\'' :: '\'' :: '\'' :: rest) = some (t, rest) := by
  induction t with
  | nil => exact longLiteralString_replicate hrest 0 (by decide)
  | cons c t ih =>
    by_cases hn : c = '\'' ∧ (t = [] ∨ t = ['\''])
    · obtain ⟨rfl, rfl | rfl⟩ := hn
      · exact longLiteralString_replicate hrest 1 (by decide)
      · exact longLiteralString_replicate hrest 2 (by decide)
    · have hq : ∀ u, c = '\'' → t ++ '\'' :: '\'' :: '\'' :: rest ≠ '\'' :: '\'' :: u := by
        rintro u rfl
        match t with
        | [] => simp at hn
        | [d] =>
          intro h
          simp_all
        | d :: e :: t =>
          intro h
          simp only [List.cons_append, List.cons.injEq] at h
          obtain ⟨rfl, rfl, -⟩ := h
          exact hrun ⟨[], t, rfl⟩
      rw [List.cons_append, longLiteralString_cons (ht c List.mem_cons_self) hq,
        ih (fun d hd => ht d (.tail c hd)) fun h => hrun (List.infix_cons h)]
      rfl

/-! ### Strings -/

theorem string?_basicText (hrest : rest.head? ≠ some '"') (t : Text) :
    string? (basicText t ++ rest) = some (t, rest) := by
  have hs : basicText t ++ rest = '"' :: (escaped false 0 t ++ '"' :: rest) := by
    simp [basicText]
  have hne : ∀ u, escaped false 0 t ++ '"' :: rest ≠ '"' :: '"' :: u := by
    rintro u h
    cases t with
    | nil =>
      have hu : rest = '"' :: u := by simpa [escaped] using h
      exact hrest (by rw [hu]; rfl)
    | cons c t =>
      exact escaped_append_ne_quote (fun _ h => absurd h (by decide)) t _ _ h
  rw [hs, string?, basicString_escaped]
  exact hne

theorem string?_literalText (ht : ∀ c ∈ t, isShown c = true ∧ c ≠ '\'') (hne : t ≠ [])
    (rest : Text) : string? (literalText t ++ rest) = some (t, rest) := by
  have hs : literalText t ++ rest = '\'' :: (t ++ '\'' :: rest) := by
    simp [literalText]
  have hquote : ∀ u, t ++ '\'' :: rest ≠ '\'' :: '\'' :: u := by
    rintro u h
    cases t with
    | nil => exact hne rfl
    | cons c t => exact (ht c List.mem_cons_self).2 (List.cons.inj h).1
  rw [hs, string?, literalString_append ht]
  exact hquote

/-- The line break that is put before a text of several lines. -/
theorem skipLineBreak_opened (hs : ∀ c ∈ s.head?, c ≠ '\r' ∧ (c = '\n' → c ∈ t)) :
    skipLineBreak ((if t.contains '\n' then ['\n'] else []) ++ s) = s := by
  split
  · rfl
  · next hn =>
    have hn : '\n' ∉ t := by simpa using hn
    match s with
    | [] => rfl
    | c :: s =>
      obtain ⟨hr, hl⟩ := hs c rfl
      have hc : c ≠ '\n' := by
        rintro rfl
        exact hn (hl rfl)
      rw [List.nil_append, skipLineBreak]
      · simp [hc]
      · simp [hr]

theorem string?_longBasicText (hrest : rest.head? ≠ some '"') (t : Text) :
    string? (longBasicText t ++ rest) = some (t, rest) := by
  have hs : longBasicText t ++ rest = '"' :: '"' :: '"' ::
      ((if t.contains '\n' then ['\n'] else []) ++
        (escaped true 0 t ++ '"' :: '"' :: '"' :: rest)) := by
    simp [longBasicText]
  have hhead : ∀ c ∈ (escaped true 0 t ++ '"' :: '"' :: '"' :: rest).head?,
      c ≠ '\r' ∧ (c = '\n' → c ∈ t) := by
    intro c hc
    cases t with
    | nil =>
      obtain rfl : '"' = c := Option.some.inj hc
      decide
    | cons d t =>
      obtain ⟨x, s, hs, hx⟩ := exists_of_escaped true 0 d t
      rw [hs] at hc
      obtain rfl : x = c := Option.some.inj hc
      obtain rfl | ⟨rfl, hplain, -⟩ := hx
      · exact ⟨by decide, fun h => absurd h (by decide)⟩
      · exact ⟨hplain.elim ne_return_of_isShown (by rintro rfl; decide), fun _ => .head t⟩
  rw [hs, string?, skipLineBreak_opened hhead, longBasicString_escaped hrest]

theorem string?_longLiteralText (hrest : rest.head? ≠ some '\'')
    (ht : ∀ c ∈ t, isShown c = true ∨ c = '\n') (hrun : ¬['\'', '\'', '\''] <:+: t) :
    string? (longLiteralText t ++ rest) = some (t, rest) := by
  have hs : longLiteralText t ++ rest = '\'' :: '\'' :: '\'' ::
      ((if t.contains '\n' then ['\n'] else []) ++
        (t ++ '\'' :: '\'' :: '\'' :: rest)) := by
    simp [longLiteralText]
  have hhead : ∀ c ∈ (t ++ '\'' :: '\'' :: '\'' :: rest).head?,
      c ≠ '\r' ∧ (c = '\n' → c ∈ t) := by
    intro c hc
    cases t with
    | nil =>
      obtain rfl : '\'' = c := Option.some.inj hc
      decide
    | cons d t =>
      obtain rfl : d = c := Option.some.inj hc
      have hd := ht d List.mem_cons_self
      exact ⟨hd.elim ne_return_of_isShown (by rintro rfl; decide), fun _ => .head t⟩
  rw [hs, string?, skipLineBreak_opened hhead, longLiteralString_append hrest ht hrun]

theorem string?_stringText (hrest : ∀ c ∈ rest.head?, c ≠ '"' ∧ c ≠ '\'') (t : Text) :
    string? (stringText t ++ rest) = some (t, rest) := by
  have hd : rest.head? ≠ some '"' := fun h => (hrest _ h).1 rfl
  have hs : rest.head? ≠ some '\'' := fun h => (hrest _ h).2 rfl
  have hplain : t.any isControl = false → ∀ c ∈ t, isShown c = true ∨ c = '\n' := by
    intro h c hc
    by_cases hn : c = '\n'
    · exact .inr hn
    · have hcontrol := eq_false_of_ne_true (List.any_eq_false.mp h c hc)
      exact .inl (isShown_of_isControl_eq_false hcontrol hn)
  unfold stringText
  simp only
  split
  · exact string?_basicText hd t
  · split
    · next hb h =>
      simp only [Bool.and_eq_true, Bool.not_eq_true', List.contains_eq_mem,
        decide_eq_false_iff_not] at h
      obtain ⟨⟨hcontrol, hquote⟩, hline⟩ := h
      have ht : ∀ c ∈ t, isShown c = true ∧ c ≠ '\'' := fun c hc =>
        ⟨(hplain hcontrol c hc).resolve_right fun h => hline (h ▸ hc), fun h => hquote (h ▸ hc)⟩
      have hne : t ≠ [] := by
        rintro rfl
        exact hb rfl
      exact string?_literalText ht hne rest
    · split
      · exact string?_longBasicText hd t
      · split
        · next h =>
          simp only [Bool.and_eq_true, Bool.not_eq_true', decide_eq_true_eq] at h
          exact string?_longLiteralText hs (hplain h.1) (not_infix_of_longestRun_le h.2)
        · split
          · exact string?_longBasicText hd t
          · exact string?_basicText hd t

/-- A string begins with a quote. -/
theorem exists_of_stringText (t : Text) :
    ∃ q s, stringText t = q :: s ∧ (q = '"' ∨ q = '\'') := by
  unfold stringText
  simp only
  split_ifs
  · exact ⟨_, _, rfl, .inl rfl⟩
  · exact ⟨_, _, rfl, .inr rfl⟩
  · exact ⟨_, _, rfl, .inl rfl⟩
  · exact ⟨_, _, rfl, .inr rfl⟩
  · exact ⟨_, _, rfl, .inl rfl⟩
  · exact ⟨_, _, rfl, .inl rfl⟩

/-! ### Keys -/

/-- A key begins with a quote or with a character of bare keys. -/
theorem exists_of_keyText (t : Text) :
    ∃ c s, keyText t = c :: s ∧ (c = '"' ∨ c = '\'' ∨ isBareChar c = true) := by
  unfold keyText
  simp only
  split
  · next h =>
    match t with
    | [] => exact absurd rfl h.1
    | c :: t => exact ⟨c, t, rfl, .inr (.inr (List.all_eq_true.mp h.2 c List.mem_cons_self))⟩
  · split_ifs
    · exact ⟨_, _, rfl, .inl rfl⟩
    · exact ⟨_, _, rfl, .inr (.inl rfl)⟩
    · exact ⟨_, _, rfl, .inl rfl⟩

theorem key?_append_of_bare (ht : t ≠ []) (hbare : ∀ c ∈ t, isBareChar c = true)
    (hrest : ∀ c ∈ rest.head?, isBareChar c = false) : key? (t ++ rest) = some (t, rest) := by
  match t with
  | [] => exact absurd rfl ht
  | c :: t =>
    have hc := hbare c List.mem_cons_self
    rw [List.cons_append, key?, ← List.cons_append, Text.takeWhile_append_of_head hbare hrest,
      Text.dropWhile_append_of_head hbare hrest]
    all_goals
      intro _ h
      obtain rfl := (List.cons.inj h).1
      exact absurd hc (by decide)

theorem key?_keyText (hrest : ∀ c ∈ rest.head?, isBareChar c = false) (t : Text) :
    key? (keyText t ++ rest) = some (t, rest) := by
  have hbasic : key? (basicText t ++ rest) = some (t, rest) := by
    have hs : basicText t ++ rest = '"' :: (escaped false 0 t ++ '"' :: rest) := by
      simp [basicText]
    rw [hs, key?, basicString_escaped]
  unfold keyText
  simp only
  split
  · next h => exact key?_append_of_bare h.1 (List.all_eq_true.mp h.2) hrest
  · split
    · exact hbasic
    · split
      · next h =>
        simp only [Bool.and_eq_true, Bool.not_eq_true', List.contains_eq_mem,
          decide_eq_false_iff_not] at h
        obtain ⟨hcontrol, hquote⟩ := h
        have ht : ∀ c ∈ t, isShown c = true ∧ c ≠ '\'' := by
          intro c hc
          have hplain := List.any_eq_false.mp hcontrol c hc
          rw [Bool.or_eq_true, not_or, decide_eq_true_eq] at hplain
          exact ⟨isShown_of_isControl_eq_false (eq_false_of_ne_true hplain.1) hplain.2,
            fun h => hquote (h ▸ hc)⟩
        have hs : literalText t ++ rest = '\'' :: (t ++ '\'' :: rest) := by
          simp [literalText]
        rw [hs, key?, literalString_append ht]
      · exact hbasic

end Literate.Toml
