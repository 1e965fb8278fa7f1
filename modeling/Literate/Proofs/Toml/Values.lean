import Literate.Proofs.Text.Decimal
import Literate.Proofs.Toml.Strings
import Literate.Toml.Reader
import Literate.Word
import Mathlib.Data.Option.Basic

/-!
# Values read back

The reader of values reads back what the writer makes of a number of 64 bits (`value_decimal`), of a
text (`value_stringText`) and of a list of texts (`value_arrayText`).  An array is read with as much
fuel as it has characters.
-/

namespace Literate.Toml

variable {n : Nat} {s t rest : Text}

/-! ### Numbers -/

theorem ungroup_eq_some {p : Char → Bool} (ht : t ≠ []) (hp : ∀ c ∈ t, p c = true)
    (hu : p '_' = false) : ungroup p t = some t := by
  induction t with
  | nil => exact absurd rfl ht
  | cons c t ih =>
    have hc := hp c List.mem_cons_self
    match t with
    | [] => rw [ungroup, if_pos hc]
    | d :: t =>
      have hd : d ≠ '_' := by
        rintro rfl
        exact Bool.false_ne_true (hu.symm.trans (hp _ (.tail c (.head t))))
      rw [ungroup, if_pos hc, ih (List.cons_ne_nil d t) fun x hx => hp x (.tail c hx)]
      · rfl
      · simp
      · simp [hd]

theorem digitValue_of_isDigit {c : Char} (h : c.isDigit = true) :
    digitValue c = c.toNat - '0'.toNat ∧ digitValue c < 10 := by
  rw [digitValue, if_pos h]
  exact ⟨rfl, Text.toNat_sub_lt_of_isDigit h⟩

theorem number?_decimal (n : Nat) : number? 10 (Text.decimal n) = some n := by
  have hdigit : ∀ c ∈ Text.decimal n, c.isDigit = true := fun c => Text.isDigit_of_mem_decimal
  have hbase : ∀ c ∈ Text.decimal n, isDigitOf 10 c = true := by
    intro c hc
    rw [isDigitOf, hdigit c hc, Bool.true_or, Bool.true_and]
    exact decide_eq_true (digitValue_of_isDigit (hdigit c hc)).2
  have hvalue : (Text.decimal n).foldl (fun n d => 10 * n + digitValue d) 0 = n := by
    refine Eq.trans (List.foldl_ext _ _ 0 fun m c hc => ?_) (Text.foldl_decimal n)
    rw [(digitValue_of_isDigit (hdigit c hc)).1]
  simp only [number?, ungroup_eq_some (Text.decimal_ne_nil n) hbase (by decide)]
  exact congrArg some hvalue

/-- A number has no needless zero in front. -/
theorem plainNumber?_decimal (n : Nat) : plainNumber? (Text.decimal n) = some n := by
  unfold plainNumber?
  split
  · next c t h =>
    by_cases hn : n = 0
    · subst hn
      cases h
    · exact absurd (congrArg List.head? h) (Text.head?_decimal_ne hn)
  · exact number?_decimal n

theorem integer?_decimal (n : Nat) : integer? (Text.decimal n) = some (n : Int) := by
  have hdigit : ∀ c ∈ Text.decimal n, c.isDigit = true := fun c => Text.isDigit_of_mem_decimal
  have hsign : splitSign (Text.decimal n) = (false, Text.decimal n) := by
    unfold splitSign
    split
    · next h => exact absurd (hdigit '-' (by simp [h])) (by decide)
    · next h => exact absurd (hdigit '+' (by simp [h])) (by decide)
    · rfl
  unfold integer?
  split
  · next h => exact absurd (hdigit 'x' (by simp [h])) (by decide)
  · next h => exact absurd (hdigit 'o' (by simp [h])) (by decide)
  · next h => exact absurd (hdigit 'b' (by simp [h])) (by decide)
  · rw [hsign]
    simp [plainNumber?_decimal]

theorem ofWord_decimal (h : n < wordBound) : ofWord (Text.decimal n) = some (.integer n) := by
  have hdigit : ∀ c ∈ Text.decimal n, c.isDigit = true := fun c => Text.isDigit_of_mem_decimal
  have htrue : Text.decimal n ≠ Text.ofString "true" := fun h =>
    absurd (hdigit 't' (h ▸ by decide)) (by decide)
  have hfalse : Text.decimal n ≠ Text.ofString "false" := fun h =>
    absurd (hdigit 'f' (h ▸ by decide)) (by decide)
  have hrange : isInRange n = true := by
    unfold wordBound at h
    rw [isInRange, Bool.and_eq_true, decide_eq_true_iff, decide_eq_true_iff]
    omega
  rw [ofWord, if_neg htrue, if_neg hfalse, integer?_decimal]
  exact if_pos hrange

theorem word_decimal (n : Nat) (rest : Text) :
    word (Text.decimal n ++ '\n' :: rest) = (Text.decimal n, '\n' :: rest) := by
  have hword : ∀ c ∈ Text.decimal n, isWordChar c = true := by
    intro c hc
    simp [isWordChar, Char.isAlphanum, Text.isDigit_of_mem_decimal hc]
  have hrest : ∀ c ∈ ('\n' :: rest).head?, isWordChar c = false := by
    rintro _ ⟨⟩
    decide
  simp only [word, Text.takeWhile_append_of_head hword hrest,
    Text.dropWhile_append_of_head hword hrest]
  rfl

theorem value_decimal (h : n < wordBound) (fuel depth : Nat) (rest : Text) :
    value (fuel + 1) depth (Text.decimal n ++ '\n' :: rest) =
      some (.integer n, '\n' :: rest) := by
  have hword := word_decimal n rest
  match hs : Text.decimal n with
  | [] => exact absurd hs (Text.decimal_ne_nil n)
  | c :: t =>
    have hc : c.isDigit = true := Text.isDigit_of_mem_decimal (hs ▸ List.mem_cons_self)
    have hne : ∀ (d : Char) (u : Text), d.isDigit = false → c :: (t ++ '\n' :: rest) ≠ d :: u := by
      intro d u hd hu
      obtain rfl := (List.cons.inj hu).1
      exact Bool.false_ne_true (hd.symm.trans hc)
    rw [hs, List.cons_append] at hword
    rw [List.cons_append, value, hword, ← hs]
    · simp only [ofWord_decimal h]
      rfl
    · exact fun u => hne '[' u rfl
    · exact fun u => hne '\x7b' u rfl
    · exact fun u => hne '"' u rfl
    · exact fun u => hne '\'' u rfl

/-! ### Strings and arrays of them -/

theorem value_stringText (hrest : ∀ c ∈ rest.head?, c ≠ '"' ∧ c ≠ '\'') (fuel depth : Nat)
    (t : Text) : value (fuel + 1) depth (stringText t ++ rest) = some (.string t, rest) := by
  have hread := string?_stringText hrest t
  obtain ⟨q, s, hs, rfl | rfl⟩ := exists_of_stringText t
  · rw [hs] at hread ⊢
    rw [List.cons_append] at hread ⊢
    simp [value, hread]
  · rw [hs] at hread ⊢
    rw [List.cons_append] at hread ⊢
    simp [value, hread]

/-- The members of an array, each on a line of its own. -/
def memberLines (texts : List Text) : Text :=
  (texts.map fun t => Text.ofString "    " ++ stringText t ++ [',', '\n']).flatten

theorem length_le_length_memberLines (texts : List Text) :
    texts.length ≤ (memberLines texts).length := by
  induction texts with
  | nil => exact Nat.zero_le _
  | cons t texts ih =>
    simp only [memberLines, List.map_cons, List.flatten_cons, List.length_append,
      List.length_cons] at ih ⊢
    omega

/-- The last member of an array. -/
theorem items_last {fuel depth : Nat}
    (hs : skipSpace false s = some (stringText t ++ ']' :: rest)) :
    items (fuel + 2) depth s = some ([.string t], rest) := by
  have hrest : ∀ c ∈ (']' :: rest).head?, c ≠ '"' ∧ c ≠ '\'' := by
    rintro _ ⟨⟩
    decide
  have hvalue := value_stringText hrest fuel depth t
  obtain ⟨q, u, hq, rfl | rfl⟩ := exists_of_stringText t
  all_goals
    rw [hq, List.cons_append] at hs hvalue
    rw [items, hs]
    simp [hvalue, skipSpace, isBlankChar]

/-- A member of an array with a comma after it. -/
theorem items_comma {fuel depth : Nat} {values : List Value} {after : Text}
    (hs : skipSpace false s = some (stringText t ++ ',' :: rest))
    (hrest : items (fuel + 1) depth rest = some (values, after)) :
    items (fuel + 2) depth s = some (.string t :: values, after) := by
  have hcomma : ∀ c ∈ (',' :: rest).head?, c ≠ '"' ∧ c ≠ '\'' := by
    rintro _ ⟨⟩
    decide
  have hvalue := value_stringText hcomma fuel depth t
  obtain ⟨q, u, hq, rfl | rfl⟩ := exists_of_stringText t
  all_goals
    rw [hq, List.cons_append] at hs hvalue
    rw [items, hs]
    simp [hvalue, skipSpace, isBlankChar, hrest]

theorem skipSpace_stringText (t rest : Text) :
    skipSpace false (stringText t ++ rest) = some (stringText t ++ rest) := by
  obtain ⟨q, u, hq, rfl | rfl⟩ := exists_of_stringText t
  all_goals
    rw [hq]
    rfl

theorem items_memberLines (texts : List Text) (fuel depth : Nat) (hfuel : texts.length < fuel)
    (rest : Text) :
    items fuel depth ('\n' :: memberLines texts ++ ']' :: rest) =
      some (texts.map Value.string, rest) := by
  induction texts generalizing fuel with
  | nil =>
    match fuel with
    | fuel + 1 => simp [items, memberLines, skipSpace, isBlankChar]
  | cons t texts ih =>
    match fuel with
    | fuel + 2 =>
      have hs : '\n' :: memberLines (t :: texts) ++ ']' :: rest =
          '\n' :: ' ' :: ' ' :: ' ' :: ' ' ::
            (stringText t ++ ',' :: ('\n' :: memberLines texts ++ ']' :: rest)) := by
        simp [memberLines, Text.ofString]
      have hfuel : texts.length < fuel + 1 := by simpa using hfuel
      rw [hs]
      exact items_comma (skipSpace_stringText t _) (ih (fuel + 1) hfuel)

theorem value_arrayText (texts : List Text) (fuel depth : Nat)
    (hfuel : (arrayText texts).length ≤ fuel) (rest : Text) :
    value (fuel + 1) (depth + 1) (arrayText texts ++ rest) =
      some (.array (texts.map Value.string), rest) := by
  have hitems : ∀ inner, arrayText texts ++ rest = '[' :: inner →
      items fuel depth inner = some (texts.map Value.string, rest) →
      value (fuel + 1) (depth + 1) (arrayText texts ++ rest) =
        some (.array (texts.map Value.string), rest) := by
    intro inner h hinner
    have hguard : (guard (0 < depth + 1) : Option Unit) = some () := if_pos (Nat.succ_pos depth)
    rw [h, value, hguard, Nat.add_sub_cancel, hinner]
    rfl
  match texts with
  | [] =>
    refine hitems _ rfl ?_
    match fuel with
    | fuel + 1 => rfl
  | [t] =>
    refine hitems (stringText t ++ ']' :: rest) (by simp [arrayText]) ?_
    have hlen : 2 ≤ fuel := by
      simp only [arrayText, List.length_append, List.length_cons] at hfuel
      omega
    obtain ⟨k, rfl⟩ := Nat.exists_eq_add_of_le' hlen
    exact items_last (skipSpace_stringText t _)
  | t :: u :: texts =>
    have hs : arrayText (t :: u :: texts) = '[' :: '\n' :: memberLines (t :: u :: texts) ++ [']'] :=
      rfl
    refine hitems _ (by rw [hs]; simp) (items_memberLines _ fuel depth ?_ rest)
    have := length_le_length_memberLines (t :: u :: texts)
    rw [hs] at hfuel
    simp at hfuel this ⊢
    omega

end Literate.Toml
