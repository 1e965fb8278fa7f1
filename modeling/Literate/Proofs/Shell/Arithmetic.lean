import Literate.Proofs.Text.Decimal
import Literate.Shell.Arithmetic
import Mathlib.Data.List.TakeWhile

/-!
# Arithmetic stays in 64 bits

Every value that an expression has is an integer of 64 bits, whatever its variables hold
(`isWord_of_evaluate`).  What is not evaluated, such as the right side of `0 && …`, sets no variable
and is not divided by zero (`sound_expression`, for `live = false`).

The readers of an expression take a bound on their depth.  Three for each character and two more are
enough, and what exceeds that does not count: `expression_eq_of_le`.

A variable is a text.  What an expression sets it to is read back from that text (`valueOf_set`).
-/

namespace Literate.Shell.Arithmetic

/-! ### Integers of 64 bits -/

/-- An integer of 64 bits with a sign. -/
def IsWord (n : Int) : Prop :=
  -9223372036854775808 ≤ n ∧ n ≤ 9223372036854775807

theorem isWord_wrap (n : Int) : IsWord (wrap n) := by
  have h₁ : (-9223372036854775808 : Int) ≤ Int.bmod n 18446744073709551616 :=
    Int.le_bmod (by omega)
  have h₂ : Int.bmod n 18446744073709551616 < (18446744073709551616 + 1) / 2 :=
    Int.bmod_lt (by omega)
  exact ⟨h₁, by show Int.bmod n 18446744073709551616 ≤ _; omega⟩

theorem wrap_eq_self_iff {n : Int} : wrap n = n ↔ IsWord n := by
  constructor
  · intro h
    rw [← h]
    exact isWord_wrap n
  · rintro ⟨h₁, h₂⟩
    exact Int.bmod_eq_of_le (by show -((18446744073709551616 : Int) / 2) ≤ n; omega)
      (by show n < ((18446744073709551616 : Int) + 1) / 2; omega)

theorem isWord_truth (b : Bool) : IsWord (truth b) := by
  cases b
  · exact ⟨by decide, by decide⟩
  · exact ⟨by decide, by decide⟩

theorem isWord_not {n : Int} (h : IsWord n) : IsWord (-n - 1) := by
  obtain ⟨h₁, h₂⟩ := h
  exact ⟨by omega, by omega⟩

/-- A shift to the right stays in 64 bits without wrapping. -/
theorem isWord_shiftRight {n : Int} (h : IsWord n) (places : Int) :
    IsWord (n / shiftFactor places) := by
  obtain ⟨h₁, h₂⟩ := h
  have hpos : 1 ≤ shiftFactor places := by
    have hpow : 0 < Nat.pow 2 (places % 64).toNat := Nat.pow_pos (by omega)
    simp only [shiftFactor, Int.ofNat_eq_natCast]
    omega
  generalize shiftFactor places = factor at hpos
  constructor
  · rw [Int.le_ediv_iff_mul_le (by omega)]
    omega
  · refine Int.ediv_le_of_le_mul (by omega) ?_
    omega

/-- **Every operator gives an integer of 64 bits.** -/
theorem isWord_of_binary {op : String} {a b v : Int} (ha : IsWord a)
    (h : binary op a b = .ok v) : IsWord v := by
  unfold binary at h
  simp only at h
  split at h
  case h_4 | h_5 =>
    -- The two that divide.
    split at h
    · exact nomatch h
    · rw [← Except.ok.inj h]
      exact isWord_wrap _
  case h_13 =>
    rw [← Except.ok.inj h]
    exact isWord_shiftRight ha b
  case h_19 => exact nomatch h
  all_goals
    rw [← Except.ok.inj h]
    with_reducible first
      | exact isWord_wrap _
      | exact isWord_truth _

theorem isWord_of_number? {t : Octets} {n : Int} (h : number? t = some n) : IsWord n := by
  unfold number? at h
  split at h
  · split at h
    · next hwrap =>
      rw [← Option.some.inj h]
      exact wrap_eq_self_iff.mp hwrap.1
    · exact nomatch h
  · exact nomatch h

theorem isWord_of_valueOf {values : Values} {name : Octets} {v : Int}
    (h : valueOf values name = .ok v) : IsWord v := by
  unfold valueOf at h
  split at h
  · rw [← Except.ok.inj h]
    exact ⟨by decide, by decide⟩
  · rw [← Except.ok.inj h]
    exact ⟨by decide, by decide⟩
  · split at h
    · next n hn =>
      rw [← Except.ok.inj h]
      exact isWord_of_number? hn
    · exact nomatch h

/-- A variable that has no number is no division. -/
theorem ne_divisionByZero_of_valueOf {values : Values} {name : Octets} {fault : Fault}
    (h : valueOf values name = .error fault) : fault ≠ .divisionByZero := by
  unfold valueOf at h
  split at h
  · exact nomatch h
  · exact nomatch h
  · split at h
    · exact nomatch h
    · rw [← Except.error.inj h]
      exact nofun

/-! ### What is read -/

theorem length_skip_le (t : Octets) : (skip t).length ≤ t.length :=
  (List.dropWhile_sublist _).length_le

theorem length_lt_of_after? {op t rest : Octets} (hop : op ≠ [])
    (h : Text.after? op t = some rest) : rest.length < t.length := by
  rw [Text.after?_eq_some_iff.mp h, List.length_append]
  have := List.length_pos_iff.mpr hop
  omega

theorem length_lt_of_operator? {t rest : Octets} {op : String} {strength : Nat}
    (h : operator? t = some (op, strength, rest)) : rest.length < t.length := by
  obtain ⟨⟨op', strength'⟩, hmem, hop⟩ := List.exists_of_findSome?_eq_some h
  obtain ⟨rest', hrest, heq⟩ := Option.map_eq_some_iff.mp hop
  obtain rfl : rest' = rest := (Prod.mk.inj (Prod.mk.inj heq).2).2
  have hne : ∀ o ∈ operators, Text.ofString o.1 ≠ [] := by decide
  exact length_lt_of_after? (hne _ hmem) hrest

theorem length_lt_of_assignmentOperator? {t rest : Octets} {op : String}
    (h : assignmentOperator? t = some (op, rest)) : rest.length < t.length := by
  unfold assignmentOperator? at h
  split at h
  · exact nomatch h
  · obtain ⟨-, rfl⟩ := Prod.mk.inj (Option.some.inj h)
    simp
  · obtain ⟨op', hmem, hop⟩ := List.exists_of_findSome?_eq_some h
    split at hop
    · next rest' hrest =>
      obtain ⟨-, rfl⟩ := Prod.mk.inj (Option.some.inj hop)
      rw [Text.after?_eq_some_iff.mp hrest]
      simp
      omega
    · exact nomatch hop

/-- What follows the operator of an assignment to a name. -/
theorem length_lt_of_assignment {isName : Bool} {p : Char → Bool} {t rest : Octets} {op : String}
    (h : (if isName then assignmentOperator? (skip ((skip t).dropWhile p)) else none) =
      some (op, rest)) : rest.length < t.length := by
  split at h
  · have hrest := length_lt_of_assignmentOperator? h
    have hskip := length_skip_le ((skip t).dropWhile p)
    have hname := (List.dropWhile_sublist (l := skip t) p).length_le
    have hskip' := length_skip_le t
    omega
  · exact nomatch h

/-- **What a reader of an expression keeps.**  The value is an integer of 64 bits, and less than
`bound` is left of the text.  A part that is not evaluated leaves the variables as they are, and it
is not divided by zero there. -/
def Sound (live : Bool) (values : Values) (bound : Nat) : Step → Prop
  | .ok (v, rest, after) => IsWord v ∧ rest.length < bound ∧ (live = false → after = values)
  | .error fault => live = false → fault ≠ .divisionByZero

variable {live inner : Bool} {values before : Values} {bound bound' : Nat} {step : Step}

theorem Sound.mono (h : Sound live values bound step) (hle : bound ≤ bound') :
    Sound live values bound' step := by
  cases step with
  | error fault => exact h
  | ok result => exact ⟨h.1, Nat.lt_of_lt_of_le h.2.1 hle, h.2.2⟩

/-- One reader after another; `inner` says whether the part that the first one reads is
evaluated. -/
theorem Sound.bind {next : Int × Octets × Values → Step} (h : Sound inner values bound step)
    (hinner : live = false → inner = false)
    (hnext : ∀ v rest after, IsWord v → rest.length < bound → (live = false → after = values) →
      Sound live values bound' (next (v, rest, after))) :
    Sound live values bound' (step >>= next) := by
  cases step with
  | error fault => exact fun hlive => h (hinner hlive)
  | ok result =>
    obtain ⟨v, rest, after⟩ := result
    exact hnext v rest after h.1 h.2.1 fun hlive => h.2.2 (hinner hlive)

/-- A value that is computed before going on. -/
theorem sound_bind_value {value : Except Fault Int} {next : Int → Step}
    (hfault : ∀ fault, value = .error fault → live = false → fault ≠ .divisionByZero)
    (hnext : ∀ v, value = .ok v → Sound live values bound (next v)) :
    Sound live values bound (value >>= next) := by
  cases value with
  | error fault => exact hfault fault rfl
  | ok v => exact hnext v rfl

/-- What holds of the variables at hand holds of those before, if a part that is not evaluated has
left them as they are. -/
theorem Sound.of_eq (h : Sound inner values bound step) (hinner : live = false → inner = false)
    (heq : live = false → values = before) : Sound live before bound step := by
  cases step with
  | error fault => exact fun hlive => h (hinner hlive)
  | ok result => exact ⟨h.1, h.2.1, fun hlive => (h.2.2 (hinner hlive)).trans (heq hlive)⟩

/-- All readers with a bound on their depth keep it. -/
structure AllSound (fuel : Nat) : Prop where
  expression : ∀ live values t, Sound live values t.length (expression fuel live values t)
  operand : ∀ live strength values t,
    Sound live values t.length (operand fuel live strength values t)
  operandRest : ∀ live strength first values t, IsWord first →
    Sound live values (t.length + 1) (operandRest fuel live strength first values t)
  primary : ∀ live values t, Sound live values t.length (primary fuel live values t)

theorem allSound_zero : AllSound 0 where
  expression _ _ _ := fun _ => nofun
  operand _ _ _ _ := fun _ => nofun
  operandRest _ _ _ _ _ h := ⟨h, Nat.lt_succ_self _, fun _ => rfl⟩
  primary _ _ _ := fun _ => nofun

variable {fuel : Nat}

theorem AllSound.primary_succ (h : AllSound fuel) (live : Bool) (values : Values) (t : Octets) :
    Sound live values t.length (Arithmetic.primary (fuel + 1) live values t) := by
  have hskip := length_skip_le t
  rw [Arithmetic.primary]
  split
  · next rest heq =>
    rw [heq, List.length_cons] at hskip
    refine (h.expression live values rest).bind id fun v rest' after hv hlt hafter => ?_
    have hskip' := length_skip_le rest'
    simp only
    split
    · next rest'' heq' =>
      rw [heq', List.length_cons] at hskip'
      exact ⟨hv, by omega, hafter⟩
    · exact fun _ => nofun
  · next rest heq =>
    rw [heq, List.length_cons] at hskip
    refine (h.primary live values rest).bind id fun v rest' after hv hlt hafter => ?_
    exact ⟨isWord_wrap _, by omega, hafter⟩
  · next rest heq =>
    rw [heq, List.length_cons] at hskip
    exact (h.primary live values rest).mono (by omega)
  · next rest heq =>
    rw [heq, List.length_cons] at hskip
    refine (h.primary live values rest).bind id fun v rest' after hv hlt hafter => ?_
    exact ⟨isWord_truth _, by omega, hafter⟩
  · next rest heq =>
    rw [heq, List.length_cons] at hskip
    refine (h.primary live values rest).bind id fun v rest' after hv hlt hafter => ?_
    exact ⟨isWord_not hv, by omega, hafter⟩
  · simp only
    split
    · exact fun _ => nofun
    · next c word hword =>
      have hlt : ((skip t).dropWhile fun c => c.isAlphanum || c = '_').length < t.length := by
        have happend := congrArg List.length
          (List.takeWhile_append_dropWhile (p := fun c => c.isAlphanum || c = '_') (l := skip t))
        rw [hword, List.length_append, List.length_cons] at happend
        omega
      split
      · split
        · exact ⟨isWord_wrap _, hlt, fun _ => rfl⟩
        · exact fun _ => nofun
      · exact sound_bind_value (fun fault h _ => ne_divisionByZero_of_valueOf h)
          fun v h => ⟨isWord_of_valueOf h, hlt, fun _ => rfl⟩

theorem AllSound.operand_succ (h : AllSound fuel) (live : Bool) (strength : Nat) (values : Values)
    (t : Octets) :
    Sound live values t.length (Arithmetic.operand (fuel + 1) live strength values t) := by
  rw [Arithmetic.operand]
  refine (h.primary live values t).bind id fun v rest after hv hlt hafter => ?_
  exact ((h.operandRest live strength v after rest hv).of_eq id hafter).mono hlt

theorem AllSound.operandRest_succ (h : AllSound fuel) (live : Bool) (strength : Nat) {first : Int}
    (values : Values) (t : Octets) (hfirst : IsWord first) :
    Sound live values (t.length + 1)
      (Arithmetic.operandRest (fuel + 1) live strength first values t) := by
  have hskip := length_skip_le t
  rw [Arithmetic.operandRest]
  split
  · next op s rest hop =>
    have hlt := length_lt_of_operator? hop
    split
    · simp only
      generalize hright : (live && !(decide (op = "&&") && decide (first = 0) ||
        decide (op = "||") && decide (first ≠ 0))) = liveRight
      have hinner : live = false → liveRight = false := by
        rintro rfl
        rw [← hright, Bool.false_and]
      refine (h.operand liveRight (s + 1) values rest).bind hinner
        fun second rest' after hsecond hlt' hafter => ?_
      have hgo : ∀ v, IsWord v → Sound live values (t.length + 1)
          (Arithmetic.operandRest fuel live strength v after rest') := fun v hv =>
        ((h.operandRest live strength v after rest' hv).of_eq id hafter).mono (by omega)
      simp only
      split
      · next hright' =>
        -- Only a part that is evaluated can be divided by zero.
        have hnot : ¬ live = false := by
          intro hlive
          rw [hinner hlive] at hright'
          cases hright'
        exact sound_bind_value (fun fault _ hlive => absurd hlive hnot)
          fun v h => hgo v (isWord_of_binary hfirst h)
      · exact hgo _ (isWord_truth _)
    · exact ⟨hfirst, by omega, fun _ => rfl⟩
  · exact ⟨hfirst, by omega, fun _ => rfl⟩

theorem AllSound.expression_succ (h : AllSound fuel) (live : Bool) (values : Values) (t : Octets) :
    Sound live values t.length (Arithmetic.expression (fuel + 1) live values t) := by
  have hskip := length_skip_le t
  rw [Arithmetic.expression]
  simp only
  split
  · next op rest hop =>
    have hlt := length_lt_of_assignment hop
    refine (h.expression live values rest).bind id fun v rest' after hv hlt' hafter => ?_
    simp only
    split
    · next hlive =>
      have hnot : ¬ live = false := by
        intro hfalse
        rw [hfalse] at hlive
        cases hlive
      split
      · exact ⟨hv, by omega, fun hfalse => absurd hfalse hnot⟩
      · refine sound_bind_value (fun fault _ hfalse => absurd hfalse hnot) fun old hold => ?_
        refine sound_bind_value (fun fault _ hfalse => absurd hfalse hnot) fun new hnew => ?_
        exact ⟨isWord_of_binary (isWord_of_valueOf hold) hnew, by omega,
          fun hfalse => absurd hfalse hnot⟩
    · exact ⟨hv, by omega, hafter⟩
  · refine (h.operand live 1 values (skip t)).bind id fun condition rest after hc hlt hafter => ?_
    have hrest := length_skip_le rest
    simp only
    split
    · next yes heq =>
      rw [heq, List.length_cons] at hrest
      have hinner : ∀ b : Bool, live = false → (live && b) = false := by
        rintro b rfl
        exact Bool.false_and b
      refine ((h.expression (live && decide (condition ≠ 0)) after yes).of_eq (hinner _)
        hafter).bind id fun yesValue rest' after' hyes hlt' hafter' => ?_
      have hrest' := length_skip_le rest'
      simp only
      split
      · next no heq' =>
        rw [heq', List.length_cons] at hrest'
        refine ((h.expression (live && decide (condition = 0)) after' no).of_eq (hinner _)
          hafter').bind id fun noValue rest'' after'' hno hlt'' hafter'' => ?_
        simp only at hlt'' ⊢
        refine ⟨?_, by omega, hafter''⟩
        split
        · exact hyes
        · exact hno
      · exact fun _ => nofun
    · exact ⟨hc, by omega, hafter⟩

theorem allSound (fuel : Nat) : AllSound fuel := by
  induction fuel with
  | zero => exact allSound_zero
  | succ fuel ih =>
    exact ⟨ih.expression_succ, ih.operand_succ,
      fun live strength first values t h => ih.operandRest_succ live strength values t h,
      ih.primary_succ⟩

/-- **Every value of an expression is an integer of 64 bits.** -/
theorem isWord_of_evaluate {after : Values} {t : Octets} {n : Int}
    (h : evaluate values t = .ok (n, after)) : IsWord n := by
  have hsound := (allSound (4 * t.length + 8)).expression true values t
  unfold evaluate at h
  split at h
  · exact nomatch h
  · next v rest after' hstep =>
    rw [hstep] at hsound
    split at h
    · obtain ⟨rfl, -⟩ := Prod.mk.inj (Except.ok.inj h)
      exact hsound.1
    · exact nomatch h

/-- **What is not evaluated does nothing**: it leaves the variables as they are, and nothing is
divided by zero in it. -/
theorem expression_dead (fuel : Nat) (values : Values) (t : Octets) :
    match expression fuel false values t with
    | .ok (_, _, after) => after = values
    | .error fault => fault ≠ .divisionByZero := by
  have hsound := (allSound fuel).expression false values t
  cases hstep : expression fuel false values t with
  | error fault =>
    rw [hstep] at hsound
    exact hsound rfl
  | ok result =>
    rw [hstep] at hsound
    exact hsound.2.2 rfl

/-- The sum wraps around, and the division on the right is left alone. -/
example : (evaluate [] (Text.ofString "1 || 1 / 0")).toOption = some (1, []) ∧
    (evaluate [] (Text.ofString "9223372036854775807 + 1")).toOption =
      some (-9223372036854775808, []) := by
  decide +kernel

/-! ### The bound on the depth -/

/-- The readers give the same with a greater bound, if the bound is great enough for the text. -/
structure AllSettled (fuel : Nat) : Prop where
  expression : ∀ live values t, 3 * t.length + 2 ≤ fuel →
    expression (fuel + 1) live values t = expression fuel live values t
  operand : ∀ live strength values t, 3 * t.length + 1 ≤ fuel →
    operand (fuel + 1) live strength values t = operand fuel live strength values t
  operandRest : ∀ live strength first values t, 3 * t.length + 1 ≤ fuel →
    operandRest (fuel + 1) live strength first values t =
      operandRest fuel live strength first values t
  primary : ∀ live values t, 3 * t.length ≤ fuel →
    primary (fuel + 1) live values t = primary fuel live values t

/-- Readers that agree on what is left agree one after another. -/
theorem bind_congr_of_sound {next next' : Int × Octets × Values → Step}
    (h : Sound live values bound step)
    (hnext : ∀ v rest after, rest.length < bound → next (v, rest, after) = next' (v, rest, after)) :
    step >>= next = step >>= next' := by
  cases step with
  | error fault => rfl
  | ok result => exact hnext _ _ _ h.2.1

theorem AllSettled.primary_succ (h : AllSettled fuel) (live : Bool) (values : Values) (t : Octets)
    (ht : 3 * t.length ≤ fuel + 1) :
    Arithmetic.primary (fuel + 2) live values t = Arithmetic.primary (fuel + 1) live values t := by
  have hskip := length_skip_le t
  rw [Arithmetic.primary, Arithmetic.primary]
  split
  · next rest heq =>
    rw [heq, List.length_cons] at hskip
    rw [h.expression live values rest (by omega)]
  · next rest heq =>
    rw [heq, List.length_cons] at hskip
    rw [h.primary live values rest (by omega)]
  · next rest heq =>
    rw [heq, List.length_cons] at hskip
    rw [h.primary live values rest (by omega)]
  · next rest heq =>
    rw [heq, List.length_cons] at hskip
    rw [h.primary live values rest (by omega)]
  · next rest heq =>
    rw [heq, List.length_cons] at hskip
    rw [h.primary live values rest (by omega)]
  · rfl

theorem AllSettled.operand_succ (h : AllSettled fuel) (live : Bool) (strength : Nat)
    (values : Values) (t : Octets) (ht : 3 * t.length + 1 ≤ fuel + 1) :
    Arithmetic.operand (fuel + 2) live strength values t =
      Arithmetic.operand (fuel + 1) live strength values t := by
  rw [Arithmetic.operand, Arithmetic.operand, h.primary live values t (by omega)]
  refine bind_congr_of_sound ((allSound fuel).primary live values t) fun v rest after hlt => ?_
  exact h.operandRest live strength v after rest (by omega)

theorem AllSettled.operandRest_succ (h : AllSettled fuel) (live : Bool) (strength : Nat)
    (first : Int) (values : Values) (t : Octets) (ht : 3 * t.length + 1 ≤ fuel + 1) :
    Arithmetic.operandRest (fuel + 2) live strength first values t =
      Arithmetic.operandRest (fuel + 1) live strength first values t := by
  have hskip := length_skip_le t
  rw [Arithmetic.operandRest, Arithmetic.operandRest]
  split
  · next op s rest hop =>
    have hlt := length_lt_of_operator? hop
    split
    · simp only
      rw [h.operand _ (s + 1) values rest (by omega)]
      refine bind_congr_of_sound ((allSound fuel).operand _ (s + 1) values rest)
        fun second rest' after hlt' => ?_
      simp only [h.operandRest live strength _ after rest' (by omega)]
    · rfl
  · rfl

theorem AllSettled.expression_succ (h : AllSettled fuel) (live : Bool) (values : Values)
    (t : Octets) (ht : 3 * t.length + 2 ≤ fuel + 1) :
    Arithmetic.expression (fuel + 2) live values t =
      Arithmetic.expression (fuel + 1) live values t := by
  have hskip := length_skip_le t
  rw [Arithmetic.expression, Arithmetic.expression]
  simp only
  split
  · next op rest hop =>
    have hlt := length_lt_of_assignment hop
    rw [h.expression live values rest (by omega)]
  · rw [h.operand live 1 values (skip t) (by omega)]
    refine bind_congr_of_sound ((allSound fuel).operand live 1 values (skip t))
      fun condition rest after hlt => ?_
    have hrest := length_skip_le rest
    simp only
    split
    · next yes heq =>
      rw [heq, List.length_cons] at hrest
      rw [h.expression _ after yes (by omega)]
      refine bind_congr_of_sound ((allSound fuel).expression _ after yes)
        fun yesValue rest' after' hlt' => ?_
      have hrest' := length_skip_le rest'
      simp only
      split
      · next no heq' =>
        rw [heq', List.length_cons] at hrest'
        rw [h.expression _ after' no (by omega)]
      · rfl
    · rfl

theorem allSettled (fuel : Nat) : AllSettled fuel := by
  induction fuel with
  | zero =>
    refine ⟨fun _ _ t h => absurd h (by omega), fun _ _ _ t h => absurd h (by omega),
      fun _ _ _ _ t h => absurd h (by omega), fun live values t h => ?_⟩
    -- Without a character there is nothing to begin with.
    obtain rfl := List.length_eq_zero_iff.mp (show t.length = 0 by omega)
    rfl
  | succ fuel ih =>
    exact ⟨ih.expression_succ, ih.operand_succ, ih.operandRest_succ, ih.primary_succ⟩

/-- **A bound that is great enough does not count.** -/
theorem expression_eq_of_le {t : Octets} {fuel fuel' : Nat} (h : 3 * t.length + 2 ≤ fuel)
    (hle : fuel ≤ fuel') (live : Bool) (values : Values) :
    expression fuel' live values t = expression fuel live values t := by
  induction hle with
  | refl => rfl
  | step hle ih => rw [← ih, (allSettled _).expression live values t (Nat.le_trans h hle)]

/-! ### Variables -/

theorem digits_decimal (n : Nat) : digits 10 (Text.decimal n) = some n := by
  have hdigit : ∀ c ∈ Text.decimal n, digitValue c = c.toNat - '0'.toNat := by
    intro c hc
    exact if_pos (Text.isDigit_of_mem_decimal hc)
  have hall : (Text.decimal n).all (fun c => decide (digitValue c < 10)) = true := by
    rw [List.all_eq_true]
    intro c hc
    rw [hdigit c hc]
    exact decide_eq_true (Text.toNat_sub_lt_of_isDigit (Text.isDigit_of_mem_decimal hc))
  have hvalue : (Text.decimal n).foldl (fun n d => 10 * n + digitValue d) 0 = n := by
    refine Eq.trans (List.foldl_ext _ _ 0 fun m c hc => ?_) (Text.foldl_decimal n)
    rw [hdigit c hc]
  rw [digits, if_pos ⟨Text.decimal_ne_nil n, hall⟩, hvalue]

theorem leadingNatural_decimal (n : Nat) : leadingNatural (Text.decimal n) = some (n, []) := by
  have hdigits : leadingDigits 10 (Text.decimal n) = some (n, []) := by
    have htake : (Text.decimal n).takeWhile (fun c => decide (digitValue c < 10)) =
        Text.decimal n := by
      rw [List.takeWhile_eq_self_iff]
      intro c hc
      rw [digitValue, if_pos (Text.isDigit_of_mem_decimal hc)]
      exact decide_eq_true (Text.toNat_sub_lt_of_isDigit (Text.isDigit_of_mem_decimal hc))
    simp only [leadingDigits, htake, digits_decimal, Option.map_some, List.drop_length]
  unfold leadingNatural
  split
  · next x rest heq =>
    by_cases hn : n = 0
    · subst hn
      cases heq
    · exact absurd (congrArg List.head? heq) (Text.head?_decimal_ne hn)
  · exact hdigits

/-- A number is no blank and no sign. -/
theorem leadingNumber_decimal (n : Nat) :
    leadingNumber (Text.decimal n) = some ((n : Int), []) := by
  obtain ⟨c, rest, heq⟩ := List.exists_cons_of_ne_nil (Text.decimal_ne_nil n)
  have hc : c.isDigit = true := Text.isDigit_of_mem_decimal (heq ▸ List.mem_cons_self)
  have hskip : skip (Text.decimal n) = Text.decimal n := by
    have hge : 48 ≤ c.toNat := by
      rw [Char.isDigit, Bool.and_eq_true, decide_eq_true_iff, decide_eq_true_iff] at hc
      exact hc.1
    rw [skip, heq, List.dropWhile_cons_of_neg]
    intro h
    rw [Bool.or_eq_true, Bool.and_eq_true, decide_eq_true_iff, decide_eq_true_iff,
      decide_eq_true_iff] at h
    rcases h with rfl | ⟨-, h⟩
    · exact absurd hge (by decide)
    · have : c.toNat ≤ 13 := h
      omega
  unfold leadingNumber
  rw [hskip]
  split
  · next rest' heq' =>
    rw [heq] at heq'
    obtain ⟨rfl, -⟩ := List.cons.inj heq'
    cases hc
  · next rest' heq' =>
    rw [heq] at heq'
    obtain ⟨rfl, -⟩ := List.cons.inj heq'
    cases hc
  · rw [leadingNatural_decimal]
    rfl

theorem leadingNumber_render (n : Int) : leadingNumber (render n) = some (n, []) := by
  unfold render
  split
  · next hneg =>
    have hskip : skip ('-' :: Text.decimal n.natAbs) = '-' :: Text.decimal n.natAbs := rfl
    rw [leadingNumber, hskip]
    simp only [leadingNatural_decimal, Option.map_some]
    rw [show -((n.natAbs : Nat) : Int) = n by omega]
  · rw [leadingNumber_decimal, Int.toNat_of_nonneg (by omega)]

/-- **A number that is written is read back**, if it is one of 64 bits. -/
theorem number?_render_eq_some_iff {n : Int} : number? (render n) = some n ↔ IsWord n := by
  rw [number?, leadingNumber_render, ← wrap_eq_self_iff]
  simp [skip]

/-- **A variable holds the value that an expression has set it to.** -/
theorem valueOf_set {n : Int} (h : IsWord n) (name : Octets) (values : Values) :
    valueOf ((name, render n) :: values) name = .ok n := by
  have hne : render n ≠ [] := by
    unfold render
    split
    · simp
    · exact Text.decimal_ne_nil _
  rw [valueOf, List.find?_cons_of_pos (by simp), Option.map_some]
  split
  · next h => cases h
  · next h => exact absurd (Option.some.inj h) hne
  · next t _ ht =>
    obtain rfl := Option.some.inj ht
    rw [number?_render_eq_some_iff.mpr h]

end Literate.Shell.Arithmetic
