import Literate.Text.Quoted
import Mathlib.Data.List.Basic

/-!
# Decimal digits

A number is written with digits only, with a zero in front only if it is zero, and its digits have
the value of the number.
-/

namespace Literate.Text

variable {n : Nat}

theorem decimal_ne_nil (n : Nat) : decimal n ≠ [] :=
  Nat.toDigits_ne_nil

theorem isDigit_of_mem_decimal {c : Char} (h : c ∈ decimal n) : c.isDigit = true :=
  Nat.isDigit_of_mem_toDigits (by decide) (by decide) h

/-- The value of a digit. -/
theorem toNat_sub_lt_of_isDigit {c : Char} (h : c.isDigit = true) : c.toNat - '0'.toNat < 10 := by
  have hle : c.toNat ≤ 57 := by
    rw [Char.isDigit, Bool.and_eq_true, decide_eq_true_iff, decide_eq_true_iff] at h
    exact h.2
  have : '0'.toNat = 48 := rfl
  omega

theorem foldl_decimal (n : Nat) :
    (decimal n).foldl (fun n d => 10 * n + (d.toNat - '0'.toNat)) 0 = n := by
  rw [← Nat.ofDigitChars_eq_foldl]
  exact Nat.ofDigitChars_ten_toDigits

theorem head?_decimal_ne (hn : n ≠ 0) : (decimal n).head? ≠ some '0' := by
  induction n using Nat.strongRecOn with
  | ind n ih =>
    unfold decimal at ih ⊢
    by_cases h : n < 10
    · rw [Nat.toDigits_of_lt_base h, List.head?_cons]
      intro h0
      exact hn (Nat.digitChar_eq_zero.mp (Option.some.inj h0))
    · have hd : n / 10 < n := by omega
      have hne : n / 10 ≠ 0 := by omega
      rw [Nat.toDigits_of_base_le (by decide) (by omega),
        List.head?_append_of_ne_nil _ Nat.toDigits_ne_nil]
      exact ih (n / 10) hd hne

end Literate.Text
