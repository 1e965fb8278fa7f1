import Literate.Text.Basic

/-!
# Order of texts

Texts are ordered by their code points, which is also the order of their bytes in UTF-8. Names and
keys are listed in this order.
-/

namespace Literate.Text

/-- Whether `s` comes before `t` or is `t`: at the first difference the smaller code point decides,
and a text comes before its continuations. -/
def le : Text → Text → Bool
  | [], _ => true
  | _ :: _, [] => false
  | c :: s, d :: t => if c = d then le s t else c.toNat ≤ d.toNat

theorem le_refl (t : Text) : le t t = true := by
  induction t with
  | nil => rfl
  | cons c t ih => simp [le, ih]

theorem le_trans {s t u : Text} (hst : le s t = true) (htu : le t u = true) : le s u = true := by
  induction s generalizing t u with
  | nil => rfl
  | cons c s ih =>
    match t, u with
    | d :: t, e :: u =>
      simp only [le] at hst htu ⊢
      by_cases hcd : c = d
      · by_cases hde : d = e
        · subst hcd hde
          simp only [if_true] at hst htu ⊢
          exact ih hst htu
        · subst hcd
          simpa only [if_neg hde] using htu
      · by_cases hde : d = e
        · subst hde
          simpa only [if_neg hcd] using hst
        · rw [if_neg hcd, decide_eq_true_iff] at hst
          rw [if_neg hde, decide_eq_true_iff] at htu
          have hlt : c.toNat < d.toNat := Nat.lt_of_le_of_ne hst fun h => hcd (Char.toNat_inj.mp h)
          have hce : c ≠ e := by
            rintro rfl
            omega
          rw [if_neg hce, decide_eq_true_iff]
          omega

theorem le_total (s t : Text) : (le s t || le t s) = true := by
  induction s generalizing t with
  | nil => rfl
  | cons c s ih =>
    match t with
    | [] => rfl
    | d :: t =>
      by_cases h : c = d
      · subst h
        simpa [le] using ih t
      · simp only [le, if_neg h, if_neg (Ne.symm h), Bool.or_eq_true, decide_eq_true_iff]
        omega

/-- The entries of a table by their keys. -/
def sortByKey {α : Type} (entries : List (Text × α)) : List (Text × α) :=
  entries.mergeSort fun a b => le a.1 b.1

theorem sortByKey_perm {α : Type} (entries : List (Text × α)) :
    (sortByKey entries).Perm entries :=
  List.mergeSort_perm _ _

theorem pairwise_sortByKey {α : Type} (entries : List (Text × α)) :
    (sortByKey entries).Pairwise fun a b => le a.1 b.1 = true :=
  List.pairwise_mergeSort (fun a b c => @le_trans a.1 b.1 c.1) (fun a b => le_total a.1 b.1) entries

theorem sortByKey_eq_self {α : Type} {entries : List (Text × α)}
    (h : entries.Pairwise fun a b => le a.1 b.1 = true) : sortByKey entries = entries :=
  List.mergeSort_of_pairwise h

end Literate.Text
