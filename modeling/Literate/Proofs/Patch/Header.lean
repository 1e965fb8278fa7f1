import Literate.Diff.Unified
import Literate.Patch.Hunk
import Literate.Proofs.Text.Decimal
import Mathlib.Data.List.TakeWhile

/-!
# Hunk headers, written and read

A range is written as a number and perhaps a length.  The number is that of the first line, or that
of the line before an empty range (`rangeNumber`), and `headerStart?_headerLine` says that it is
what is read back from the header of a hunk, whatever the lengths are.
-/

namespace Literate

/-! ### Numbers -/

theorem Unicode.isDecimalNumber_of_isDigit {c : Char} (h : c.isDigit = true) :
    isDecimalNumber c = true := by
  rw [Char.isDigit, Bool.and_eq_true, decide_eq_true_iff, decide_eq_true_iff] at h
  exact Ranges.contains_iff.mpr ⟨(0x30, 0x39), List.mem_cons_self, h.1, h.2⟩

namespace Hunk

theorem start?_decimal {n : Nat} (h : n < wordBound) : start? (Text.decimal n) = some n := by
  have hall : (Text.decimal n).all Char.isDigit = true :=
    List.all_eq_true.mpr fun c hc => Text.isDigit_of_mem_decimal hc
  rw [start?, if_pos ⟨Text.decimal_ne_nil n, hall⟩]
  simp only [Text.foldl_decimal, if_pos h]

/-- The decimal digits of a number, in any script. -/
def IsNumber (digits : Text) : Prop :=
  digits ≠ [] ∧ ∀ c ∈ digits, Unicode.isDecimalNumber c = true

/-- **A number is read** up to the first character that is no digit. -/
theorem number?_eq_some_iff {t digits rest : Text} :
    number? t = some (digits, rest) ↔ t = digits ++ rest ∧ IsNumber digits ∧
      ∀ c ∈ rest.head?, Unicode.isDecimalNumber c = false := by
  constructor
  · intro h
    unfold number? at h
    split at h
    · cases h
    · next hne =>
      obtain ⟨rfl, rfl⟩ := Prod.mk.inj (Option.some.inj h)
      refine ⟨List.takeWhile_append_dropWhile.symm, ⟨hne, fun c hc => ?_⟩, fun c hc => ?_⟩
      · exact List.mem_takeWhile_imp hc
      · have hnot := List.head?_dropWhile_not Unicode.isDecimalNumber t
        rw [hc] at hnot
        exact hnot
  · rintro ⟨rfl, ⟨hne, hall⟩, hrest⟩
    rw [number?, Text.takeWhile_append_of_head hall hrest, Text.dropWhile_append_of_head hall hrest]
    split
    · exact absurd rfl hne
    · rfl

theorem number?_decimal_append (n : Nat) {c : Char} (hc : Unicode.isDecimalNumber c = false)
    (t : Text) : number? (Text.decimal n ++ c :: t) = some (Text.decimal n, c :: t) := by
  refine number?_eq_some_iff.mpr ⟨rfl, ⟨Text.decimal_ne_nil n, fun d hd => ?_⟩, ?_⟩
  · exact Unicode.isDecimalNumber_of_isDigit (Text.isDigit_of_mem_decimal hd)
  · rintro _ ⟨⟩
    exact hc

end Hunk

namespace Diff

/-! ### Ranges -/

/-- The number that a range is written with: that of its first line, or that of the line before it
if it is empty. -/
def rangeNumber (start stop : Nat) : Nat :=
  if stop ≤ start then start else start + 1

/-- What follows the number of a range. -/
def rangeLength (start stop : Nat) : Text :=
  if stop - start = 1 then [] else ',' :: Text.decimal (stop - start)

theorem rangeText_eq (start stop : Nat) :
    rangeText start stop = Text.decimal (rangeNumber start stop) ++ rangeLength start stop := by
  simp only [rangeText, rangeNumber, rangeLength]
  split
  · next h => rw [if_neg (by omega), List.append_nil]
  · split
    · next h => rw [if_pos (by omega), h, List.append_assoc]; rfl
    · next h => rw [if_neg (by omega), List.append_assoc]; rfl

theorem afterLength_rangeLength (start stop : Nat) (t : Text) :
    Hunk.afterLength (rangeLength start stop ++ ' ' :: t) = ' ' :: t := by
  unfold rangeLength
  split
  · rfl
  · rw [List.cons_append, Hunk.afterLength, Hunk.number?_decimal_append _ (by decide)]

/-- The number of a range is read back, and what follows the range. -/
theorem number?_rangeText (start stop : Nat) (t : Text) :
    ∃ rest, Hunk.number? (rangeText start stop ++ ' ' :: t) =
        some (Text.decimal (rangeNumber start stop), rest) ∧
      Hunk.afterLength rest = ' ' :: t := by
  refine ⟨rangeLength start stop ++ ' ' :: t, ?_, afterLength_rangeLength start stop t⟩
  rw [rangeText_eq, List.append_assoc]
  unfold rangeLength
  split
  · exact Hunk.number?_decimal_append _ (by decide) t
  · exact Hunk.number?_decimal_append _ (by decide) _

/-! ### Headers -/

/-- The header of a hunk, without the LF that ends it. -/
def headerLine (oldStart oldStop newStart newStop : Nat) : Text :=
  Text.ofString "@@ -" ++ rangeText oldStart oldStop ++ Text.ofString " +" ++
    rangeText newStart newStop ++ Text.ofString " @@"

/-- **The number of the old range is what is read from a header.** -/
theorem headerStart?_headerLine (oldStart oldStop newStart newStop : Nat) :
    Hunk.headerStart? (headerLine oldStart oldStop newStart newStop) =
      Hunk.start? (Text.decimal (rangeNumber oldStart oldStop)) := by
  obtain ⟨rest, hnumber, hrest⟩ := number?_rangeText oldStart oldStop
    ('+' :: (rangeText newStart newStop ++ Text.ofString " @@"))
  obtain ⟨rest', hnumber', hrest'⟩ := number?_rangeText newStart newStop ['@', '@']
  have hfirst : Text.after? (Text.ofString "@@ -")
      (headerLine oldStart oldStop newStart newStop) = some (rangeText oldStart oldStop ++
        ' ' :: '+' :: (rangeText newStart newStop ++ Text.ofString " @@")) := by
    refine Text.after?_eq_some_iff.mpr ?_
    simp [headerLine, Text.ofString]
  have hplus : Text.after? (Text.ofString " +")
      (' ' :: '+' :: (rangeText newStart newStop ++ Text.ofString " @@")) =
        some (rangeText newStart newStop ++ ' ' :: ['@', '@']) :=
    Text.after?_eq_some_iff.mpr rfl
  have hlast : Text.after? (Text.ofString " @@") (' ' :: ['@', '@']) = some [] := rfl
  rw [Hunk.headerStart?, hfirst]
  simp only [Option.bind_eq_bind, Option.bind_some, hnumber, hrest, hplus, hnumber', hrest', hlast]

end Diff

end Literate
