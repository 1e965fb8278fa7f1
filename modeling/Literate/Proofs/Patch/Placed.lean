import Literate.Proofs.Patch.Grammar
import Literate.Proofs.Patch.Slices

/-!
# Hunks placed one after the other

`Placed old cursor placements stop`: hunks go where they belong in `old`, the first one not before
`cursor`, each not before the end of the one before it, and the last one ends at `stop`.  `replaced`
puts the new sides in the places of the old sides.

A diff that applies does what its hunks say where they belong, and nothing else (`apply_placed`).  A
diff of which a hunk is refused has been placed up to that hunk (`apply_refused`).
-/

namespace Literate

/-- **A hunk and its place**, as the number of lines before it. -/
structure Placement where
  hunk : Hunk
  position : Nat
deriving DecidableEq, Repr

namespace Placement

/-- The place where the old side of the hunk ends. -/
def stop (p : Placement) : Nat :=
  p.position + p.hunk.oldLines.length

/-- The lines with those between the place of the hunk and its end replaced by the new side. -/
def replace (p : Placement) (ls : List Text) : List Text :=
  ls.take p.position ++ p.hunk.newLines ++ ls.drop p.stop

end Placement

/-- **Hunks at their places** in `old`, from `cursor` to `stop`. -/
inductive Placed (old : List Text) : Nat → List Placement → Nat → Prop
  | nil {cursor : Nat} : Placed old cursor [] cursor
  | cons {cursor stop : Nat} {p : Placement} {rest : List Placement} :
      p.hunk.Belongs old cursor p.position → Placed old p.stop rest stop →
        Placed old cursor (p :: rest) stop

/-- The lines with the hunks in place.  The last one is put in first, so that the places of those
before it stay what they are. -/
def replaced (old : List Text) (placements : List Placement) : List Text :=
  placements.foldr Placement.replace old

variable {old : List Text} {cursor stop number : Nat} {p : Placement}
  {placements rest : List Placement}

namespace Placed

/-- In front of the first place, nothing is changed. -/
theorem take_replaced (h : Placed old cursor placements stop) {n : Nat} (hn : n ≤ cursor) :
    (replaced old placements).take n = old.take n := by
  induction h generalizing n with
  | nil => rfl
  | @cons cursor stop p rest belongs _ ih =>
    have hcursor : cursor ≤ p.position := belongs.stands.cursor_le
    have hstop : p.stop ≤ old.length := belongs.stands.stop_le
    have hpos : p.position ≤ p.stop := Nat.le_add_right _ _
    show (Placement.replace p (replaced old rest)).take n = _
    rw [Placement.replace, ih hpos, List.append_assoc, List.take_append_of_le_length,
      List.take_take, Nat.min_eq_left (by omega)]
    rw [List.length_take]
    omega

/-- The lines with the first hunk in place, and the others behind it. -/
theorem replaced_cons (h : Placed old cursor (p :: rest) stop) : replaced old (p :: rest) =
    old.take p.position ++ p.hunk.newLines ++ (replaced old rest).drop p.stop := by
  cases h with
  | cons belongs later =>
    have hpos : p.position ≤ p.stop := Nat.le_add_right _ _
    rw [← later.take_replaced hpos]
    rfl

end Placed

/-! ### Applying -/

namespace Hunk

variable {hunks : List Hunk} {ls : List Text}

/-- **Hunks that apply are placed**, and put in where they are placed. -/
theorem exists_placed_of_applyFrom (h : applyFrom old number cursor hunks = .ok ls)
    (hc : cursor ≤ old.length) :
    ∃ placements stop, hunks = placements.map Placement.hunk ∧
      Placed old cursor placements stop ∧ replaced old placements = old.take cursor ++ ls := by
  induction hunks generalizing number cursor ls with
  | nil =>
    obtain rfl := Except.ok.inj h
    exact ⟨[], cursor, rfl, .nil, (List.take_append_drop cursor old).symm⟩
  | cons hunk rest ih =>
    rw [applyFrom] at h
    split at h
    · cases h
    · next position hlocate =>
      split at h
      · cases h
      · next later hlater =>
        obtain rfl := Except.ok.inj h
        have belongs := belongs_of_locate hlocate
        obtain ⟨hcursor, hstop, -⟩ := belongs.stands
        obtain ⟨placements, stop, rfl, placed, hreplaced⟩ := ih hlater hstop
        have hplaced : Placed old cursor (⟨hunk, position⟩ :: placements) stop :=
          .cons belongs placed
        refine ⟨⟨hunk, position⟩ :: placements, stop, rfl, hplaced, ?_⟩
        have hdrop : (replaced old placements).drop (position + hunk.oldLines.length) = later := by
          rw [hreplaced, List.drop_left' (List.length_take_of_le hstop)]
        have hgap : old.take position =
            old.take cursor ++ (old.drop cursor).take (position - cursor) := by
          rw [← List.take_add, Nat.add_sub_cancel' hcursor]
        calc replaced old (⟨hunk, position⟩ :: placements)
            = old.take position ++ hunk.newLines ++
                (replaced old placements).drop (position + hunk.oldLines.length) :=
              hplaced.replaced_cons
          _ = old.take cursor ++
                ((old.drop cursor).take (position - cursor) ++ hunk.newLines ++ later) := by
              rw [hdrop, hgap]
              simp only [List.append_assoc]

/-- **Where hunks are refused**: those before the one that is refused are placed. -/
theorem exists_placed_of_applyFrom_error {e : PatchError}
    (h : applyFrom old number cursor hunks = .error e) :
    ∃ placements stop hunk later, hunks = placements.map Placement.hunk ++ hunk :: later ∧
      Placed old cursor placements stop ∧ hunk.locate old stop = none ∧
        e = .mismatch (number + placements.length) hunk.oldStart hunk.oldLines := by
  induction hunks generalizing number cursor with
  | nil => cases h
  | cons hunk rest ih =>
    rw [applyFrom] at h
    split at h
    · next hlocate =>
      obtain rfl := Except.error.inj h
      exact ⟨[], cursor, hunk, rest, rfl, .nil, hlocate, rfl⟩
    · next position hlocate =>
      split at h
      · next hlater =>
        obtain rfl := Except.error.inj h
        obtain ⟨placements, stop, refused, later, rfl, placed, hrefused, rfl⟩ := ih hlater
        refine ⟨⟨hunk, position⟩ :: placements, stop, refused, later, rfl,
          .cons (belongs_of_locate hlocate) placed, hrefused, ?_⟩
        rw [List.length_cons, Nat.add_right_comm, Nat.add_assoc]
      · cases h

/-! ### Reading -/

/-- Reading a diff does not place its hunks. -/
theorem ofLines_ne_mismatch {refused stated : Nat} {lines expected : List Text} :
    ofLines number lines ≠ .error (.mismatch refused stated expected) := by
  intro h
  obtain ⟨he, -⟩ | ⟨_, _, _, -, he, -⟩ := of_ofLines_error h
  · cases he
  · cases he

end Hunk

namespace Patch

variable {original patch result : Text} {ls : List Text}

/-- The lines of a patched text are those of the old one with the hunks in place. -/
theorem exists_placed_of_applyFrom {hunks : List Hunk}
    (h : Hunk.applyFrom (Text.lines original) 1 0 hunks = .ok ls) :
    ∃ placements stop, hunks = placements.map Placement.hunk ∧
      Placed (Text.lines original) 0 placements stop ∧
        replaced (Text.lines original) placements = ls :=
  Hunk.exists_placed_of_applyFrom h (Nat.zero_le _)

/-- **A diff that applies does what its hunks say, where they belong.**  Each hunk goes where it
belongs, not before the end of the one before it.  The result are the lines of the original with the
old sides replaced by the new sides, joined by LFs; it ends with LF if that is not empty and the
original is empty or ends with LF.  No slice is out of range meanwhile. -/
theorem apply_placed (h : apply original patch = .ok result) :
    applied? original patch = some (.ok result) ∧
      ∃ placements stop, Hunk.parse patch = .ok (placements.map Placement.hunk) ∧
        Placed (Text.lines original) 0 placements stop ∧
          let joined := Text.join ['\n'] (replaced (Text.lines original) placements)
          result = if joined ≠ [] ∧ (original = [] ∨ Text.endsWithNewline original) then
            joined ++ ['\n'] else joined := by
  refine ⟨(applied?_eq original patch).trans (congrArg some h), ?_⟩
  obtain ⟨hunks, ls, hparse, happly, rfl⟩ := apply_eq_ok_iff.mp h
  obtain ⟨placements, stop, rfl, placed, rfl⟩ := exists_placed_of_applyFrom happly
  exact ⟨placements, stop, hparse, placed, rfl⟩

/-- The first hunk is as near to two places and goes to the later one; the second states a place in
front of that and goes to the next one behind it. -/
theorem apply_placed_tie :
    let original := Text.ofString "x\n1\nx\n2\nx\n"
    let patch := Text.ofString "@@ -2 +2 @@\n-x\n+y\n@@ -1 +1 @@\n-x\n+z\n"
    let result := Text.ofString "x\n1\ny\n2\nz\n"
    apply original patch = .ok result ∧ applied? original patch = some (.ok result) ∧
      ∃ placements stop, Hunk.parse patch = .ok (placements.map Placement.hunk) ∧
        Placed (Text.lines original) 0 placements stop ∧
          let joined := Text.join ['\n'] (replaced (Text.lines original) placements)
          result = if joined ≠ [] ∧ (original = [] ∨ Text.endsWithNewline original) then
            joined ++ ['\n'] else joined := by
  intro original patch result
  have happly : apply original patch = .ok result := by decide +kernel
  exact ⟨happly, apply_placed happly⟩

/-- **A hunk is refused only if its old side, when that is not empty, is out of reach.**  The hunks
before it have gone where they belong.  From the end of the last of them on, its old side stands
only where the line number that its header states is greater by more than the number of lines.  So
it stands nowhere if that number is not behind the end. -/
theorem apply_refused {number start : Nat} {expected : List Text}
    (h : apply original patch = .error (.mismatch number start expected)) (hne : expected ≠ []) :
    ∃ placements stop hunk later,
      Hunk.parse patch = .ok (placements.map Placement.hunk ++ hunk :: later) ∧
      Placed (Text.lines original) 0 placements stop ∧ number = placements.length + 1 ∧
      start = hunk.oldStart ∧ expected = hunk.oldLines ∧
      (∀ position, Hunk.StandsAt (Text.lines original) expected stop position →
        position + 1 + (Text.lines original).length < start) ∧
      (start ≤ (Text.lines original).length + 1 →
        ∀ position, ¬ Hunk.StandsAt (Text.lines original) expected stop position) := by
  unfold apply at h
  split at h
  · next e hparse =>
    obtain rfl := Except.error.inj h
    exact absurd hparse Hunk.ofLines_ne_mismatch
  · next hunks hparse =>
    split at h
    · next happly =>
      obtain rfl := Except.error.inj h
      obtain ⟨placements, stop, hunk, later, rfl, placed, hrefused, hmismatch⟩ :=
        Hunk.exists_placed_of_applyFrom_error happly
      obtain ⟨rfl, rfl, rfl⟩ := PatchError.mismatch.inj hmismatch
      have hpos : hunk.position = hunk.oldStart - 1 := if_neg hne
      have hfar : ∀ position, Hunk.StandsAt (Text.lines original) hunk.oldLines stop position →
          position + 1 + (Text.lines original).length < hunk.oldStart := by
        intro position hp
        have := (Hunk.locate_eq_none_iff hne).mp hrefused position hp
        omega
      refine ⟨placements, stop, hunk, later, hparse, placed, Nat.add_comm _ _, rfl, rfl, hfar,
        fun hle position hp => ?_⟩
      have := hfar position hp
      omega
    · cases h

/-- The second hunk is not found behind the first one. -/
theorem apply_refused_behind :
    let original := Text.ofString "a\nb\n"
    let patch := Text.ofString "@@ -2 +2 @@\n-b\n+c\n@@ -1 +1 @@\n-a\n+d\n"
    apply original patch = .error (.mismatch 2 1 [['a']]) ∧ [['a']] ≠ ([] : List Text) ∧
      ∃ placements stop hunk later,
        Hunk.parse patch = .ok (placements.map Placement.hunk ++ hunk :: later) ∧
        Placed (Text.lines original) 0 placements stop ∧ 2 = placements.length + 1 ∧
        ∀ position, ¬ Hunk.StandsAt (Text.lines original) [['a']] stop position := by
  intro original patch
  have h : apply original patch = .error (.mismatch 2 1 [['a']]) := by decide +kernel
  have hne : [['a']] ≠ ([] : List Text) := List.cons_ne_nil _ _
  obtain ⟨placements, stop, hunk, later, hparse, placed, hnumber, -, -, -, hnowhere⟩ :=
    apply_refused h hne
  exact ⟨h, hne, placements, stop, hunk, later, hparse, placed, hnumber,
    hnowhere (by decide)⟩

/-- **A hunk out of reach.**  The line that the hunk replaces is there, but the header states a line
number that is too great. -/
theorem apply_refused_standing :
    let original := Text.ofString "a\nb\n"
    let patch := Text.ofString "@@ -5 +5 @@\n-b\n+c\n"
    apply original patch = .error (.mismatch 1 5 [['b']]) ∧
      Hunk.StandsAt (Text.lines original) [['b']] 0 1 :=
  ⟨by decide +kernel, by decide, by decide, by decide⟩

end Patch

end Literate
