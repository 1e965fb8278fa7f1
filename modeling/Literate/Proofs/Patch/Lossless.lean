import Literate.Proofs.Patch.Placed

/-!
# The lines of a patched text

The lines of a patched text are the lines that the hunks leave (`lines_apply_iff`), so that the next
diff finds what the one before it has left, and their number is what the added and the removed lines
come to (`Placed.length_replaced`).  The one exception is a single empty line: it is joined to an
empty text, which has no line (`apply_lost`).
-/

namespace Literate

/-! ### Counting lines -/

/-- Whether a line of a hunk is added. -/
def HunkLine.isAdded : HunkLine → Bool
  | added _ => true
  | _ => false

/-- Whether a line of a hunk is removed. -/
def HunkLine.isRemoved : HunkLine → Bool
  | removed _ => true
  | _ => false

/-- The number of lines that hunks add. -/
def addedCount (placements : List Placement) : Nat :=
  (placements.map fun p => p.hunk.lines.countP HunkLine.isAdded).sum

/-- The number of lines that hunks remove. -/
def removedCount (placements : List Placement) : Nat :=
  (placements.map fun p => p.hunk.lines.countP HunkLine.isRemoved).sum

theorem Hunk.length_newLines_add (hunk : Hunk) :
    hunk.newLines.length + hunk.lines.countP HunkLine.isRemoved =
      hunk.oldLines.length + hunk.lines.countP HunkLine.isAdded := by
  obtain ⟨start, lines⟩ := hunk
  simp only [Hunk.newLines, Hunk.oldLines]
  induction lines with
  | nil => rfl
  | cons line lines ih =>
    cases line <;>
      simp only [List.filterMap_cons, HunkLine.new?, HunkLine.old?, List.countP_cons,
        HunkLine.isRemoved, HunkLine.isAdded, List.length_cons, if_true, Bool.false_eq_true,
        if_false] <;> omega

/-- **The number of lines** changes by what is added and what is removed. -/
theorem Placed.length_replaced {old : List Text} {cursor stop : Nat} {placements : List Placement}
    (h : Placed old cursor placements stop) :
    (replaced old placements).length + removedCount placements =
      old.length + addedCount placements := by
  induction h with
  | nil => rfl
  | @cons cursor stop p rest belongs later ih =>
    have hlines := p.hunk.length_newLines_add
    have hstop : p.stop ≤ old.length := belongs.stands.stop_le
    have hpos : p.stop = p.position + p.hunk.oldLines.length := rfl
    have hle : p.stop ≤ (replaced old rest).length := by
      have := congrArg List.length (later.take_replaced (Nat.le_refl _))
      rw [List.length_take, List.length_take] at this
      omega
    rw [(Placed.cons belongs later).replaced_cons]
    simp only [List.length_append, List.length_drop, addedCount, removedCount, List.map_cons,
      List.sum_cons, List.length_take] at ih ⊢
    omega

/-! ### Lines joined and cut again -/

/-- Lines are joined to an empty text only if there are none, or one that is empty. -/
theorem Text.join_eq_nil_iff {ls : List Text} :
    join ['\n'] ls = [] ↔ ls = [] ∨ ls = [[]] := by
  constructor
  · intro h
    match ls, h with
    | [], _ => exact Or.inl rfl
    | [l], h => exact Or.inr (congrArg (· :: []) h)
    | l :: m :: ls, h => simp at h
  · rintro (rfl | rfl) <;> rfl

namespace Patch

variable {original patch result : Text}

/-- Lines are put together to an empty text only if there are none, or one that is empty. -/
theorem assemble_eq_nil_iff {ls : List Text} :
    assemble original ls = [] ↔ ls = [] ∨ ls = [[]] := by
  rw [← Text.join_eq_nil_iff, assemble]
  split
  · next h => exact ⟨fun he => absurd he (by simp), fun he => absurd he h.1⟩
  · exact Iff.rfl

/-- **Patching loses no line, but for a single empty one.**  The texts have no CR, and the original
is empty or ends with LF.  The lines of the result are the lines that the hunks leave where they
belong, unless that is one empty line; then the result is empty.  The hunks leave as many lines as
the original has, and those added, less those removed. -/
theorem lines_apply_iff (ho : original = [] ∨ Text.endsWithNewline original = true)
    (hr : '\r' ∉ original) (hp : '\r' ∉ patch) (h : apply original patch = .ok result) :
    ∃ placements stop, Hunk.parse patch = .ok (placements.map Placement.hunk) ∧
      Placed (Text.lines original) 0 placements stop ∧
        let patched := replaced (Text.lines original) placements
        (Text.lines result = patched ↔ patched ≠ [[]]) ∧ (patched = [[]] → result = []) ∧
          patched.length + removedCount placements =
            (Text.lines original).length + addedCount placements := by
  have hresult := return_not_mem_of_apply hr hp h
  obtain ⟨hunks, ls, hparse, happly, rfl⟩ := apply_eq_ok_iff.mp h
  have hn : ∀ l ∈ ls, '\n' ∉ l := fun _ hl =>
    newline_not_mem_of_mem_or (mem_or_of_applyFrom hparse happly hl)
  obtain ⟨placements, stop, rfl, placed, rfl⟩ := exists_placed_of_applyFrom happly
  refine ⟨placements, stop, hparse, placed, ?_, fun hempty => by rw [hempty]; rfl,
    placed.length_replaced⟩
  constructor
  · intro hlines hempty
    rw [hempty] at hlines
    cases hlines
  · intro hne
    rcases (assemble_spec ho hn hresult).2 with hlines | hempty
    · exact hlines
    · rw [hempty, (assemble_eq_nil_iff.mp hempty).resolve_right hne, Text.lines_nil]

/-- Empty lines at both ends are kept. -/
theorem lines_apply_blank :
    let original := Text.ofString "a\n"
    let patch := Text.ofString "@@ -1 +1,3 @@\n+\n a\n+\n"
    let result := Text.ofString "\na\n\n"
    (original = [] ∨ Text.endsWithNewline original = true) ∧ '\r' ∉ original ∧ '\r' ∉ patch ∧
      apply original patch = .ok result ∧
        ∃ placements stop, Hunk.parse patch = .ok (placements.map Placement.hunk) ∧
          Placed (Text.lines original) 0 placements stop ∧
            Text.lines result = replaced (Text.lines original) placements := by
  intro original patch result
  have ho : original = [] ∨ Text.endsWithNewline original = true := Or.inr (by decide)
  have hr : '\r' ∉ original := by decide
  have hp : '\r' ∉ patch := by decide
  have h : apply original patch = .ok result := by decide +kernel
  obtain ⟨placements, stop, hparse, placed, hlines, hlost, -⟩ := lines_apply_iff ho hr hp h
  refine ⟨ho, hr, hp, h, placements, stop, hparse, placed, hlines.mpr fun hempty => ?_⟩
  exact absurd (hlost hempty) (by decide)

/-- **A line that is lost.**  The one line of the text is replaced by an empty one.  The result has
no line, wherever the hunk is placed, and a diff that goes on from the empty line is refused. -/
theorem apply_lost :
    let original := Text.ofString "a\n"
    let patch := Text.ofString "@@ -1 +1 @@\n-a\n+\n"
    let next := Text.ofString "@@ -1 +1,2 @@\n \n+b\n"
    apply original patch = .ok [] ∧
      (∀ placements stop, Hunk.parse patch = .ok (placements.map Placement.hunk) →
        Placed (Text.lines original) 0 placements stop →
          Text.lines [] ≠ replaced (Text.lines original) placements) ∧
      apply [] next = .error (.mismatch 1 1 [[]]) := by
  intro original patch next
  have hhunks : Hunk.parse patch = .ok [⟨1, [.removed ['a'], .added []]⟩] := by decide +kernel
  refine ⟨by decide +kernel, fun placements stop hparse placed hlines => ?_, by decide +kernel⟩
  have hlength := placed.length_replaced
  rw [← hlines] at hlength
  obtain ⟨p, rfl, hp⟩ := List.map_eq_singleton_iff.mp (Except.ok.inj (hparse.symm.trans hhunks))
  rw [removedCount, addedCount, List.map_singleton, List.map_singleton, hp] at hlength
  exact absurd hlength (by decide)

end Patch

end Literate
