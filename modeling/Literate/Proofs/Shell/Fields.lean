import Literate.Shell.Expansion

/-!
# What falls into fields

Cutting an expanded word into fields loses nothing but the separators that came out of an expansion
outside quotes, and it changes no order: `flatten_fields`.  A word without such a separator is one
field (`fields_of_bound`), so a value in double quotes is an argument just as it is.

All arguments in double quotes come back as they are, one field for each
(`fields_quoted_arguments`), or as one field (`fields_quoted_joined`).  Outside quotes a value falls
into the pieces between blanks (`fields_loose`).
-/

namespace Literate.Shell

/-- The character that a piece brings to the fields, if it brings one. -/
def Piece.kept (separators : Octets) : Piece → List Marked
  | .char c quoted => [⟨c, quoted⟩]
  | .loose c => if separators.contains c then [] else [⟨c, false⟩]
  | .quotes | .gap | .absent => []

/-- A field that has not been begun has no characters. -/
def Field.IsSound (field : Field) : Prop :=
  field.begun = false → field.acc = []

namespace Field

variable {field : Field}

theorem isSound_none : Field.none.IsSound :=
  fun _ => rfl

theorem isSound_of_begun (h : field.begun = true) : field.IsSound := by
  intro h'
  rw [h] at h'
  cases h'

theorem flatten_finished (h : field.IsSound) : field.finished.flatten = field.acc.reverse := by
  cases hb : field.begun with
  | false => simp [finished, hb, h hb]
  | true =>
    cases hacc : field.acc with
    | nil => cases hv : field.void <;> simp [finished, hb, hacc, hv]
    | cons m acc => simp [finished, hb, hacc]

end Field

variable {separators : Octets} {field : Field} {soft : Bool} {pieces : List Piece}

theorem flatten_fieldsFrom (h : field.IsSound) :
    (fieldsFrom separators field soft pieces).flatten =
      field.acc.reverse ++ pieces.flatMap (Piece.kept separators) := by
  induction pieces generalizing field soft with
  | nil => simp [fieldsFrom, Field.flatten_finished h]
  | cons piece pieces ih =>
    rw [List.flatMap_cons]
    cases piece with
    | char c quoted =>
      rw [fieldsFrom, ih (Field.isSound_of_begun rfl)]
      simp [Field.push, Piece.kept]
    | quotes =>
      rw [fieldsFrom, ih (Field.isSound_of_begun rfl)]
      rfl
    | absent =>
      have hvoid : Field.IsSound { field with void := true } := h
      rw [fieldsFrom, ih hvoid]
      rfl
    | gap =>
      rw [fieldsFrom, List.flatten_append, Field.flatten_finished h, ih Field.isSound_none]
      rfl
    | loose c =>
      rw [fieldsFrom]
      by_cases hc : separators.contains c = true
      · rw [Piece.kept, if_pos hc, if_neg (by simpa using hc), List.nil_append]
        split
        · rw [List.flatten_append, Field.flatten_finished h, ih Field.isSound_none]
          rfl
        · split
          · rw [List.flatten_append, Field.flatten_finished h, ih Field.isSound_none]
            rfl
          · next hbegun =>
            rw [h (Bool.eq_false_iff.mpr hbegun)]
            split
            · exact ih Field.isSound_none
            · exact ih Field.isSound_none
      · rw [Piece.kept, if_neg hc, if_pos (by simpa using hc), ih (Field.isSound_of_begun rfl)]
        simp [Field.push]

/-- **Nothing is lost but separators** that came out of an expansion outside quotes. -/
theorem flatten_fields (separators : Octets) (pieces : List Piece) :
    (fields separators pieces).flatten = pieces.flatMap (Piece.kept separators) :=
  flatten_fieldsFrom Field.isSound_none

/-! ### Words that are not cut -/

/-- The piece does not end a field, and does not take one away. -/
def Piece.IsBound (separators : Octets) : Piece → Prop
  | .char .. | .quotes => True
  | .loose c => c ∉ separators
  | .gap | .absent => False

/-- A piece that is bound goes on with the field. -/
theorem fieldsFrom_cons_of_isBound {piece : Piece} (h : piece.IsBound separators) :
    fieldsFrom separators field soft (piece :: pieces) =
      fieldsFrom separators ⟨(piece.kept separators).reverse ++ field.acc, true, field.void⟩ false
        pieces := by
  cases piece with
  | char c quoted => rfl
  | quotes => rfl
  | loose c =>
    have hc : separators.contains c = false := by simpa [Piece.IsBound] using h
    rw [fieldsFrom, Piece.kept, hc]
    rfl
  | gap => cases h
  | absent => cases h

theorem fieldsFrom_of_bound (h : ∀ piece ∈ pieces, piece.IsBound separators) {acc : List Marked} :
    fieldsFrom separators ⟨acc, true, false⟩ soft pieces =
      [acc.reverse ++ pieces.flatMap (Piece.kept separators)] := by
  induction pieces generalizing acc soft with
  | nil => simp [fieldsFrom, Field.finished]
  | cons piece pieces ih =>
    rw [List.forall_mem_cons] at h
    rw [fieldsFrom_cons_of_isBound h.1, ih h.2]
    simp

/-- **A word without separators is one field**, unless there is nothing in it. -/
theorem fields_of_bound (h : ∀ piece ∈ pieces, piece.IsBound separators) (hne : pieces ≠ []) :
    fields separators pieces = [pieces.flatMap (Piece.kept separators)] := by
  cases pieces with
  | nil => exact absurd rfl hne
  | cons piece pieces =>
    rw [List.forall_mem_cons] at h
    rw [fields, fieldsFrom_cons_of_isBound h.1]
    simp only [Field.none]
    rw [fieldsFrom_of_bound h.2]
    simp

/-! ### All arguments -/

/-- The characters of a text, marked as quoted or not. -/
def marked (quoted : Bool) (t : Octets) : List Marked :=
  t.map fun c => ⟨c, quoted⟩

theorem flatMap_kept_valuePieces (separators t : Octets) :
    (valuePieces true t).flatMap (Piece.kept separators) = marked true t := by
  rw [valuePieces, List.flatMap_map, marked, List.map_eq_flatMap]
  rfl

theorem isBound_of_mem_valuePieces {t : Octets} {piece : Piece} (h : piece ∈ valuePieces true t) :
    piece.IsBound separators := by
  obtain ⟨c, -, rfl⟩ := List.mem_map.mp h
  trivial

/-- A value behind opening double quotes is one field, whether they have been closed or not. -/
theorem fields_quoted (separators t : Octets) {closing : List Piece}
    (h : closing = [] ∨ closing = [.quotes]) :
    fields separators ([.quotes] ++ valuePieces true t ++ closing) = [marked true t] := by
  rw [fields_of_bound ?_ (by simp), List.flatMap_append, List.flatMap_append,
    flatMap_kept_valuePieces]
  · rcases h with rfl | rfl
    · simp [Piece.kept]
    · simp [Piece.kept]
  · intro piece hpiece
    simp only [List.mem_append, List.mem_singleton] at hpiece
    rcases hpiece with (rfl | hpiece) | hpiece
    · trivial
    · exact isBound_of_mem_valuePieces hpiece
    · rcases h with rfl | rfl
      · cases hpiece
      · rw [List.mem_singleton.mp hpiece]
        trivial

/-- A gap ends a field, and what follows falls into fields by itself. -/
theorem fieldsFrom_append_gap (rest : List Piece) :
    fieldsFrom separators field soft (pieces ++ .gap :: rest) =
      fieldsFrom separators field soft pieces ++ fields separators rest := by
  induction pieces generalizing field soft with
  | nil => rfl
  | cons piece pieces ih =>
    rw [List.cons_append]
    cases piece with
    | loose c =>
      simp only [fieldsFrom, ih]
      split
      · rfl
      · split
        · rw [List.append_assoc]
        · split
          · rw [List.append_assoc]
          · split <;> rfl
    | gap => rw [fieldsFrom, ih, fieldsFrom, List.append_assoc]
    | _ => simp only [fieldsFrom, ih]

/-- **All arguments in double quotes come back as they are**, whatever the separators are. -/
theorem fields_quoted_arguments (separators : Octets) (arguments : List Octets) :
    fields separators ([.quotes] ++ argumentPieces arguments separators false true ++ [.quotes]) =
      arguments.map (marked true) := by
  cases arguments with
  | nil => rfl
  | cons t arguments =>
    rw [argumentPieces, if_neg (by simp), if_neg (by simp)]
    simp only [if_true]
    induction arguments generalizing t with
    | nil => simpa using fields_quoted separators t (Or.inr rfl)
    | cons u arguments ih =>
      have hsplit : [Piece.quotes] ++
          (((t :: u :: arguments).map (valuePieces true)).intersperse [.gap, .quotes]).flatten ++
            [.quotes] = ([.quotes] ++ valuePieces true t ++ []) ++ .gap :: ([.quotes] ++
          (((u :: arguments).map (valuePieces true)).intersperse [.gap, .quotes]).flatten ++
            [.quotes]) := by
        simp
      rw [hsplit, fields, fieldsFrom_append_gap, ih u]
      exact congrArg (· ++ _) (fields_quoted separators t (Or.inl rfl))

/-- All arguments as one text in double quotes are one field, with the first separator between
them. -/
theorem fields_quoted_joined (separators : Octets) (arguments : List Octets) :
    fields separators ([.quotes] ++ argumentPieces arguments separators true true ++ [.quotes]) =
      [marked true (Text.join (separators.take 1) arguments)] :=
  fields_quoted separators _ (Or.inr rfl)

/-! ### Values outside quotes -/

theorem fieldsFrom_loose (hblank : ∀ c ∈ separators, isBlankSeparator c = true) (t : Octets)
    {acc : List Marked} :
    fieldsFrom separators ⟨acc, !acc.isEmpty, false⟩ soft (valuePieces false t) =
      (((t.splitOnP separators.contains).map (marked false)).modifyHead
        (acc.reverse ++ ·)).filter (!·.isEmpty) := by
  induction t generalizing acc soft with
  | nil => cases acc <;> simp [valuePieces, fieldsFrom, Field.finished, marked]
  | cons c t ih =>
    have hpieces : valuePieces false (c :: t) = .loose c :: valuePieces false t := rfl
    obtain ⟨word, words, hwords⟩ :=
      List.exists_cons_of_ne_nil (List.splitOnP_ne_nil separators.contains t)
    rw [hpieces, fieldsFrom, List.splitOnP_cons_eq_if_modifyHead]
    rw [hwords] at ih ⊢
    by_cases hc : separators.contains c = true
    · have hrest : fieldsFrom separators .none (!acc.isEmpty || soft) (valuePieces false t) = _ :=
        @ih _ []
      rw [if_neg (by simpa using hc), if_pos (hblank c (by simpa using hc)), if_pos hc, hrest]
      cases acc <;> simp [Field.finished, marked]
    · rw [if_pos (by simpa using hc), if_neg hc]
      refine (@ih false (⟨c, false⟩ :: acc)).trans ?_
      simp [marked]

/-- **A value outside quotes falls into its pieces between separators**, if all of them are blank:
those that are empty are left out. -/
theorem fields_loose (hblank : ∀ c ∈ separators, isBlankSeparator c = true) (t : Octets) :
    fields separators (valuePieces false t) =
      ((t.splitOnP separators.contains).filter (!·.isEmpty)).map (marked false) := by
  have hmap : ∀ ws : List Octets, (ws.map (marked false)).filter (!·.isEmpty) =
      (ws.filter (!·.isEmpty)).map (marked false) := by
    intro ws
    rw [List.filter_map]
    simp [Function.comp_def, marked]
  have h : fields separators (valuePieces false t) = _ := @fieldsFrom_loose _ false hblank t []
  rw [h, ← hmap]
  cases t.splitOnP separators.contains <;> rfl

/-- A separator that is not blank may stand between empty fields. -/
example : fields [':', ' '] (valuePieces false (Text.ofString "a: b::c ")) =
    [marked false ['a'], marked false ['b'], [], marked false ['c']] := by
  decide

end Literate.Shell
