import Literate.Proofs.Shell.Fields
import Literate.Proofs.Shell.Later
import Literate.Proofs.Shell.Pattern
import Literate.Shell.Builtin

/-!
# Texts in single quotes

`singleQuoted` writes any text as a word that stands for it.  The reader of a script takes it for
one word, whatever is in it (`scanWord_singleQuoted`), and the word is expanded to the text as the
only argument (`arguments_singleQuoted`).  So are any words whose parts stand for themselves
(`arguments_of_isLiteral`).
-/

namespace Literate.Shell

/-! ### The end of the word -/

section Scanning

variable {opened opened' : List Open} {acc rest : Octets} {c : Char}

/-- A character that neither ends the word nor is taken together with the next one. -/
theorem scanWord_cons (hend : opened ≠ [] ∨ isMeta c = false) (hjoin : c ≠ '\\')
    (hstep : Open.step opened c rest.head? = (opened', false)) :
    scanWord opened acc (c :: rest) = scanWord opened' (c :: acc) rest := by
  have hend' : ¬(opened = [] ∧ isMeta c = true) := by
    rintro ⟨hopened, hmeta⟩
    rcases hend with hend | hend
    · exact hend hopened
    · rw [hend] at hmeta
      cases hmeta
  cases rest with
  | nil =>
    rw [List.head?_nil] at hstep
    rw [scanWord, if_neg hend', hstep]
    cases opened' <;> rfl
  | cons d t =>
    rw [List.head?_cons] at hstep
    rw [scanWord, if_neg hend', if_neg fun h => hjoin h.1, hstep]

theorem scanWord_single (hc : c ≠ '\'') (hne : rest ≠ []) :
    scanWord (.single :: opened) acc (c :: rest) =
      scanWord (.single :: opened) (c :: acc) rest := by
  obtain ⟨d, t, rfl⟩ := List.exists_cons_of_ne_nil hne
  rw [scanWord]
  simp [Open.step, hc]

/-- The word is at its end. -/
theorem scanWord_of_isMeta (h : ∀ c, rest.head? = some c → isMeta c = true) :
    scanWord [] acc rest = .ok (acc.reverse, rest) := by
  match rest, h with
  | [], _ => rfl
  | [c], h => rw [scanWord, if_pos ⟨rfl, h c rfl⟩]
  | c :: d :: t, h => rw [scanWord, if_pos ⟨rfl, h c rfl⟩]

end Scanning

/-- How a character is written between single quotes. -/
def quotedChar (c : Char) : Octets :=
  if c = '\'' then Text.ofString "'\"'\"'" else [c]

theorem singleQuoted_eq (t : Octets) : singleQuoted t = '\'' :: (t.flatMap quotedChar ++ ['\'']) :=
  rfl

theorem scanWord_flatMap_quotedChar (t rest acc : Octets) :
    scanWord [.single] acc (t.flatMap quotedChar ++ '\'' :: rest) =
      scanWord [] ('\'' :: ((t.flatMap quotedChar).reverse ++ acc)) rest := by
  induction t generalizing acc with
  | nil => exact scanWord_cons (.inl (List.cons_ne_nil _ _)) (by decide) rfl
  | cons c t ih =>
    rw [List.flatMap_cons, List.append_assoc]
    by_cases hc : c = '\''
    · subst hc
      -- The quotes are closed, a quote stands in double quotes, and they are opened again.
      have hquote (tail : Octets) : scanWord [.single] acc (quotedChar '\'' ++ tail) =
          scanWord [.single] ((quotedChar '\'').reverse ++ acc) tail := by
        calc scanWord [.single] acc ('\'' :: '"' :: '\'' :: '"' :: '\'' :: tail)
          _ = scanWord [] ('\'' :: acc) ('"' :: '\'' :: '"' :: '\'' :: tail) :=
            scanWord_cons (.inl (List.cons_ne_nil _ _)) (by decide) rfl
          _ = scanWord [.double] ('"' :: '\'' :: acc) ('\'' :: '"' :: '\'' :: tail) :=
            scanWord_cons (.inr (by decide)) (by decide) rfl
          _ = scanWord [.double] ('\'' :: '"' :: '\'' :: acc) ('"' :: '\'' :: tail) :=
            scanWord_cons (.inl (List.cons_ne_nil _ _)) (by decide) rfl
          _ = scanWord [] ('"' :: '\'' :: '"' :: '\'' :: acc) ('\'' :: tail) :=
            scanWord_cons (.inl (List.cons_ne_nil _ _)) (by decide) rfl
          _ = scanWord [.single] ('\'' :: '"' :: '\'' :: '"' :: '\'' :: acc) tail :=
            scanWord_cons (.inr (by decide)) (by decide) rfl
      rw [hquote, ih, List.reverse_append, List.append_assoc]
    · rw [quotedChar, if_neg hc, List.singleton_append, scanWord_single hc (by simp), ih]
      simp

/-- **A text in single quotes is one word**, whatever is in it. -/
theorem scanWord_singleQuoted (t : Octets) {rest : Octets}
    (h : ∀ c, rest.head? = some c → isMeta c = true) :
    scanWord [] [] (singleQuoted t ++ rest) = .ok (singleQuoted t, rest) := by
  rw [singleQuoted_eq, List.cons_append, List.append_assoc, List.singleton_append]
  rw [scanWord_cons (.inr (by decide)) (by decide) rfl, scanWord_flatMap_quotedChar]
  rw [scanWord_of_isMeta h]
  simp

/-! ### The parts of the word -/

/-- The parts of a character that is written between single quotes. -/
def quotedSegments (c : Char) : List Segment :=
  if c = '\'' then [.quotes, .char c true, .quotes, .quotes] else [.char c true]

theorem segmentsFrom_single {inside : Octets} (h : ∀ c ∈ inside, c ≠ '\'') (count : Nat)
    (rest : Octets) :
    segmentsFrom (count + 1) .bare ('\'' :: (inside ++ '\'' :: rest)) =
      .quotes :: inside.map (Segment.char · true) ++ segmentsFrom count .bare rest := by
  have hinside : ∀ c ∈ inside, decide (c ≠ '\'') = true := by simpa using h
  rw [segmentsFrom.eq_def]
  dsimp only
  rw [if_neg (by decide), if_pos (by decide)]
  rw [List.takeWhile_append_of_pos hinside, List.dropWhile_append_of_pos hinside]
  simp

/-- A single quote in double quotes. -/
theorem segmentsFrom_double (count : Nat) (rest : Octets) :
    segmentsFrom (count + 3) .bare ('"' :: '\'' :: '"' :: rest) =
      .quotes :: .char '\'' true :: .quotes :: segmentsFrom count .bare rest :=
  rfl

theorem segmentsFrom_singleQuoted {inside : Octets} (h : ∀ c ∈ inside, c ≠ '\'') (t : Octets)
    {count : Nat} (hcount : inside.length + (t.flatMap quotedChar).length + 2 ≤ count) :
    segmentsFrom count .bare ('\'' :: (inside ++ (t.flatMap quotedChar ++ ['\'']))) =
      .quotes :: (inside.map (Segment.char · true) ++ t.flatMap quotedSegments) := by
  induction t generalizing inside count with
  | nil =>
    obtain ⟨count, rfl⟩ := Nat.exists_eq_add_of_le' (Nat.le_trans (Nat.le_add_left 1 _) hcount)
    rw [List.flatMap_nil, List.nil_append, segmentsFrom_single h]
    cases count <;> simp [segmentsFrom]
  | cons c t ih =>
    rw [List.flatMap_cons, List.append_assoc, List.flatMap_cons]
    rw [List.flatMap_cons, List.length_append] at hcount
    by_cases hc : c = '\''
    · subst hc
      have hlength : (quotedChar '\'').length = 5 := rfl
      obtain ⟨count, rfl⟩ := Nat.exists_eq_add_of_le' (show 4 ≤ count by omega)
      have hrest := @ih [] (List.forall_mem_nil _) count (by rw [List.length_nil]; omega)
      show segmentsFrom (count + 3 + 1) .bare
        ('\'' :: (inside ++ '\'' :: '"' :: '\'' :: '"' :: '\'' :: (t.flatMap quotedChar ++ _))) = _
      rw [segmentsFrom_single h, segmentsFrom_double]
      rw [List.nil_append] at hrest
      rw [hrest, quotedSegments, if_pos rfl]
      simp
    · have hinside : ∀ d ∈ inside ++ [c], d ≠ '\'' := by
        intro d hd
        rcases List.mem_append.mp hd with hd | hd
        · exact h d hd
        · rwa [List.mem_singleton.mp hd]
      have hone : quotedChar c = [c] := if_neg hc
      have hnext := @ih (inside ++ [c]) hinside count (by
        rw [hone, List.length_singleton] at hcount
        rw [List.length_append, List.length_singleton]
        omega)
      rw [hone, quotedSegments, if_neg hc]
      simpa using hnext

theorem segments_singleQuoted (t : Octets) :
    segments .bare (singleQuoted t) = .quotes :: t.flatMap quotedSegments := by
  have hcount : ([] : Octets).length + (t.flatMap quotedChar).length + 2 ≤
      (singleQuoted t).length + 1 := by
    simp [singleQuoted_eq]
  exact segmentsFrom_singleQuoted (List.forall_mem_nil _) t hcount

/-! ### The argument -/

/-- The part stands for itself: a character that begins nothing, or quotes. -/
def Segment.IsLiteral : Segment → Prop
  | .char c quoted => Marked.IsPlain ⟨c, quoted⟩
  | .quotes => True
  | .home | .parameter .. | .command .. | .arithmetic .. => False

/-- The piece of a part that stands for itself. -/
def Segment.piece : Segment → Piece
  | .char c quoted => .char c quoted
  | .quotes | .home | .parameter .. | .command .. | .arithmetic .. => .quotes

theorem kept_piece (separators : Octets) (segment : Segment) :
    segment.piece.kept separators = segment.piece.kept [] := by
  cases segment <;> rfl

theorem isPlain_of_mem_kept {segment : Segment} (h : segment.IsLiteral) {m : Marked}
    (hm : m ∈ segment.piece.kept []) : m.IsPlain := by
  cases segment with
  | char c quoted =>
    rw [List.mem_singleton.mp hm]
    exact h
  | _ => cases hm

theorem isLiteral_of_mem_quotedSegments {c : Char} {segment : Segment}
    (h : segment ∈ quotedSegments c) : segment.IsLiteral := by
  unfold quotedSegments at h
  split at h
  · simp only [List.mem_cons, List.not_mem_nil, or_false] at h
    rcases h with rfl | rfl | rfl | rfl
    · trivial
    · exact .inl rfl
    · trivial
    · trivial
  · rw [List.mem_singleton.mp h]
    exact .inl rfl

theorem kept_quotedSegments (c : Char) :
    (quotedSegments c).flatMap (fun segment => segment.piece.kept []) = [⟨c, true⟩] := by
  unfold quotedSegments
  split
  · rfl
  · rfl

namespace Expansion

variable {command : Octets → Run Octets} {w : Word}

theorem pieces_of_isLiteral {context : Context} (h : ∀ segment ∈ segments context w,
    segment.IsLiteral) (depth : Nat) (s : State) :
    pieces command (depth + 1) context w s = .ok ((segments context w).map Segment.piece) s := by
  rw [pieces]
  refine (Run.bind_apply_of_eq_ok (@Run.mapM_apply _ _ _
    (fun segment => [segment.piece]) _ s fun segment hsegment => ?_)).trans ?_
  · have hliteral := h segment hsegment
    cases segment with
    | char c quoted => rfl
    | quotes => rfl
    | _ => cases hliteral
  · rw [← List.flatMap_def, ← List.map_eq_flatMap]
    rfl

/-- **A word whose parts stand for themselves is one argument**, made of their characters. -/
theorem arguments_of_isLiteral (h : ∀ segment ∈ segments .bare w, segment.IsLiteral)
    (hne : segments .bare w ≠ []) (s : State) :
    arguments command w s = .ok [((segments .bare w).flatMap fun segment =>
      segment.piece.kept []).map Marked.char] s := by
  have hbound (separators : Octets) : ∀ piece ∈ (segments .bare w).map Segment.piece,
      piece.IsBound separators := by
    intro piece hpiece
    obtain ⟨segment, -, rfl⟩ := List.mem_map.mp hpiece
    cases segment <;> trivial
  have hfield (separators : Octets) : fields separators ((segments .bare w).map Segment.piece) =
      [(segments .bare w).flatMap fun segment => segment.piece.kept []] := by
    rw [fields_of_bound (hbound separators) (by simpa using hne), List.flatMap_map]
    simp only [kept_piece separators]
  have hplain : ∀ m ∈ (segments .bare w).flatMap fun segment => segment.piece.kept [],
      m.IsPlain := by
    intro m hm
    obtain ⟨segment, hsegment, hm⟩ := List.mem_flatMap.mp hm
    exact isPlain_of_mem_kept (h segment hsegment) hm
  have hpaths (files : FileTree) (directory : Path) : paths files directory
      ((segments .bare w).flatMap fun segment => segment.piece.kept []) =
        [((segments .bare w).flatMap fun segment => segment.piece.kept []).map Marked.char] := by
    unfold paths
    rw [isGlob_pattern_of_plain hplain]
    rfl
  have hseparators : Run.separators s =
      .ok ((s.session.get? (Text.ofString "IFS")).getD [' ', '\t', '\n']) s :=
    rfl
  unfold arguments
  rw [Run.bind_apply_of_eq_ok hseparators, Run.bind_apply_of_eq_ok (pieces_of_isLiteral h _ s),
    hfield, Run.session_bind_apply]
  split
  · rfl
  · rw [Run.world_bind_apply, List.flatMap_singleton, hpaths]
    rfl

/-- **A text in single quotes stands for the text**: it is the one argument. -/
theorem arguments_singleQuoted (command : Octets → Run Octets) (t : Octets) (s : State) :
    arguments command (singleQuoted t) s = .ok [t] s := by
  have hliteral : ∀ segment ∈ segments .bare (singleQuoted t), segment.IsLiteral := by
    intro segment h
    rw [segments_singleQuoted] at h
    rcases List.mem_cons.mp h with rfl | h
    · trivial
    · obtain ⟨c, -, hc⟩ := List.mem_flatMap.mp h
      exact isLiteral_of_mem_quotedSegments hc
  have hne : segments .bare (singleQuoted t) ≠ [] := by
    rw [segments_singleQuoted]
    exact List.cons_ne_nil _ _
  rw [arguments_of_isLiteral hliteral hne, segments_singleQuoted, List.flatMap_cons,
    List.flatMap_assoc]
  simp only [kept_quotedSegments]
  rw [← List.map_eq_flatMap, List.map_append, List.map_map]
  simp [Segment.piece, Piece.kept, Function.comp_def]

/-- Words in single quotes are the arguments that they stand for, in their order. -/
theorem allArguments_singleQuoted (command : Octets → Run Octets) (ts : List Octets) (s : State) :
    allArguments command (ts.map singleQuoted) s = .ok ts s := by
  have hwords : (ts.map singleQuoted).mapM (arguments command) s = .ok (ts.map ([·])) s := by
    rw [List.mapM_map]
    exact Run.mapM_apply fun t _ => arguments_singleQuoted command t s
  rw [allArguments, Run.bind_apply_of_eq_ok hwords, ← List.flatMap_def, List.flatMap_singleton']
  rfl

end Expansion

end Literate.Shell
