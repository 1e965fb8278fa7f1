import Literate.Proofs.Toml.Values

/-!
# Statements read back

The reader of documents reads back what the writer makes of a header (`statement_headerText`) and of
a key with its value (`statement_line`).  A text that is read as certain statements, whatever comes
after it, `Reads` them; such texts are put one after the other (`Reads.append`), with empty lines
between them (`Reads.join`), and `Reads.statements_eq` reads the whole document.
-/

namespace Literate.Toml

variable {s t rest : Text} {path : List Text} {ss ts : List Statement} {v : Value}

/-! ### Keys -/

/-- A character that begins a key, and so none that is passed over, and no header. -/
structure BeginsKey (c : Char) : Prop where
  blank : isBlankChar c = false
  newline : c ≠ '\n'
  carriage : c ≠ '\r'
  comment : c ≠ '#'
  bracket : c ≠ '['

theorem beginsKey_of_isBareChar {c : Char} (h : isBareChar c = true) : BeginsKey c := by
  have hne : ∀ d, isBareChar d = false → c ≠ d := by
    rintro d hd rfl
    exact Bool.false_ne_true (hd.symm.trans h)
  have hblank : isBlankChar c = false := by
    simp [isBlankChar, hne ' ' rfl, hne '\t' rfl]
  exact ⟨hblank, hne _ rfl, hne _ rfl, hne _ rfl, hne _ rfl⟩

theorem beginsKey_of_keyText {key : Text} :
    ∀ c ∈ (keyText key ++ rest).head?, BeginsKey c := by
  intro d hd
  obtain ⟨c, s, hs, hc⟩ := exists_of_keyText key
  rw [hs] at hd
  obtain rfl : c = d := Option.some.inj hd
  obtain rfl | rfl | hbare := hc
  · constructor <;> decide
  · constructor <;> decide
  · exact beginsKey_of_isBareChar hbare

theorem skipBlanks_of_head (h : ∀ c ∈ t.head?, isBlankChar c = false) : skipBlanks t = t := by
  cases t with
  | nil => rfl
  | cons c t => simp [skipBlanks, h c rfl]

theorem skipSpace_of_beginsKey (h : ∀ c ∈ t.head?, BeginsKey c) : skipSpace false t = some t := by
  match t with
  | [] => rfl
  | c :: t =>
    have hc := h c rfl
    rw [skipSpace] <;> simp [hc.blank, hc.comment, hc.newline, hc.carriage]

theorem beginsKey_of_join (hpath : path ≠ []) :
    ∀ c ∈ (Text.join ['.'] (path.map keyText) ++ rest).head?, BeginsKey c := by
  match path with
  | [] => exact absurd rfl hpath
  | [key] => exact beginsKey_of_keyText
  | key :: next :: path =>
    rw [List.map_cons, List.map_cons, Text.join_cons_cons, List.append_assoc, List.append_assoc]
    exact beginsKey_of_keyText

theorem length_le_length_join (path : List Text) :
    path.length ≤ (Text.join ['.'] (path.map keyText)).length + 1 := by
  match path with
  | [] => exact Nat.zero_le _
  | [key] => exact Nat.le_add_left _ _
  | key :: next :: path =>
    have := length_le_length_join (next :: path)
    simp only [List.map_cons, Text.join_cons_cons, List.length_append, List.length_cons] at this ⊢
    omega

theorem keyPath_join (hpath : path ≠ []) (hrest : ∀ c ∈ rest.head?, isBareChar c = false)
    (hdot : (skipBlanks rest).head? ≠ some '.') (count : Nat) (hcount : path.length ≤ count) :
    keyPath count (Text.join ['.'] (path.map keyText) ++ rest) = some (path, skipBlanks rest) := by
  induction path generalizing count with
  | nil => exact absurd rfl hpath
  | cons key path ih =>
    obtain ⟨count, rfl⟩ : ∃ k, count = k + 1 := Nat.exists_eq_add_one.2 (Nat.zero_lt_of_lt hcount)
    cases path with
    | nil =>
      have hne : ∀ u, skipBlanks rest ≠ '.' :: u := by
        intro u h
        exact hdot (by rw [h]; rfl)
      simp only [List.map_cons, List.map_nil, Text.join_singleton, keyPath,
        key?_keyText hrest key]
      simp
    | cons next path =>
      let more := Text.join ['.'] ((next :: path).map keyText) ++ rest
      have hjoin : Text.join ['.'] ((key :: next :: path).map keyText) ++ rest =
          keyText key ++ '.' :: more := by
        simp [more]
      have hkey : key? (keyText key ++ '.' :: more) = some (key, '.' :: more) :=
        key?_keyText (by rintro _ ⟨⟩; decide) key
      have hmore : skipBlanks more = more :=
        skipBlanks_of_head fun c hc => (beginsKey_of_join (List.cons_ne_nil next path) c hc).blank
      have hread := ih (List.cons_ne_nil next path) count (Nat.le_of_succ_le_succ hcount)
      rw [hjoin, keyPath, hkey]
      show (keyPath count (skipBlanks more)).bind
        (fun read => some (key :: read.1, read.2)) = some (key :: next :: path, skipBlanks rest)
      rw [hmore, hread]
      rfl

theorem keyPath?_join (hpath : path ≠ []) (hrest : ∀ c ∈ rest.head?, isBareChar c = false)
    (hdot : (skipBlanks rest).head? ≠ some '.') :
    keyPath? (Text.join ['.'] (path.map keyText) ++ rest) = some (path, skipBlanks rest) := by
  refine keyPath_join hpath hrest hdot _ ?_
  have := length_le_length_join path
  rw [List.length_append]
  omega

/-! ### Lines -/

theorem statement_headerText (hpath : path ≠ []) (rest : Text) :
    statement (headerText path ++ rest) = some (.header path, rest) := by
  let after := ']' :: '\n' :: rest
  let inside := Text.join ['.'] (path.map keyText) ++ after
  have hs : headerText path ++ rest = '[' :: inside := by
    simp [headerText, inside, after]
  have hhead : ∀ c ∈ inside.head?, BeginsKey c := beginsKey_of_join hpath
  have hkeys : keyPath? inside = some (path, after) :=
    keyPath?_join hpath (by rintro _ ⟨⟩; decide) (show some ']' ≠ some '.' by decide)
  have hread : headerPath [']'] inside = some (path, rest) := by
    rw [headerPath, skipBlanks_of_head fun c hc => (hhead c hc).blank, hkeys]
    rfl
  rw [hs, statement, hread]
  · rfl
  · intro u hu
    exact (hhead '[' (by rw [hu]; rfl)).bracket rfl

/-- A text that is read as a value at the end of a line. -/
structure ReadsValue (t : Text) (v : Value) : Prop where
  head : ∃ c s, t = c :: s ∧ isBlankChar c = false
  value_append : ∀ fuel rest, t.length ≤ fuel →
    value (fuel + 1) maxDepth (t ++ '\n' :: rest) = some (v, '\n' :: rest)

theorem readsValue_decimal {n : Nat} (h : n < wordBound) :
    ReadsValue (Text.decimal n) (.integer n) where
  head := by
    match hs : Text.decimal n with
    | [] => exact absurd hs (Text.decimal_ne_nil n)
    | c :: t =>
      have hc : c.isDigit = true := Text.isDigit_of_mem_decimal (hs ▸ List.mem_cons_self)
      have hbare : isBareChar c = true := by simp [isBareChar, Char.isAlphanum, hc]
      exact ⟨c, t, rfl, (beginsKey_of_isBareChar hbare).blank⟩
  value_append fuel rest _ := value_decimal h fuel maxDepth rest

theorem readsValue_stringText (t : Text) : ReadsValue (stringText t) (.string t) where
  head := by
    obtain ⟨q, s, hs, rfl | rfl⟩ := exists_of_stringText t
    · exact ⟨_, _, hs, rfl⟩
    · exact ⟨_, _, hs, rfl⟩
  value_append fuel rest _ := value_stringText (by rintro _ ⟨⟩; decide) fuel maxDepth t

theorem readsValue_arrayText (texts : List Text) :
    ReadsValue (arrayText texts) (.array (texts.map Value.string)) where
  head := by
    match texts with
    | [] => exact ⟨_, _, rfl, rfl⟩
    | [t] => exact ⟨_, _, rfl, rfl⟩
    | t :: u :: texts => exact ⟨_, _, rfl, rfl⟩
  value_append fuel rest hfuel := value_arrayText texts fuel 79 hfuel ('\n' :: rest)

theorem statement_line (h : ReadsValue t v) (key rest : Text) :
    statement (line key t ++ rest) = some (.assign [key] v, rest) := by
  let after := ' ' :: '=' :: ' ' :: (t ++ '\n' :: rest)
  have hs : line key t ++ rest = keyText key ++ after := by
    simp [line, after, Text.ofString]
  have hkeys : keyPath? (keyText key ++ after) = some ([key], '=' :: ' ' :: (t ++ '\n' :: rest)) :=
    keyPath?_join (List.cons_ne_nil key []) (by rintro _ ⟨⟩; decide)
      (show some '=' ≠ some '.' by decide)
  have hskip : skipBlanks (' ' :: (t ++ '\n' :: rest)) = t ++ '\n' :: rest := by
    obtain ⟨c, u, rfl, hc⟩ := h.head
    exact skipBlanks_of_head (t := c :: (u ++ '\n' :: rest)) (by rintro _ ⟨⟩; exact hc)
  have hvalue : value ((' ' :: (t ++ '\n' :: rest)).length + 1) maxDepth
      (skipBlanks (' ' :: (t ++ '\n' :: rest))) = some (v, '\n' :: rest) := by
    rw [hskip]
    refine h.value_append _ rest ?_
    rw [List.length_cons, List.length_append]
    omega
  have hbracket : ∀ u, keyText key ++ after ≠ '[' :: u := by
    intro u hu
    exact (beginsKey_of_keyText '[' (by rw [hu]; rfl)).bracket rfl
  rw [hs, statement, hkeys]
  · show ((value _ maxDepth (skipBlanks (' ' :: (t ++ '\n' :: rest)))).bind _) = _
    rw [hvalue]
    rfl
  · exact fun u => hbracket _
  · exact fun u => hbracket _

/-! ### Documents -/

/-- A text that is read as some statements, whatever follows it. -/
structure Reads (t : Text) (ss : List Statement) : Prop where
  length_le : ss.length ≤ t.length
  statements_append : ∀ count rest, statements (count + ss.length) (t ++ rest) =
    (statements count rest).map (ss ++ ·)

namespace Reads

theorem nil : Reads [] [] where
  length_le := Nat.le_refl 0
  statements_append := by simp

theorem append (hs : Reads s ss) (ht : Reads t ts) : Reads (s ++ t) (ss ++ ts) where
  length_le := by
    have := hs.length_le
    have := ht.length_le
    simp only [List.length_append]
    omega
  statements_append := by
    intro count rest
    have hcount : count + (ss ++ ts).length = count + ts.length + ss.length := by
      rw [List.length_append]
      omega
    rw [hcount, List.append_assoc, hs.statements_append, ht.statements_append, Option.map_map]
    congr 1
    funext us
    exact (List.append_assoc ss ts us).symm

theorem emptyLine : Reads ['\n'] [] where
  length_le := Nat.zero_le 1
  statements_append := by
    intro count rest
    cases count with
    | zero => rfl
    | succ count => simp [statements, skipSpace]

/-- One statement, on a line that begins with no blank. -/
theorem ofStatement {statement' : Statement} (hne : t ≠ [])
    (hspace : ∀ rest, skipSpace false (t ++ rest) = some (t ++ rest))
    (hread : ∀ rest, statement (t ++ rest) = some (statement', rest)) : Reads t [statement'] where
  length_le := List.length_pos_of_ne_nil hne
  statements_append := by
    intro count rest
    match t with
    | [] => exact absurd rfl hne
    | c :: t =>
      rw [List.length_singleton, statements, hspace]
      show ((statement (c :: t ++ rest)).bind _) = _
      rw [hread]
      cases h : statements count rest with
      | none => simp [h]
      | some ss => simp [h]

theorem header (hpath : path ≠ []) : Reads (headerText path) [.header path] :=
  ofStatement (by simp [headerText]) (fun _ => rfl) (statement_headerText hpath)

theorem line (h : ReadsValue t v) (key : Text) : Reads (line key t) [.assign [key] v] := by
  refine ofStatement (by simp [Toml.line]) (fun rest => ?_) (statement_line h key)
  rw [Toml.line, List.append_assoc, List.append_assoc, List.append_assoc]
  exact skipSpace_of_beginsKey beginsKey_of_keyText

/-- Texts with an empty line between two of them. -/
theorem join {parts : List (Text × List Statement)} (h : ∀ part ∈ parts, Reads part.1 part.2) :
    Reads (Text.join ['\n'] (parts.map Prod.fst)) (parts.flatMap Prod.snd) := by
  match parts with
  | [] => exact nil
  | [part] =>
    simpa using h part List.mem_cons_self
  | part :: next :: parts =>
    have hjoin : Reads (Text.join ['\n'] ((next :: parts).map Prod.fst))
        ((next :: parts).flatMap Prod.snd) := join fun p hp => h p (.tail part hp)
    simpa using (h part List.mem_cons_self).append (emptyLine.append hjoin)

/-- **A document is read** as the statements that it consists of. -/
theorem statements_eq (h : Reads t ss) : statements (t.length + 1) t = some ss := by
  have hcount : t.length + 1 = t.length - ss.length + 1 + ss.length := by
    have := h.length_le
    omega
  have hread := h.statements_append (t.length - ss.length + 1) []
  rw [List.append_nil] at hread
  rw [hcount, hread]
  simp [statements, skipSpace]

theorem parse_eq (h : Reads t ss) (hmark : t.head? ≠ some '\ufeff') :
    parse t = build [] [] ss := by
  have ht : ∀ u, t ≠ '\ufeff' :: u := by
    rintro u rfl
    exact hmark rfl
  unfold parse
  simp [h.statements_eq]

end Reads

end Literate.Toml
