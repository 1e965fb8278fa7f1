import Literate.Proofs.Document.Relabel
import Literate.Proofs.Text.Cutting

/-!
# Blocks and what stands around them

Lines in front of a line that is neither blank nor indented are read as they are alone
(`nodes_append`).  So a block can be cut out of a document: the lines before it, its own and the
lines after it are read for themselves (`exists_of_nodes_eq`), and no line after it goes on with it.
Every node is a line of prose or a block with lines of its own (`exists_of_mem_nodes`).
-/

namespace Literate

namespace Grammar

variable {lines rest : List SourceLine} {p : SourceLine → Bool}

/-! ### Lines in front of other lines -/

theorem takeWhile_append_of_detached (h : Detached rest)
    (hp : ∀ line, p line = true → isInner line = true) (lines : List SourceLine) :
    (lines ++ rest).takeWhile p = lines.takeWhile p := by
  induction lines with
  | nil => exact takeWhile_eq_nil_of_detached h hp
  | cons line lines ih =>
    by_cases hl : p line = true
    · rw [List.cons_append, List.takeWhile_cons_of_pos hl, List.takeWhile_cons_of_pos hl, ih]
    · rw [List.cons_append, List.takeWhile_cons_of_neg hl, List.takeWhile_cons_of_neg hl]

theorem dropWhile_append_of_detached (h : Detached rest)
    (hp : ∀ line, p line = true → isInner line = true) (lines : List SourceLine) :
    (lines ++ rest).dropWhile p = lines.dropWhile p ++ rest := by
  have hsplit := List.takeWhile_append_dropWhile (p := p) (l := lines ++ rest)
  rw [takeWhile_append_of_detached h hp] at hsplit
  nth_rewrite 3 [← List.takeWhile_append_dropWhile (p := p) (l := lines)] at hsplit
  rw [List.append_assoc] at hsplit
  exact List.append_cancel_left hsplit

theorem isInner_of_isOption (line : SourceLine) (h : isOption line = true) :
    isInner line = true := by
  rw [isOption_eq, Bool.and_eq_true] at h
  exact h.1

theorem body_append_of_detached (h : Detached rest) (lines : List SourceLine) :
    body (lines ++ rest) = body lines := by
  rw [body, body, run, run, takeWhile_append_of_detached h fun _ hl => hl]
  cases lines with
  | cons line lines => rfl
  | nil => simp

theorem body_isPrefixOf (lines : List SourceLine) : body lines <+: lines := by
  rw [body]
  split
  · exact (List.rdropWhile_prefix _ _).trans (List.takeWhile_prefix _)
  · exact List.nil_prefix

theorem body_append_drop (lines : List SourceLine) :
    body lines ++ lines.drop (body lines).length = lines :=
  List.prefix_iff_eq_append.mp (body_isPrefixOf lines)

/-- A body ends with a line that is not blank. -/
theorem rdropWhile_body (lines : List SourceLine) :
    (body lines).rdropWhile isBlank = body lines := by
  rw [body]
  split
  · exact List.rdropWhile_idempotent ..
  · rfl

/-- **Lines are read as they are alone** if no block of theirs goes on after them. -/
theorem nodes_append (h : Detached rest) (lines : List SourceLine) :
    nodes (lines ++ rest) =
      match nodes lines with
      | .error e => .error e
      | .ok before => (nodes rest).map (before ++ ·) := by
  induction lines using nodes.induct with
  | case1 =>
    rw [List.nil_append, nodes_nil]
    cases nodes rest <;> rfl
  | case2 line lines hnone ih =>
    rw [List.cons_append, nodes_cons_of_none hnone, nodes_cons_of_none hnone, ih]
    cases nodes lines with
    | error e => rfl
    | ok before => cases nodes rest <;> rfl
  | case3 line lines arguments hsome optionLines e hset =>
    rw [List.cons_append, nodes_cons_of_some hsome, nodes_cons_of_some hsome]
    simp only [takeWhile_append_of_detached h isInner_of_isOption]
    simp only [show options [] (lines.takeWhile isOption) = _ from hset]
  | case4 line lines arguments hsome optionLines after set hset ih =>
    rw [List.cons_append, nodes_cons_of_some hsome, nodes_cons_of_some hsome]
    simp only [takeWhile_append_of_detached h isInner_of_isOption,
      dropWhile_append_of_detached h isInner_of_isOption,
      body_append_of_detached h, List.drop_append_of_le_length (body_isPrefixOf _).length_le]
    simp only [show options [] (lines.takeWhile isOption) = _ from hset]
    rw [show nodes ((lines.dropWhile isOption).drop _ ++ rest) = _ from ih]
    cases nodes (after.drop (body after).length) with
    | error e => rfl
    | ok before => cases nodes rest <;> rfl

/-! ### A block among other nodes -/

/-- Lines after their run: lines that are blank, and lines that no block goes on into. -/
theorem exists_of_run (lines : List SourceLine) :
    ∃ held outer, lines = run lines ++ (held ++ outer) ∧ (∀ l ∈ held, isBlank l = true) ∧
      Detached outer := by
  refine ⟨(lines.takeWhile isInner).rtakeWhile isBlank, lines.dropWhile isInner, ?_,
    fun l hl => List.mem_rtakeWhile_imp hl, fun line hline => ?_⟩
  · rw [← List.append_assoc, run, List.rdropWhile_append_rtakeWhile,
      List.takeWhile_append_dropWhile]
  · have hnot := List.head?_dropWhile_not isInner lines
    rw [hline] at hnot
    exact hnot

/-- **No body goes on** after it has been cut off. -/
theorem run_drop_body (h : ∀ line ∈ lines.head?, isOption line = false) :
    run (lines.drop (body lines).length) = [] := by
  by_cases hb : lines.head?.any isBlank = true
  · obtain ⟨held, outer, hlines, hheld, houter⟩ := exists_of_run lines
    rw [body, if_pos hb]
    nth_rewrite 2 [hlines]
    rw [List.drop_left]
    exact run_eq_nil hheld houter
  · rw [body, if_neg hb, List.length_nil, List.drop_zero]
    have hdetached : Detached lines := by
      intro line hline
      have hoption := h line hline
      rw [hline, Option.any_some] at hb
      rwa [isOption_eq, Bool.eq_false_iff.mpr hb, Bool.not_false, Bool.and_true] at hoption
    exact run_eq_nil_of_detached hdetached

theorem exists_of_map_cons {node : Node} {result : Except FormatError (List Node)}
    {ns : List Node} (h : result.map (node :: ·) = .ok ns) : ∃ later, result = .ok later ∧
      ns = node :: later := by
  cases result with
  | error e => cases h
  | ok later => exact ⟨later, rfl, (Except.ok.inj h).symm⟩

/-- Every line is part of a node. -/
theorem ne_nil_of_nodes {line : SourceLine} {ns : List Node} (h : nodes (line :: lines) = .ok ns) :
    ns ≠ [] := by
  rintro rfl
  cases harguments : Convention.arguments? line.text with
  | none =>
    rw [nodes_cons_of_none harguments] at h
    obtain ⟨later, -, hns⟩ := exists_of_map_cons h
    cases hns
  | some arguments =>
    rw [nodes_cons_of_some harguments] at h
    cases hset : options [] (lines.takeWhile isOption) with
    | error e =>
      simp only [hset] at h
      cases h
    | ok set =>
      simp only [hset] at h
      obtain ⟨later, -, hns⟩ := exists_of_map_cons h
      cases hns

/-- The line that a node in the middle begins with. -/
theorem exists_first {after : List Node} {target : Node} (before : List Node)
    (h : nodes lines = .ok (before ++ target :: after)) :
    ∃ front first rest, lines = front ++ first :: rest ∧
      nodes (first :: rest) = .ok (target :: after) := by
  induction lines using nodes.induct generalizing before with
  | case1 =>
    rw [nodes_nil] at h
    exact absurd (Except.ok.inj h).symm (by simp)
  | case2 line lines hnone ih =>
    cases before with
    | nil => exact ⟨[], line, lines, rfl, h⟩
    | cons b before =>
      rw [nodes_cons_of_none hnone] at h
      obtain ⟨later, hlater, hns⟩ := exists_of_map_cons h
      obtain ⟨-, rfl⟩ := List.cons.inj hns
      obtain ⟨front, first, rest, rfl, hfirst⟩ := ih before hlater
      exact ⟨line :: front, first, rest, rfl, hfirst⟩
  | case3 line lines arguments hsome optionLines e hset =>
    rw [nodes_cons_of_some hsome] at h
    simp only [show options [] (lines.takeWhile isOption) = _ from hset] at h
    cases h
  | case4 line lines arguments hsome optionLines after' set hset ih =>
    cases before with
    | nil => exact ⟨[], line, lines, rfl, h⟩
    | cons b before =>
      rw [nodes_cons_of_some hsome] at h
      simp only [show options [] (lines.takeWhile isOption) = _ from hset] at h
      obtain ⟨later, hlater, hns⟩ := exists_of_map_cons h
      obtain ⟨-, rfl⟩ := List.cons.inj hns
      obtain ⟨front, first, rest, hrest, hfirst⟩ := ih before hlater
      refine ⟨line :: (lines.takeWhile isOption ++ (body after' ++ front)), first, rest, ?_, hfirst⟩
      rw [List.cons_append, List.append_assoc, List.append_assoc, ← hrest, body_append_drop,
        List.takeWhile_append_dropWhile]

/-- A node that begins with a line that opens no block is that line. -/
theorem eq_ofLine_of_nodes {after : List Node} {target : Node} {first : SourceLine}
    (hnone : Convention.arguments? first.text = none)
    (h : nodes (first :: lines) = .ok (target :: after)) : target = .ofLine first := by
  rw [nodes_cons_of_none hnone] at h
  obtain ⟨later, -, hns⟩ := exists_of_map_cons h
  exact (List.cons.inj hns).1

/-- **The lines of a block**: its marker, its options and its body, which no blank line ends. -/
theorem exists_of_nodes_marker {after : List Node} {marker : SourceLine} {target : Node}
    {arguments : List Text} (hmarker : Convention.arguments? marker.text = some arguments)
    (h : nodes (marker :: lines) = .ok (target :: after)) :
    ∃ optionLines inner rest set, lines = optionLines ++ inner ++ rest ∧
      target = Grammar.block marker arguments set optionLines inner ∧
      options [] optionLines = .ok set ∧ inner.rdropWhile isBlank = inner ∧
      nodes rest = .ok after ∧ run rest = [] := by
  rw [nodes_cons_of_some hmarker] at h
  cases hset : options [] (lines.takeWhile isOption) with
  | error e =>
    simp only [hset] at h
    cases h
  | ok set =>
    simp only [hset] at h
    obtain ⟨later, hlater, hns⟩ := exists_of_map_cons h
    obtain ⟨rfl, rfl⟩ := List.cons.inj hns
    refine ⟨_, body (lines.dropWhile isOption), _, set, ?_, rfl, hset, rdropWhile_body _, hlater,
      run_drop_body fun line hline => ?_⟩
    · rw [List.append_assoc, body_append_drop, List.takeWhile_append_dropWhile]
    · have hnot := List.head?_dropWhile_not isOption lines
      rw [hline] at hnot
      exact hnot

/-- **The lines before a block** are read for themselves. -/
theorem exists_of_nodes_eq {before after : List Node} {target : Node} {block : Block}
    (hblock : target.kind = .block block) (h : nodes lines = .ok (before ++ target :: after)) :
    ∃ front marker rest arguments, lines = front ++ marker :: rest ∧
      Convention.arguments? marker.text = some arguments ∧ nodes front = .ok before ∧
      nodes (marker :: rest) = .ok (target :: after) := by
  obtain ⟨front, marker, rest, rfl, hnodes⟩ := exists_first before h
  cases hmarker : Convention.arguments? marker.text with
  | none =>
    rw [eq_ofLine_of_nodes hmarker hnodes] at hblock
    cases hblock
  | some arguments =>
    refine ⟨front, marker, rest, arguments, rfl, hmarker, ?_, hnodes⟩
    rw [nodes_append (detached_cons (isInner_eq_false hmarker)), hnodes] at h
    cases hfront : nodes front with
    | error e =>
      rw [hfront] at h
      cases h
    | ok ns =>
      rw [hfront] at h
      rw [List.append_cancel_right (Except.ok.inj h)]

/-- **What a node is**: a line of prose, or a block of its marker, its options and its body, which
stand one after the other among the lines. -/
theorem exists_of_mem_nodes {node : Node} {ns : List Node} (h : nodes lines = .ok ns)
    (hnode : node ∈ ns) :
    (∃ line ∈ lines, Convention.arguments? line.text = none ∧ node = .ofLine line) ∨
      ∃ front marker arguments optionLines inner rest set,
        lines = front ++ marker :: (optionLines ++ inner ++ rest) ∧
        Convention.arguments? marker.text = some arguments ∧ options [] optionLines = .ok set ∧
        inner.rdropWhile isBlank = inner ∧
        node = Grammar.block marker arguments set optionLines inner := by
  obtain ⟨before, after, rfl⟩ := List.append_of_mem hnode
  obtain ⟨front, first, rest, rfl, hnodes⟩ := exists_first before h
  cases harguments : Convention.arguments? first.text with
  | none =>
    exact Or.inl ⟨first, List.mem_append_right _ List.mem_cons_self, harguments,
      eq_ofLine_of_nodes harguments hnodes⟩
  | some arguments =>
    obtain ⟨optionLines, inner, rest, set, rfl, hblock, hset, hlast, -⟩ :=
      exists_of_nodes_marker harguments hnodes
    exact Or.inr ⟨front, first, arguments, optionLines, inner, rest, set, rfl, harguments, hset,
      hlast, hblock⟩

/-! ### A block in a source -/

/-- A part of the lines of a text is numbered from where it begins. -/
theorem of_numbered_eq_append {number offset : Nat} {texts : List Text} {as bs : List SourceLine}
    (h : SourceLine.numbered number offset texts = as ++ bs) :
    texts = as.map SourceLine.text ++ bs.map SourceLine.text ∧
      as = SourceLine.numbered number offset (as.map SourceLine.text) ∧
      bs = SourceLine.numbered (number + as.length)
        (offset + Text.byteLength (as.map SourceLine.text).flatten) (bs.map SourceLine.text) := by
  have htexts := congrArg (List.map SourceLine.text) h
  rw [SourceLine.map_text_numbered, List.map_append] at htexts
  rw [htexts, SourceLine.numbered_append] at h
  have hlength : ∀ number offset texts,
      (SourceLine.numbered number offset texts).length = texts.length := by
    intro number offset texts
    rw [← List.length_map SourceLine.text, SourceLine.map_text_numbered]
  obtain ⟨has, hbs⟩ := List.append_inj h ((hlength _ _ _).trans (List.length_map _))
  rw [List.length_map] at hbs
  exact ⟨htexts, has.symm, hbs.symm⟩

theorem stopAfter_numbered (number offset : Nat) (texts : List Text) :
    stopAfter offset (SourceLine.numbered number offset texts) =
      offset + Text.byteLength texts.flatten := by
  induction texts generalizing number offset with
  | nil => rfl
  | cons text texts ih =>
    have hcons := stopAfter_append_cons offset []
      ⟨number, ⟨offset, offset + Text.byteLength text⟩, text⟩
      (SourceLine.numbered (number + 1) (offset + Text.byteLength text) texts)
    rw [List.nil_append, ih] at hcons
    rw [SourceLine.numbered, hcons, List.flatten_cons, Text.byteLength_append, Nat.add_assoc]

/-- No body goes on in the texts, wherever they stand. -/
theorem run_numbered_eq_nil {number offset : Nat} {texts : List Text}
    (h : run (SourceLine.numbered number offset texts) = []) (number' offset' : Nat) :
    run (SourceLine.numbered number' offset' texts) = [] := by
  have hmove := fun n o => SourceLine.numbered_add n o 0 0 texts
  simp only [Nat.add_zero] at hmove
  rw [hmove, run_map_move, List.map_eq_nil_iff] at h
  rw [hmove, run_map_move, h, List.map_nil]

/-- Prose at the beginning of numbered lines is the first of them. -/
theorem exists_of_nodes_numbered_prose {number offset : Nat} {texts : List Text}
    {after : List Node} {target : Node} {text : Text} (hprose : target.kind = .prose text)
    (h : nodes (SourceLine.numbered number offset texts) = .ok (target :: after)) :
    ∃ line rest, texts = line :: rest ∧ Convention.arguments? line = none ∧
      target = ⟨number, ⟨offset, offset + Text.byteLength line⟩, .prose line⟩ ∧
      nodes (SourceLine.numbered (number + 1) (offset + Text.byteLength line) rest) =
        .ok after := by
  cases texts with
  | nil =>
    rw [SourceLine.numbered, nodes_nil] at h
    cases h
  | cons line rest =>
    rw [SourceLine.numbered] at h
    generalize hfirst : SourceLine.mk number ⟨offset, offset + Text.byteLength line⟩ line = first
      at h
    cases hmarker : Convention.arguments? first.text with
    | none =>
      rw [nodes_cons_of_none hmarker] at h
      obtain ⟨later, hlater, hns⟩ := exists_of_map_cons h
      obtain ⟨rfl, rfl⟩ := List.cons.inj hns
      subst hfirst
      exact ⟨line, rest, rfl, hmarker, rfl, hlater⟩
    | some arguments =>
      obtain ⟨optionLines, inner, rest, set, -, rfl, -⟩ := exists_of_nodes_marker hmarker h
      cases hprose

/-- **A block at the beginning of numbered lines**: its own lines, of which its body comes last, and
the lines after it, in which no body goes on. -/
theorem exists_of_nodes_numbered {number offset : Nat} {texts : List Text} {after : List Node}
    {target : Node} {b : Block} (hblock : target.kind = .block b)
    (h : nodes (SourceLine.numbered number offset texts) = .ok (target :: after)) :
    ∃ (front rest : List Text) (optionLines inner : List SourceLine) (t : Text),
      texts = front ++ inner.map SourceLine.text ++ rest ∧ front ≠ [] ∧
      target.line = number ∧ target.span = ⟨offset,
        offset + Text.byteLength (front ++ inner.map SourceLine.text).flatten⟩ ∧
      b.arguments = Text.words t ∧ options [] optionLines = .ok b.options ∧
      b.content = content inner ∧ inner.rdropWhile isBlank = inner ∧
      nodes (SourceLine.numbered (number + (front ++ inner.map SourceLine.text).length)
        (offset + Text.byteLength (front ++ inner.map SourceLine.text).flatten) rest) = .ok after ∧
      run (SourceLine.numbered 0 0 rest) = [] := by
  cases texts with
  | nil =>
    rw [SourceLine.numbered, nodes_nil] at h
    cases h
  | cons text texts =>
    rw [SourceLine.numbered] at h
    generalize hfirst : SourceLine.mk number ⟨offset, offset + Text.byteLength text⟩ text = first
      at h
    cases hmarker : Convention.arguments? first.text with
    | none =>
      rw [eq_ofLine_of_nodes hmarker h] at hblock
      cases hblock
    | some arguments =>
      obtain ⟨optionLines, inner, rest, set, hlines, rfl, hset, hlast, hafter, hrun⟩ :=
        exists_of_nodes_marker hmarker h
      subst hfirst
      obtain ⟨htexts, hblock', hrest⟩ := of_numbered_eq_append hlines
      obtain rfl := NodeKind.block.inj hblock
      obtain ⟨t, -, rfl⟩ := Option.map_eq_some_iff.mp hmarker
      have hstop : stopAfter (offset + Text.byteLength text) (optionLines ++ inner) =
          offset + Text.byteLength text +
            Text.byteLength ((optionLines ++ inner).map SourceLine.text).flatten := by
        rw [hblock', stopAfter_numbered, SourceLine.map_text_numbered]
      have hlength : number + (text :: (optionLines ++ inner).map SourceLine.text).length =
          number + 1 + (optionLines ++ inner).length := by
        rw [List.length_cons, List.length_map]
        omega
      have hbytes : offset + Text.byteLength
            (text :: (optionLines ++ inner).map SourceLine.text).flatten =
          offset + Text.byteLength text +
            Text.byteLength ((optionLines ++ inner).map SourceLine.text).flatten := by
        rw [List.flatten_cons, Text.byteLength_append, Nat.add_assoc]
      refine ⟨text :: optionLines.map SourceLine.text, rest.map SourceLine.text, optionLines, inner,
        t, ?_, List.cons_ne_nil _ _, rfl, ?_, rfl, hset, rfl, hlast, ?_, ?_⟩
      · rw [htexts, List.map_append]
        rfl
      · rw [List.cons_append, ← List.map_append, hbytes, block, hstop]
      · rwa [List.cons_append, ← List.map_append, hlength, hbytes, ← hrest]
      · rw [hrest] at hrun
        exact run_numbered_eq_nil hrun 0 0

/-- **A block in a source**: the lines before it, its own lines and the lines after it, in which no
body goes on. -/
theorem exists_of_nodes_ofText {source : Text} {before after : List Node} {target : Node}
    {b : Block} (hblock : target.kind = .block b)
    (h : nodes (SourceLine.ofText source) = .ok (before ++ target :: after)) :
    ∃ front lines rest : List Text, source.cutLines = front ++ (lines ++ rest) ∧ lines ≠ [] ∧
      nodes (SourceLine.numbered 1 0 front) = .ok before ∧ target.line = 1 + front.length ∧
      target.span = ⟨Text.byteLength front.flatten, Text.byteLength (front ++ lines).flatten⟩ ∧
      nodes (SourceLine.numbered (1 + (front ++ lines).length)
        (Text.byteLength (front ++ lines).flatten) rest) = .ok after ∧
      run (SourceLine.numbered 0 0 rest) = [] ∧ ∃ t, b.arguments = Text.words t := by
  obtain ⟨front, marker, lines, arguments, hlines, -, hfront, hrest⟩ :=
    exists_of_nodes_eq hblock h
  obtain ⟨htexts, hfront', hlines'⟩ := of_numbered_eq_append hlines
  rw [hlines'] at hrest
  obtain ⟨first, rest, -, inner, t, hcut, hfirst, hline, hspan, hwords, -, -, -, hafter, hrun⟩ :=
    exists_of_nodes_numbered hblock hrest
  generalize hown : first ++ inner.map SourceLine.text = own at hcut hspan hafter
  have hown' : own ≠ [] := by
    rw [← hown]
    exact List.append_ne_nil_of_left_ne_nil hfirst _
  refine ⟨front.map SourceLine.text, own, rest, by rw [htexts, hcut], hown', by rwa [← hfront'],
    by rw [hline, List.length_map], ?_, ?_, hrun, t, hwords⟩
  · rw [hspan, List.flatten_append, Text.byteLength_append, Nat.zero_add]
  · rwa [List.length_append, List.length_map, ← Nat.add_assoc, List.flatten_append,
      Text.byteLength_append, ← Nat.zero_add (Text.byteLength (front.map SourceLine.text).flatten)]

end Grammar

end Literate
