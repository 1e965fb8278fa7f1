import Literate.Proofs.Document.Tidy

/-!
# Elements written and read back

An element of a document that ends with LF is written as markup that is read as one element
(`load_markup_iff`).  What was read can be written: the options of a block were read from lines, so
they stand on lines (`isWritable_of_load`), and its content begins and ends with a line that is not
blank (`isBounded_of_load`).  What comes back is the element with an LF alone for each blank line of
its content.  So it is the same element if there is nothing else on these lines, and only then.  A
blank line that CR LF ends does not come back (`load_markup_returned`).
-/

namespace Literate

/-! ### Options that were read -/

theorem Text.trim_sublist (t : Text) : (trim t).Sublist t :=
  (List.rdropWhile_prefix _ _).sublist.trans (List.dropWhile_sublist _)

theorem Text.trim_trim (t : Text) : trim (trim t) = trim t := by
  show trimEnd (trimStart (trim t)) = trim t
  have hhead : ∀ c ∈ (trim t).head?, Unicode.isWhiteSpace c = false := by
    intro c hc
    -- The end that is cut off leaves the first character, if it leaves any.
    obtain ⟨rest, hrest⟩ := List.rdropWhile_prefix Unicode.isWhiteSpace (trimStart t)
    have hstart : (trimStart t).head? = some c := by
      rw [← hrest, List.head?_append, show (List.rdropWhile _ _).head? = some c from hc]
      rfl
    have hnot := List.head?_dropWhile_not Unicode.isWhiteSpace t
    rw [show (t.dropWhile _).head? = some c from hstart] at hnot
    exact hnot
  rw [trimStart, (Grammar.takeWhile_dropWhile_of_head hhead).2]
  exact List.rdropWhile_idempotent ..

/-- **An option that a line sets** can stand on a line. -/
theorem Convention.isOption_of_option? {line key value : Text}
    (h : option? line = some (key, value)) : IsOption key value := by
  unfold option? at h
  split at h
  · next rest hline =>
    split at h
    · next c cs gap text hkey hafter =>
      split_ifs at h with hvalue
      obtain ⟨rfl, rfl⟩ := Prod.mk.inj (Option.some.inj h)
      rw [Bool.and_eq_true, Bool.not_eq_true', List.contains_eq_mem, decide_eq_false_iff_not]
        at hvalue
      refine ⟨List.cons_ne_nil _ _, fun d hd => ?_, Text.trim_trim text,
        fun hm => hvalue.2 ((Text.trim_sublist text).subset hm)⟩
      rw [← hkey] at hd
      exact List.mem_takeWhile_imp hd
    · cases h
  · cases h

/-- The options of a block can stand on lines. -/
theorem Grammar.isOption_of_options {set new : List (Text × Text)} {lines : List SourceLine}
    (hset : ∀ option ∈ set, Convention.IsOption option.1 option.2)
    (h : options set lines = .ok new) :
    ∀ option ∈ new, Convention.IsOption option.1 option.2 := by
  induction lines generalizing set with
  | nil =>
    obtain rfl := Except.ok.inj h
    exact hset
  | cons line rest ih =>
    rw [options] at h
    split at h
    · cases h
    · next key value hoption =>
      split_ifs at h
      refine ih (fun option ho => ?_) h
      rcases List.mem_append.mp ho with ho | ho
      · exact hset option ho
      · rw [List.mem_singleton] at ho
        rw [ho]
        exact Convention.isOption_of_option? hoption

theorem ElementKind.withContent_eq_self_iff {kind : ElementKind} {name : Text}
    (hname : kind.name? = some name) {content : Text} :
    kind.withContent content = kind ↔ content = kind.content := by
  cases kind with
  | prose text => cases hname
  | _ => simp [withContent, ElementKind.content]

namespace Element

variable {source name : Text} {es : List Element} {e : Element}

/-- What a block says can be written, if its options can stand on lines. -/
theorem exists_isWritable_of_read {kind : ElementKind} {t content : Text}
    {set : List (Text × Text)} (hset : ∀ option ∈ set, Convention.IsOption option.1 option.2)
    (h : Block.read ⟨Text.words t, set, content⟩ = .ok kind) : ∃ name, kind.IsWritable name := by
  obtain ⟨keyword, name, harguments, hname, -, hoptions⟩ := of_read h
  refine ⟨name, hname, Text.isWord_of_mem_words (t := t) ?_,
    fun option ho => hset option (hoptions ho)⟩
  rw [show Text.words t = [keyword, name] from harguments]
  exact List.mem_cons_of_mem _ List.mem_cons_self

/-- **An element of a document can be written.** -/
theorem isWritable_of_load (h : load source = .ok es) (he : e ∈ es)
    (hname : e.kind.name? = some name) : e.kind.IsWritable name := by
  rcases exists_of_mem_load h he with ⟨line, -, -, hprose⟩ |
    ⟨t, optionLines, set, inner, hset, -, -, hread⟩
  · rw [hprose] at hname
    cases hname
  · obtain ⟨word, hword⟩ :=
      exists_isWritable_of_read (Grammar.isOption_of_options (List.forall_mem_nil _) hset) hread
    obtain rfl := Option.some.inj (hname.symm.trans hword.name_eq)
    exact hword

/-! ### Elements that are written -/

theorem ofLines_nil : ofLines [] = .ok [] := by
  rw [ofLines, Grammar.nodes_nil]
  rfl

/-- A line that opens no block is read as prose, whatever stands after it. -/
theorem ofLines_cons_of_none {line : Text} {rest : List SourceLine} {after : List Element}
    (number offset : Nat) (h : Convention.arguments? line = none)
    (hrest : ofLines rest = .ok after) :
    ofLines (⟨number, ⟨offset, offset + line.byteLength⟩, line⟩ :: rest) =
      .ok (⟨number, ⟨offset, offset + line.byteLength⟩, .prose line⟩ :: after) := by
  obtain ⟨nodes, hnodes, hafter⟩ := ofLines_eq_ok_iff.mp hrest
  generalize hline : SourceLine.mk number ⟨offset, offset + line.byteLength⟩ line = first
  have hnone : Convention.arguments? first.text = none := by rwa [← hline]
  refine ofLines_eq_ok_iff.mpr ⟨.ofLine first :: nodes, ?_,
    ofNodes_cons_eq_ok_iff.mpr ⟨_, after, ?_, hafter, rfl⟩⟩
  · rw [Grammar.nodes_cons_of_none hnone, hnodes]
    rfl
  · rw [← hline]
    rfl

/-- **A written block with a bounded content** is read with an LF alone for each blank line, and
leaves no blank line behind it. -/
theorem ofLines_written_of_isBounded {kind : ElementKind} {rest : List SourceLine}
    {after : List Element} (hkind : kind.IsWritable name) (hcontent : kind.content.IsBounded)
    (number offset : Nat) (h : Grammar.run rest = []) (hrest : ofLines rest = .ok after) :
    ∃ stop, ofLines (SourceLine.numbered number offset (Convention.writtenBlock kind.keyword name
        kind.options kind.content) ++ rest) =
      .ok (⟨number, ⟨offset, stop⟩, kind.withContent kind.content.relined⟩ :: after) := by
  obtain ⟨stop, blanks, hread, -, hlength⟩ := ofLines_written hkind number offset h hrest
  rw [hcontent.rtakeWhile_writtenLines, List.length_nil, List.length_eq_zero_iff] at hlength
  rw [hlength, List.nil_append, hcontent.carried_eq] at hread
  exact ⟨stop, hread⟩

/-- A kind that can be written is read back, with an LF alone for each blank line. -/
theorem load_markup_of_isWritable {kind : ElementKind} (hkind : kind.IsWritable name)
    (hcontent : kind.content.IsBounded) :
    ∃ stop, load kind.markup = .ok [⟨1, ⟨0, stop⟩, kind.withContent kind.content.relined⟩] := by
  have hrun : Grammar.run [] = [] := rfl
  obtain ⟨stop, hread⟩ := ofLines_written_of_isBounded hkind hcontent 1 0 hrun ofLines_nil
  rw [List.append_nil, ← cutLines_markup hkind, ← SourceLine.ofText, ← load_eq] at hread
  exact ⟨stop, hread⟩

/-- A line of prose is read back. -/
theorem load_of_arguments?_eq_none {line : Text} (hline : line.IsEnded)
    (h : Convention.arguments? line = none) :
    load line = .ok [⟨1, ⟨0, line.byteLength⟩, .prose line⟩] := by
  have hcut : line.cutLines = [line] := by
    have hlines := Text.cutLines_flatten (List.forall_mem_singleton.mpr hline)
    rwa [List.flatten_singleton] at hlines
  have hread := ofLines_cons_of_none 1 0 h ofLines_nil
  rw [Nat.zero_add] at hread
  rw [load_eq, SourceLine.ofText, hcut, SourceLine.numbered, SourceLine.numbered, Nat.zero_add]
  exact hread

/-- **An element of a document is written and read back.** -/
theorem load_markup_iff (hs : Text.endsWithNewline source = true) (h : load source = .ok es)
    (he : e ∈ es) :
    ∃ e', load e.markup = .ok [e'] ∧
      e'.kind = e.kind.withContent e.kind.content.relined ∧
      (e'.kind = e.kind ↔
        ∀ l ∈ Text.cutLines e.kind.content, Text.isBlank l = true → l = ['\n']) := by
  have hended : e.kind.content = [] ∨ Text.endsWithNewline e.kind.content = true :=
    (closed_load (Or.inr hs) h e he).imp id And.left
  have hcontent := isBounded_of_load hs h he
  rcases exists_of_mem_load h he with ⟨line, hline, hnone, hprose⟩ |
    ⟨t, optionLines, set, inner, -, -, -, hread⟩
  · have hline' := Text.isEnded_of_mem_cutLines (Or.inr hs) hline
    rw [markup, hprose]
    refine ⟨_, load_of_arguments?_eq_none hline' hnone, rfl, fun _ l hl => ?_, fun _ => rfl⟩
    cases hl
  · obtain ⟨keyword, name, -, hname, -⟩ := of_read hread
    obtain ⟨stop, hmarkup⟩ :=
      load_markup_of_isWritable (isWritable_of_load h he hname) hcontent
    refine ⟨_, hmarkup, rfl, ?_⟩
    rw [ElementKind.withContent_eq_self_iff hname, Text.relined_eq_self_iff hended]

/-- An option without a value comes back, and so do lines that CR LF ends if they are not blank. -/
theorem load_markup_kept :
    let source := Text.ofString
      ".. diff-doc:: start a\n    :language: \n    :render: True\n\n    b\r\n\n    c\n"
    let e : Element := ⟨1, ⟨0, 71⟩, .start ['a'] [] true (Text.ofString "b\r\n\nc\n")⟩
    Text.endsWithNewline source = true ∧ load source = .ok [e] ∧ e ∈ [e] ∧
      ∃ e', load e.markup = .ok [e'] ∧ e'.kind = e.kind := by
  intro source e
  have hs : Text.endsWithNewline source = true := by decide +kernel
  have h : load source = .ok [e] := by decide +kernel
  have he : e ∈ [e] := List.mem_singleton_self e
  obtain ⟨e', hload, -, hiff⟩ := load_markup_iff hs h he
  exact ⟨hs, h, he, e', hload, hiff.mpr (by decide +kernel)⟩

/-- **A blank line that CR LF ends** comes back as an LF alone. -/
theorem load_markup_returned :
    let source := Text.ofString ".. diff-doc:: render a\r\n\r\n    x\r\n\r\n    y\r\n"
    let e : Element := ⟨1, ⟨0, 42⟩, .excerpt ['a'] (Text.ofString "x\r\n\r\ny\r\n")⟩
    let e' : Element := ⟨1, ⟨0, 39⟩, .excerpt ['a'] (Text.ofString "x\r\n\ny\r\n")⟩
    Text.endsWithNewline source = true ∧ load source = .ok [e] ∧ load e.markup = .ok [e'] ∧
      e'.kind ≠ e.kind :=
  ⟨by decide +kernel, by decide +kernel, by decide +kernel, by decide +kernel⟩

end Element

end Literate
