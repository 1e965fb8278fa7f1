import Literate.Conversion
import Literate.Proofs.Compile.Meaning
import Literate.Proofs.Document.Contents
import Literate.Proofs.Document.Returned

/-!
# Documents with CR LF compile alike

A document without CR and the same document with CR LF in place of LF, compiled side by side.  A
snippet has the same language and the same pending lines in both, and a content with the same lines
(`Snippet.SameLines`).  Contents are not the same texts: they have CRs until a diff is applied,
which puts its lines together with LFs.  But whatever is asked of a content is asked of its lines,
unless it is run.

So an element that runs no code has the same fault in both documents, or goes the same way and looks
the same, prose apart (`sameOutcome_effect`).  From one element it goes to all of them, and to the
output (`document_returned`).
-/

namespace Literate

/-! ### Texts with the same lines -/

/-- The texts have the same contents of lines, and both or none of them end within a line. -/
structure Text.SameLines (t u : Text) : Prop where
  lines_eq : lines u = lines t
  ended_iff : u = [] ∨ endsWithNewline u = true ↔ t = [] ∨ endsWithNewline t = true

theorem Text.SameLines.refl (t : Text) : t.SameLines t :=
  ⟨rfl, Iff.rfl⟩

/-- A text without CR has the same lines with CRs before its LFs. -/
theorem Text.sameLines_returned {t : Text} (h : '\r' ∉ t) : t.SameLines t.returned :=
  ⟨lines_returned h, ended_returned_iff⟩

/-- A diff is applied line by line. -/
theorem Patch.apply_congr {old old' patch patch' : Text} (h : old.SameLines old')
    (hp : patch.SameLines patch') : apply old' patch' = apply old patch := by
  have hassemble : assemble old' = assemble old := by
    funext lines
    simp only [assemble, h.ended_iff]
  rw [apply, apply, Hunk.parse, Hunk.parse, hp.lines_eq, h.lines_eq, hassemble]

theorem Hunk.addedLines_congr {patch patch' : Text} (h : patch.SameLines patch') :
    addedLines patch' = addedLines patch := by
  rw [addedLines, addedLines, h.lines_eq]

/-! ### Snippets with the same lines -/

/-- The snippets differ in the line ends of their contents only. -/
structure Snippet.SameLines (s t : Snippet) : Prop where
  language_eq : t.language = s.language
  pending_eq : t.pending = s.pending
  content : s.content.SameLines t.content

namespace Snippet.SameLines

variable {s t : Snippet} {content content' : Text}

theorem refl (s : Snippet) : s.SameLines s :=
  ⟨rfl, rfl, .refl _⟩

theorem isFullyShown_eq (h : s.SameLines t) : t.isFullyShown = s.isFullyShown := by
  rw [isFullyShown, isFullyShown, h.pending_eq]

theorem shown (h : s.SameLines t) (lines : List Text) : (s.shown lines).SameLines (t.shown lines) :=
  ⟨h.language_eq, congrArg (without · lines) h.pending_eq, h.content⟩

theorem replaced (h : s.SameLines t) (hc : content.SameLines content') :
    (s.replaced content).SameLines (t.replaced content') := by
  refine ⟨h.language_eq, ?_, hc⟩
  simp only [Snippet.replaced, introduced, h.pending_eq, h.content.lines_eq, hc.lines_eq]

theorem firstUnknown?_eq (h : s.SameLines t) (hc : content.SameLines content') :
    firstUnknown? content' t.content = firstUnknown? content s.content := by
  rw [firstUnknown?, firstUnknown?, h.content.lines_eq, hc.lines_eq]

end Snippet.SameLines

/-- The registries have the same snippets, but for the line ends of their contents. -/
def Registry.SameLines (r r' : Registry) : Prop :=
  ∀ name, Option.Rel Snippet.SameLines (r.get? name) (r'.get? name)

/-! ### Outcomes -/

/-- **Two outcomes agree**: they are the same error, or results that are related. -/
inductive SameOutcome {ε α β : Type} (R : α → β → Prop) : Except ε α → Except ε β → Prop
  | error (e : ε) : SameOutcome R (.error e) (.error e)
  | ok {a : α} {b : β} (h : R a b) : SameOutcome R (.ok a) (.ok b)

namespace SameOutcome

variable {ε ε' α β : Type} {R : α → β → Prop} {x : Except ε α} {y : Except ε β}

theorem exists_eq (h : SameOutcome R x y) :
    (∃ e, x = .error e ∧ y = .error e) ∨ ∃ a b, x = .ok a ∧ y = .ok b ∧ R a b := by
  cases h with
  | error e => exact Or.inl ⟨e, rfl, rfl⟩
  | @ok a b h => exact Or.inr ⟨a, b, rfl, rfl, h⟩

theorem error_iff (h : SameOutcome R x y) (e : ε) : x = .error e ↔ y = .error e := by
  cases h with
  | error e' => rw [Except.error.injEq, Except.error.injEq]
  | ok h =>
    constructor
    · intro he
      cases he
    · intro he
      cases he

theorem mapError (h : SameOutcome R x y) (f : ε → ε') :
    SameOutcome R (x.mapError f) (y.mapError f) := by
  cases h with
  | error e => exact .error (f e)
  | ok h => exact .ok h

theorem of_ok (h : SameOutcome R x y) {a : α} {b : β} (ha : x = .ok a) (hb : y = .ok b) :
    R a b := by
  subst ha hb
  cases h with
  | ok h => exact h

end SameOutcome

/-! ### Pieces of the output -/

/-- **What the reader gets to see of an element** in the two documents: the same text of a block,
and a line of prose with the one or the other terminator, if it has one. -/
structure SamePiece (kind : ElementKind) (d d' : Rendered) : Prop where
  block : ∀ name, kind.name? = some name → d'.text = d.text
  prose : ∀ text, kind = .prose text → ∃ s, '\n' ∉ s ∧
    (d.text = s ∧ d'.text = s ∨ d.text = s ++ ['\n'] ∧ d'.text = s ++ ['\r', '\n'])

/-- A block that looks the same. -/
theorem SamePiece.of_name {kind : ElementKind} {name : Text} {d d' : Rendered}
    (hname : kind.name? = some name) (h : d'.text = d.text) : SamePiece kind d d' := by
  refine ⟨fun _ _ => h, fun text hprose => ?_⟩
  rw [hprose] at hname
  cases hname

theorem Rendered.text_code_returned (language content : Text) :
    (code language content.returned).text = (code language content).text := by
  rw [text, text, indented_returned]

theorem Rendered.text_literal_returned (content : Text) :
    (literal content.returned).text = (literal content).text := by
  rw [text, text, indented_returned]

/-- What is asked of an element: its content has no CR, it is one line if it is prose, and it runs
no code. -/
structure ElementKind.IsPassive (kind : ElementKind) : Prop where
  return_not_mem : '\r' ∉ kind.content
  line : ∀ text, kind = .prose text → ∃ s, '\n' ∉ s ∧ (text = s ∨ text = s ++ ['\n'])
  keyword_ne : kind.keyword ≠ Text.ofString "output"

/-- What a step leaves: registries with the same lines, and the same piece of the output. -/
def SameStep (kind : ElementKind) (result result' : Registry × Rendered) : Prop :=
  result.1.SameLines result'.1 ∧ SamePiece kind result.2 result'.2

namespace Registry.SameLines

variable {r r' : Registry} {s t : Snippet} {name content content' : Text}

theorem empty : Registry.empty.SameLines Registry.empty := fun _ => .none

theorem insert (h : r.SameLines r') (hst : s.SameLines t) (name : Text) :
    (r.insert name s).SameLines (r'.insert name t) := by
  intro other
  rw [get?_insert, get?_insert]
  split
  · exact .some hst
  · exact h other

theorem contains_eq (h : r.SameLines r') (name : Text) : r'.contains name = r.contains name := by
  have hrel := h name
  rw [contains, contains]
  generalize r.get? name = o at hrel ⊢
  generalize r'.get? name = o' at hrel ⊢
  cases hrel <;> rfl

theorem lookup (h : r.SameLines r') (name : Text) :
    SameOutcome Snippet.SameLines (r.lookup name) (r'.lookup name) := by
  have hrel := h name
  rw [Registry.lookup, Registry.lookup]
  generalize r.get? name = o at hrel ⊢
  generalize r'.get? name = o' at hrel ⊢
  cases hrel with
  | none => exact .error CompileFault.unknownName
  | some hst => exact .ok hst

theorem lookupShown (h : r.SameLines r') (name : Text) (operation : Operation) :
    SameOutcome Snippet.SameLines (r.lookupShown name operation)
      (r'.lookupShown name operation) := by
  have hlookup := h.lookup name
  rw [Registry.lookupShown, Registry.lookupShown]
  generalize r.lookup name = x at hlookup ⊢
  generalize r'.lookup name = y at hlookup ⊢
  cases hlookup with
  | error fault => exact .error fault
  | ok hst =>
    simp only [hst.isFullyShown_eq, hst.pending_eq]
    split
    · exact .ok hst
    · exact .error _

theorem record {kind : ElementKind} {name' : Text} {d d' : Rendered} (h : r.SameLines r')
    (hst : s.SameLines t) (hname : kind.name? = some name') (hd : d'.text = d.text) (name : Text)
    (render : Bool) (lines : List Text) :
    SameStep kind (r.record name s render lines d) (r'.record name t render lines d') := by
  cases render
  · exact ⟨h.insert hst name, .of_name hname rfl⟩
  · exact ⟨h.insert (hst.shown lines) name, .of_name hname hd⟩

theorem start (h : r.SameLines r') (hr : '\r' ∉ content) (name language : Text) (render : Bool) :
    SameOutcome (SameStep (.start name language render content))
      (r.start name language render content) (r'.start name language render content.returned) := by
  have hcontent := Text.sameLines_returned hr
  rw [Registry.start, Registry.start, h.contains_eq, hcontent.lines_eq]
  split
  · exact .error _
  · refine .ok (h.record ?_ rfl (Rendered.text_code_returned language content) name render _)
    exact (Snippet.SameLines.refl _).replaced hcontent

theorem replace (h : r.SameLines r') (hr : '\r' ∉ content) (name : Text) (render : Bool) :
    SameOutcome (SameStep (.replace name render content)) (r.replace name render content)
      (r'.replace name render content.returned) := by
  have hcontent := Text.sameLines_returned hr
  have hlookup := h.lookupShown name .replace
  rw [Registry.replace, Registry.replace, hcontent.lines_eq]
  generalize r.lookupShown name .replace = x at hlookup ⊢
  generalize r'.lookupShown name .replace = y at hlookup ⊢
  cases hlookup with
  | error fault => exact .error fault
  | @ok s t hst =>
    simp only [hst.language_eq]
    exact .ok (h.record (hst.replaced hcontent) rfl (Rendered.text_code_returned s.language content)
      name render _)

theorem patch (h : r.SameLines r') (hr : '\r' ∉ content) (name : Text) (render : Bool) :
    SameOutcome (SameStep (.diff name render content)) (r.patch Patch.apply name render content)
      (r'.patch Patch.apply name render content.returned) := by
  have hcontent := Text.sameLines_returned hr
  have hlookup := h.lookupShown name .applyDiff
  rw [Registry.patch, Registry.patch, Hunk.addedLines_congr hcontent]
  generalize r.lookupShown name .applyDiff = x at hlookup ⊢
  generalize r'.lookupShown name .applyDiff = y at hlookup ⊢
  cases hlookup with
  | error fault => exact .error fault
  | @ok s t hst =>
    -- From here on the contents are the same texts.
    simp only [Patch.apply_congr hst.content hcontent]
    cases Patch.apply s.content content with
    | error cause => exact .error _
    | ok patched =>
      exact .ok (h.record (hst.replaced (.refl patched)) rfl
        (Rendered.text_literal_returned content) name render _)

theorem excerpt (h : r.SameLines r') (hr : '\r' ∉ content) (name : Text) :
    SameOutcome (SameStep (.excerpt name content)) (r.excerpt name content)
      (r'.excerpt name content.returned) := by
  have hcontent := Text.sameLines_returned hr
  have hlookup := h.lookup name
  rw [Registry.excerpt, Registry.excerpt, hcontent.lines_eq]
  generalize r.lookup name = x at hlookup ⊢
  generalize r'.lookup name = y at hlookup ⊢
  cases hlookup with
  | error fault => exact .error fault
  | @ok s t hst =>
    simp only [hst.firstUnknown?_eq hcontent]
    cases Snippet.firstUnknown? content s.content with
    | some line => exact .error _
    | none =>
      simp only [hst.language_eq]
      exact .ok ⟨h.insert (hst.shown _) name,
        .of_name rfl (Rendered.text_code_returned s.language content)⟩

end Registry.SameLines

namespace Compile

variable {r r' : Registry} {run : Runner} {history history' : List Call} {source : Text}
  {es es' : List Element} {e e' : Element}

/-- **An element that runs no code** does the same in both documents, or has the same fault. -/
theorem sameOutcome_effect (h : r.SameLines r') {kind : ElementKind} (hk : kind.IsPassive)
    (run : Runner) (history history' : List Call) :
    SameOutcome (SameStep kind) (Element.effect (.standard run) history r kind).result
      (Element.effect (.standard run) history' r' (Relabeling.returned.kind kind)).result := by
  cases kind with
  | prose text =>
    refine .ok ⟨h, fun name hname => (nomatch hname), fun text' hprose => ?_⟩
    obtain rfl := ElementKind.prose.inj hprose
    obtain ⟨s, hs, hline⟩ := hk.line text rfl
    refine ⟨s, hs, hline.imp (fun hline => ?_) fun hline => ?_⟩
    · exact ⟨hline, by rw [hline]; exact Text.returned_of_not_mem hs⟩
    · refine ⟨hline, ?_⟩
      rw [hline]
      exact (Text.returned_append_newline hs []).trans (List.append_assoc ..)
  | start name language render content => exact h.start hk.return_not_mem name language render
  | replace name render content => exact h.replace hk.return_not_mem name render
  | diff name render content => exact h.patch hk.return_not_mem name render
  | excerpt name content => exact h.excerpt hk.return_not_mem name
  | output name render content => exact absurd rfl hk.keyword_ne

theorem result_execute (tools : Tools) (history : List Call) (r : Registry) (e : Element) :
    (e.execute tools history r).result = (Element.effect tools history r e.kind).result.mapError
      fun fault => ⟨e.line, e.kind.name?.getD [], fault⟩ := by
  rw [Element.execute]
  rcases Element.effect tools history r e.kind with ⟨calls, fault | result⟩ <;> rfl

theorem name?_returned (kind : ElementKind) :
    (Relabeling.returned.kind kind).name? = kind.name? := by
  cases kind <;> rfl

theorem sameOutcome_execute (h : r.SameLines r') (he : e.Returned e') (hk : e.kind.IsPassive)
    (run : Runner) (history history' : List Call) :
    SameOutcome (SameStep e.kind) (e.execute (.standard run) history r).result
      (e'.execute (.standard run) history' r').result := by
  rw [result_execute, result_execute, he.line, he.kind, name?_returned]
  exact (sameOutcome_effect h hk run history history').mapError _

/-- What the reader gets to see of the elements in the two documents: a piece for each. -/
def SamePieces (es : List Element) (ds ds' : List Rendered) : Prop :=
  es.length = ds.length ∧ List.Forall₂ (fun p d' => SamePiece p.1.kind p.2 d') (es.zip ds) ds'

/-- What elements leave: registries with the same lines, and the same pieces of the output. -/
def SameRun (es : List Element) (result result' : Registry × List Rendered) : Prop :=
  result.1.SameLines result'.1 ∧ SamePieces es result.2 result'.2

/-- **Elements that run no code** do the same in both documents, or the same one has the same
fault. -/
theorem sameOutcome_runFrom (h : r.SameLines r') (hes : List.Forall₂ Element.Returned es es')
    (hk : ∀ e ∈ es, e.kind.IsPassive) (run : Runner) (history history' : List Call) :
    SameOutcome (SameRun es) (runFrom (.standard run) history r es).result
      (runFrom (.standard run) history' r' es').result := by
  induction hes generalizing r r' history history' with
  | nil => exact .ok ⟨h, rfl, .nil⟩
  | @cons e e' es es' he _ ih =>
    obtain ⟨hpassive, hrest⟩ := List.forall_mem_cons.mp hk
    have hstep := sameOutcome_execute h he hpassive run history history'
    rw [runFrom, runFrom]
    generalize e.execute (.standard run) history r = x at hstep ⊢
    generalize e'.execute (.standard run) history' r' = y at hstep ⊢
    obtain ⟨calls, result⟩ := x
    obtain ⟨calls', result'⟩ := y
    cases hstep with
    | error err => exact .error err
    | @ok result result' hresult =>
      obtain ⟨r₁, d⟩ := result
      obtain ⟨r₁', d'⟩ := result'
      have hlater := ih hresult.1 hrest (history ++ calls) (history' ++ calls')
      simp only
      generalize runFrom (.standard run) (history ++ calls) r₁ es = x at hlater ⊢
      generalize runFrom (.standard run) (history' ++ calls') r₁' es' = y at hlater ⊢
      obtain ⟨later, result⟩ := x
      obtain ⟨later', result'⟩ := y
      cases hlater with
      | error err => exact .error err
      | @ok result result' hrun =>
        obtain ⟨hregistry, hlength, hforall⟩ := hrun
        exact .ok ⟨hregistry, congrArg (· + 1) hlength, .cons hresult.2 hforall⟩

/-! ### Documents -/

/-- What is asked of the elements of a document without CR and without `output` elements. -/
theorem isPassive_of_load (hr : '\r' ∉ source) (h : Element.load source = .ok es)
    (hout : ∀ e ∈ es, e.kind.keyword ≠ Text.ofString "output") :
    ∀ e ∈ es, e.kind.IsPassive := by
  intro e he
  refine ⟨fun hm => hr ((Element.sublist_load h).subset ?_), fun text hprose => ?_, hout e he⟩
  · exact List.mem_flatten.mpr ⟨_, List.mem_map_of_mem he, hm⟩
  · rcases Element.exists_of_mem_load h he with ⟨line, hline, -, hkind⟩ |
      ⟨t, optionLines, set, inner, -, -, -, hread⟩
    · obtain rfl := ElementKind.prose.inj (hprose.symm.trans hkind)
      exact Text.exists_of_mem_cutLines hline
    · obtain ⟨keyword, name, -, hname, -⟩ := Element.of_read hread
      rw [hprose] at hname
      cases hname

/-- The outputs of the document and of the document with CR LFs, put together from the same
pieces. -/
def SameOutput (run : Runner) (history : List Call) (source out out' : Text) : Prop :=
  ∃ es ds es' ds', Element.load source = .ok es ∧
    (elements (.standard run) history es).result = .ok ds ∧
    Element.load source.returned = .ok es' ∧
    (elements (.standard run) history es').result = .ok ds' ∧
    out = Rendered.document ds ∧ out' = Rendered.document ds' ∧ SamePieces es ds ds'

theorem sameOutcome_elements (hes : List.Forall₂ Element.Returned es es')
    (hk : ∀ e ∈ es, e.kind.IsPassive) (run : Runner) (history : List Call) :
    SameOutcome (SamePieces es) (elements (.standard run) history es).result
      (elements (.standard run) history es').result := by
  have hrun := sameOutcome_runFrom .empty hes hk run history history
  rw [elements, elements]
  generalize runFrom (.standard run) history .empty es = x at hrun ⊢
  generalize runFrom (.standard run) history .empty es' = y at hrun ⊢
  obtain ⟨calls, result⟩ := x
  obtain ⟨calls', result'⟩ := y
  cases hrun with
  | error err => exact .error err
  | ok hpieces => exact .ok hpieces.2

theorem sameOutcome_document (hr : '\r' ∉ source) (hout : ∀ es, Element.load source = .ok es →
      ∀ e ∈ es, e.kind.keyword ≠ Text.ofString "output") (run : Runner) (history : List Call) :
    SameOutcome (SameOutput run history source) (document (.standard run) history source).result
      (document (.standard run) history source.returned).result := by
  rcases Element.load_returned source with ⟨err, hload, hload'⟩ | ⟨es, es', hload, hload', hes⟩
  · rw [document, document, hload, hload']
    exact .error (DocumentError.format err)
  · have helements := sameOutcome_elements hes (isPassive_of_load hr hload (hout es hload)) run
      history
    rw [document_of_load hload, document_of_load hload']
    rcases helements.exists_eq with ⟨err, hds, hds'⟩ | ⟨ds, ds', hds, hds', hpieces⟩
    · rw [hds, hds']
      exact .error (DocumentError.compile err)
    · rw [hds, hds']
      exact .ok ⟨es, ds, es', ds', hload, hds, hload', hds', rfl, rfl, hpieces⟩

/-- **A document with CR LF in place of LF compiles as it does with LF**, if it runs no code.  It is
refused for the same reason, or its output is put together from the same pieces. -/
theorem document_returned (run : Runner) (history : List Call) (hr : '\r' ∉ source)
    (hout : ∀ es, Element.load source = .ok es →
      ∀ e ∈ es, e.kind.keyword ≠ Text.ofString "output") :
    (∀ err, (document (.standard run) history source).result = .error err ↔
      (document (.standard run) history source.returned).result = .error err) ∧
    ∀ out out', (document (.standard run) history source).result = .ok out →
      (document (.standard run) history source.returned).result = .ok out' →
      SameOutput run history source out out' := by
  have h := sameOutcome_document hr hout run history
  exact ⟨h.error_iff, fun out out' => h.of_ok⟩

/-- A snippet is patched, a blank line among its lines, and shown; the last line lacks its LF. -/
theorem document_returned_patched :
    let run : Runner := fun _ _ => .ok []
    let source := Text.ofLines
      ["Text", ".. diff-doc:: start a", "    :language: sh", "    :render: True", "", "    b", "",
        "    c", "", ".. diff-doc:: diff a", "    :render: False", "", "    @@ -2,2 +2,2 @@",
        "    ", "    -c", "    +d", ".. diff-doc:: render a", "", "    d", ""] ++
          Text.ofString "End"
    let out := Text.ofLines
      ["Text", ".. code-block:: sh", "", "    b", "", "    c", "", ".. code-block:: sh", "",
        "    d", ""] ++ Text.ofString "End"
    let out' := Text.ofString "Text\r\n" ++ Text.ofLines
      [".. code-block:: sh", "", "    b", "", "    c"] ++ Text.ofString "\r\n" ++ Text.ofLines
      [".. code-block:: sh", "", "    d"] ++ Text.ofString "\r\nEnd"
    '\r' ∉ source ∧ (∀ es, Element.load source = .ok es →
      ∀ e ∈ es, e.kind.keyword ≠ Text.ofString "output") ∧
      (document (.standard run) [] source).result = .ok out ∧
      (document (.standard run) [] source.returned).result = .ok out' ∧
      SameOutput run [] source out out' := by
  intro run source out out'
  have hr : '\r' ∉ source := by decide +kernel
  have hnone : ∀ es ∈ (Element.load source).toOption,
      ∀ e ∈ es, e.kind.keyword ≠ Text.ofString "output" := by
    decide +kernel
  have hout : ∀ es, Element.load source = .ok es →
      ∀ e ∈ es, e.kind.keyword ≠ Text.ofString "output" := fun es h => hnone es (by rw [h]; rfl)
  have h : (document (.standard run) [] source).result = .ok out := by decide +kernel
  have h' : (document (.standard run) [] source.returned).result = .ok out' := by decide +kernel
  exact ⟨hr, hout, h, h', (document_returned run [] hr hout).2 out out' h h'⟩

end Compile

end Literate
