import Literate.Compile.Error
import Literate.Document.Element
import Literate.Rendered
import Literate.Snippet.Registry

/-!
# Carrying out an element

An element is carried out on a registry. It changes at most the snippet it names, and shows the
reader at most its own content. A snippet is not replaced, patched or run while lines of it are
pending, so no code is run that the reader has not been shown.
-/

namespace Literate

/-- What a compilation needs from outside. `run` answers calls, `patch` applies a diff to a text,
and `diff` writes the diff between two texts. -/
structure Tools where
  run : Runner
  patch : (old diff : Text) → Except PatchError Text
  diff : (old new : Text) → Text

/-- The outcome of work that may run code: the calls it made, first to last, and its result. -/
structure Traced (ε α : Type) where
  calls : List Call
  result : Except ε α

namespace Traced

/-- Work that runs no code. -/
def pure {ε α : Type} (result : Except ε α) : Traced ε α :=
  ⟨[], result⟩

end Traced

namespace Registry

/-- The snippet of a name, which has to have one. -/
def lookup (r : Registry) (name : Text) : Except CompileFault Snippet :=
  match r.get? name with
  | some s => .ok s
  | none => .error .unknownName

/-- The snippet of a name, which has to have one with no line pending. -/
def lookupShown (r : Registry) (name : Text) (operation : Operation) :
    Except CompileFault Snippet :=
  match r.lookup name with
  | .error fault => .error fault
  | .ok s => if s.isFullyShown then .ok s else .error (.pendingLines operation s.pending)

/-- Binds a name to a snippet that has just changed. If the change is rendered, `lines` have been
shown by it. -/
def record (r : Registry) (name : Text) (s : Snippet) (render : Bool) (lines : List Text)
    (rendered : Rendered) : Registry × Rendered :=
  if render then (r.insert name (s.shown lines), rendered) else (r.insert name s, .nothing)

/-- A new snippet under a name that has none. -/
def start (r : Registry) (name language : Text) (render : Bool) (content : Text) :
    Except CompileFault (Registry × Rendered) :=
  if r.contains name then
    .error .duplicateName
  else
    .ok (r.record name ((Snippet.empty language).replaced content) render (Text.lines content)
      (.code language content))

/-- New content for a snippet. -/
def replace (r : Registry) (name : Text) (render : Bool) (content : Text) :
    Except CompileFault (Registry × Rendered) :=
  match r.lookupShown name .replace with
  | .error fault => .error fault
  | .ok s =>
    .ok (r.record name (s.replaced content) render (Text.lines content) (.code s.language content))

/-- A snippet changed by a diff; the lines that the diff adds are those it shows. -/
def patch (apply : Text → Text → Except PatchError Text) (r : Registry) (name : Text)
    (render : Bool) (content : Text) : Except CompileFault (Registry × Rendered) :=
  match r.lookupShown name .applyDiff with
  | .error fault => .error fault
  | .ok s =>
    match apply s.content content with
    | .error cause => .error (.patch cause)
    | .ok patched =>
      .ok (r.record name (s.replaced patched) render (Hunk.addedLines content) (.literal content))

/-- Lines of a snippet shown. -/
def excerpt (r : Registry) (name content : Text) : Except CompileFault (Registry × Rendered) :=
  match r.lookup name with
  | .error fault => .error fault
  | .ok s =>
    match Snippet.firstUnknown? content s.content with
    | some line => .error (.unknownLine line)
    | none => .ok (r.insert name (s.shown (Text.lines content)), .code s.language content)

end Registry

namespace Element

/-- Compares what a call printed with the content of an `output` element; white space at the ends is
of no account. -/
def check (content : Text) : Except RunError Text → Except CompileFault Unit
  | .error cause => .error (.run cause)
  | .ok printed =>
    if Text.trim printed = Text.trim content then
      .ok ()
    else
      .error (.outputMismatch (Text.trim content) (Text.trim printed))

/-- Runs a snippet and compares what it prints; `history` are the calls made before. -/
def verify (run : Runner) (history : List Call) (r : Registry) (name : Text) (render : Bool)
    (content : Text) : Traced CompileFault (Registry × Rendered) :=
  match r.lookupShown name .renderOutput with
  | .error fault => .pure (.error fault)
  | .ok s =>
    let call : Call := ⟨s.language, s.content⟩
    match check content (run history call) with
    | .error fault => ⟨[call], .error fault⟩
    | .ok () => ⟨[call], .ok (r, if render then .literal content else .nothing)⟩

/-- What an element does to a registry, and what the reader gets to see of it. -/
def effect (tools : Tools) (history : List Call) (r : Registry) :
    ElementKind → Traced CompileFault (Registry × Rendered)
  | .prose text => .pure (.ok (r, .prose text))
  | .start name language render content => .pure (r.start name language render content)
  | .replace name render content => .pure (r.replace name render content)
  | .diff name render content => .pure (r.patch tools.patch name render content)
  | .excerpt name content => .pure (r.excerpt name content)
  | .output name render content => verify tools.run history r name render content

/-- An element carried out on a registry after the calls in `history`. -/
def execute (tools : Tools) (history : List Call) (r : Registry) (element : Element) :
    Traced CompileError (Registry × Rendered) :=
  match effect tools history r element.kind with
  | ⟨calls, .ok result⟩ => ⟨calls, .ok result⟩
  | ⟨calls, .error fault⟩ =>
    ⟨calls, .error ⟨element.line, element.kind.name?.getD [], fault⟩⟩

end Element

end Literate
