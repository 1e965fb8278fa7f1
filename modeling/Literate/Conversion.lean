import Literate.Compile.Document
import Literate.Diff.Unified
import Literate.Document.Markup
import Literate.Patch.Apply

/-!
# Converting a block

A change to a snippet can be written as a diff or as its whole new content. Converting a block from
one form to the other needs the snippet as it stands before the block, so the elements before it are
carried out first.
-/

namespace Literate

/-- The two forms of a change. -/
inductive Form where
  | diff
  | replace
deriving DecidableEq, Repr

/-- Why a block is not converted. -/
inductive ConversionError where
  | unknownForm (word : Text)
  | noElement (line : Nat)
  | unsupported (line : Nat) (kind : Text) (form : Form)
  /-- The content is that of the snippet already, and a diff without hunks cannot be applied. -/
  | unchanged (line : Nat) (name : Text)
  | document (error : DocumentError)
deriving DecidableEq, Repr

/-- The word for a form. -/
def Form.word : Form → Text
  | diff => Text.ofString "diff"
  | replace => Text.ofString "replace"

/-- The message for a block that is not converted. -/
def ConversionError.message : ConversionError → Text
  | unknownForm word =>
    Text.ofString "unknown representation " ++ Text.quoted word ++
      Text.ofString ", expected \"diff\" or \"replace\""
  | noElement line => atLine line (Text.ofString "no element starts on this line")
  | unsupported line kind form =>
    atLine line
      (Text.ofString "cannot convert a " ++ kind ++ Text.ofString " element to " ++ form.word)
  | unchanged line name =>
    atLine line (Text.ofString "snippet " ++ Text.quoted name ++
      Text.ofString " is unchanged, there is no diff to write")
  | document error => error.message

/-- The form that a word names. -/
def Form.ofWord (word : Text) : Except ConversionError Form :=
  if word = Text.ofString "diff" then .ok .diff
  else if word = Text.ofString "replace" then .ok .replace
  else .error (.unknownForm word)

/-- Diffs as this library reads and writes them, with a given way of running code. -/
def Tools.standard (run : Runner) : Tools :=
  ⟨run, Patch.apply, Diff.unified⟩

namespace Conversion

/-- An error of an element as one of a conversion. -/
def ofCompile (e : CompileError) : ConversionError :=
  .document (.compile e)

/-- The content that a diff element gives to its snippet, after the elements before it. -/
def patchedContent (tools : Tools) (history : List Call) (before : List Element) (target : Element)
    (name : Text) : Traced ConversionError Text :=
  match Compile.replay tools history before with
  | ⟨calls, .error e⟩ => ⟨calls, .error (ofCompile e)⟩
  | ⟨calls, .ok r⟩ =>
    match target.execute tools (history ++ calls) r with
    | ⟨later, .error e⟩ => ⟨calls ++ later, .error (ofCompile e)⟩
    | ⟨later, .ok (r, _)⟩ =>
      match r.get? name with
      | some s => ⟨calls ++ later, .ok s.content⟩
      | none => ⟨calls ++ later, .error (ofCompile ⟨target.line, name, .unknownName⟩)⟩

/-- The diff that gives the content of a replace element to its snippet, after the elements before
it. -/
def writtenDiff (tools : Tools) (history : List Call) (before : List Element) (line : Nat)
    (name content : Text) : Traced ConversionError Text :=
  match Compile.replay tools history before with
  | ⟨calls, .error e⟩ => ⟨calls, .error (ofCompile e)⟩
  | ⟨calls, .ok r⟩ =>
    match r.get? name with
    | none => ⟨calls, .error (ofCompile ⟨line, name, .unknownName⟩)⟩
    | some s =>
      if s.content = content then
        ⟨calls, .error (.unchanged line name)⟩
      else
        ⟨calls, .ok (tools.diff s.content content)⟩

/-- The other form of an element, after the elements before it. -/
def kind (tools : Tools) (history : List Call) (before : List Element) (target : Element)
    (form : Form) : Traced ConversionError ElementKind :=
  match target.kind, form with
  | .diff name render _, .replace =>
    match patchedContent tools history before target name with
    | ⟨calls, .error e⟩ => ⟨calls, .error e⟩
    | ⟨calls, .ok content⟩ => ⟨calls, .ok (.replace name render content)⟩
  | .replace name render content, .diff =>
    match writtenDiff tools history before target.line name content with
    | ⟨calls, .error e⟩ => ⟨calls, .error e⟩
    | ⟨calls, .ok diff⟩ => ⟨calls, .ok (.diff name render diff)⟩
  | kind, form => .pure (.error (.unsupported target.line kind.keyword form))

/-- Elements cut at the first one that starts on a line: those before it, it, and those after. -/
def split (line : Nat) : List Element → Option (List Element × Element × List Element)
  | [] => none
  | element :: rest =>
    if element.line = line then
      some ([], element, rest)
    else
      (split line rest).map fun (before, target, after) => (element :: before, target, after)

/-- The elements with the one that starts on a line in the other form. -/
def elements (tools : Tools) (history : List Call) (es : List Element) (line : Nat) (form : Form) :
    Traced ConversionError (List Element) :=
  match split line es with
  | none => .pure (.error (.noElement line))
  | some (before, target, after) =>
    match kind tools history before target form with
    | ⟨calls, .error e⟩ => ⟨calls, .error e⟩
    | ⟨calls, .ok kind⟩ => ⟨calls, .ok (before ++ { target with kind } :: after)⟩

/-- The document with the block that starts on a line in the other form. -/
def document (tools : Tools) (history : List Call) (source : Text) (line : Nat) (form : Form) :
    Traced ConversionError Text :=
  match Element.load source with
  | .error e => .pure (.error (.document (.format e)))
  | .ok es =>
    match elements tools history es line form with
    | ⟨calls, .error e⟩ => ⟨calls, .error e⟩
    | ⟨calls, .ok converted⟩ =>
      match converted.find? fun element => element.line = line with
      | some element => ⟨calls, .ok (element.splice source)⟩
      | none => ⟨calls, .error (.noElement line)⟩

end Conversion

end Literate
