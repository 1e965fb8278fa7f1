import Literate.Compile.Step
import Literate.Document.Reader

/-!
# Compiling a document

The elements are carried out in order, from a registry without snippets, until the last one or the
first one that fails.
-/

namespace Literate

/-- Why a document is refused. -/
inductive DocumentError where
  | format (error : FormatError)
  | compile (error : CompileError)
deriving DecidableEq, Repr

/-- The message for a refused document. -/
def DocumentError.message : DocumentError → Text
  | format error => error.message
  | compile error => error.message

namespace Compile

/-- The elements carried out in order on a registry: what the reader gets to see of each, and the
registry at the end. -/
def runFrom (tools : Tools) (history : List Call) (r : Registry) :
    List Element → Traced CompileError (Registry × List Rendered)
  | [] => .pure (.ok (r, []))
  | element :: rest =>
    match element.execute tools history r with
    | ⟨calls, .error e⟩ => ⟨calls, .error e⟩
    | ⟨calls, .ok (r, rendered)⟩ =>
      match runFrom tools (history ++ calls) r rest with
      | ⟨later, .error e⟩ => ⟨calls ++ later, .error e⟩
      | ⟨later, .ok (r, renderings)⟩ => ⟨calls ++ later, .ok (r, rendered :: renderings)⟩

/-- The registry after the elements have been carried out. -/
def replay (tools : Tools) (history : List Call) (elements : List Element) :
    Traced CompileError Registry :=
  match runFrom tools history .empty elements with
  | ⟨calls, .error e⟩ => ⟨calls, .error e⟩
  | ⟨calls, .ok (r, _)⟩ => ⟨calls, .ok r⟩

/-- What the reader gets to see of the elements. -/
def elements (tools : Tools) (history : List Call) (es : List Element) :
    Traced CompileError (List Rendered) :=
  match runFrom tools history .empty es with
  | ⟨calls, .error e⟩ => ⟨calls, .error e⟩
  | ⟨calls, .ok (_, renderings)⟩ => ⟨calls, .ok renderings⟩

/-- The text that the reader gets for a document. -/
def document (tools : Tools) (history : List Call) (source : Text) : Traced DocumentError Text :=
  match Element.load source with
  | .error e => .pure (.error (.format e))
  | .ok es =>
    match elements tools history es with
    | ⟨calls, .error e⟩ => ⟨calls, .error (.compile e)⟩
    | ⟨calls, .ok renderings⟩ => ⟨calls, .ok (Rendered.document renderings)⟩

end Compile

end Literate
