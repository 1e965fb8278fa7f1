import Literate.Document.Element
import Literate.Document.Parse

/-!
# Elements from nodes

A block is read by its keyword: each kind has its own options, all of them required and no other
allowed. Faults are reported in the order arguments, keyword, options of the kind, other options.
-/

namespace Literate

/-- The options of a block that have not been read yet. -/
abbrev Options := List (Text × Text)

namespace Options

/-- The value of an option, and the options without it. -/
def take (key : Text) (options : Options) : Except FormatFault (Text × Options) :=
  match options.find? fun option => option.1 == key with
  | some (_, value) => .ok (value, options.filter fun option => option.1 != key)
  | none => .error (.missingOption key)

/-- The value of the option `render`, and the other options. -/
def takeRender (options : Options) : Except FormatFault (Bool × Options) :=
  match options.take (Text.ofString "render") with
  | .error fault => .error fault
  | .ok (value, rest) =>
    if value = Text.ofString "True" then .ok (true, rest)
    else if value = Text.ofString "False" then .ok (false, rest)
    else .error (.renderValue value)

/-- Refuses options that are left over. -/
def finish {α : Type} (result : α) : Options → Except FormatFault α
  | [] => .ok result
  | options => .error (.extraOptions options)

end Options

namespace Block

/-- The kind with the option `render` alone. -/
def readRendered (options : Options) (kind : Bool → ElementKind) :
    Except FormatFault ElementKind := do
  let (render, rest) ← options.takeRender
  rest.finish (kind render)

/-- What a block does. -/
def read (block : Block) : Except FormatFault ElementKind :=
  match block.arguments with
  | [keyword, name] =>
    if keyword = Text.ofString "start" then do
      let (language, options) ← Options.take (Text.ofString "language") block.options
      readRendered options (.start name language · block.content)
    else if keyword = Text.ofString "replace" then
      readRendered block.options (.replace name · block.content)
    else if keyword = Text.ofString "diff" then
      readRendered block.options (.diff name · block.content)
    else if keyword = Text.ofString "output" then
      readRendered block.options (.output name · block.content)
    else if keyword = Text.ofString "render" then
      Options.finish (.excerpt name block.content) block.options
    else
      .error (.unknownKind keyword)
  | arguments => .error (.unexpectedArguments arguments)

end Block

namespace Element

/-- The element that a node stands for. -/
def ofNode (node : Node) : Except FormatError Element :=
  match node.kind with
  | .prose text => .ok ⟨node.line, node.span, .prose text⟩
  | .block block =>
    match block.read with
    | .ok kind => .ok ⟨node.line, node.span, kind⟩
    | .error fault => .error ⟨node.line, fault⟩

/-- The elements that nodes stand for; the first node that cannot be read is the error. -/
def ofNodes : List Node → Except FormatError (List Element)
  | [] => .ok []
  | node :: rest =>
    match ofNode node with
    | .error e => .error e
    | .ok element =>
      match ofNodes rest with
      | .error e => .error e
      | .ok elements => .ok (element :: elements)

/-- The elements of a document. A fault in the lines is reported before one in the blocks. -/
def load (source : Text) : Except FormatError (List Element) :=
  match Node.parse source with
  | .error e => .error e
  | .ok nodes => ofNodes nodes

end Element

end Literate
