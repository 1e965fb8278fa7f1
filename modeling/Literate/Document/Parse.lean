import Literate.Document.FormatError
import Literate.Document.Node
import Literate.Source.Convention

/-!
# Nodes from lines

One pass over the lines of a document. Outside a block every line is prose or opens a block. After
the marker come the options, one indented line each; the first blank line ends them. After that come
the indented lines of the content. A blank line there is held back until an indented line shows that
it stood inside the block; if none comes, it is prose after the block. Any other line closes the
block.
-/

namespace Literate

/-- A block whose end has not been seen. -/
structure OpenBlock where
  line : Nat
  span : Span
  arguments : List Text
  options : List (Text × Text)
  content : Text
deriving DecidableEq, Repr

namespace OpenBlock

/-- The block opened by a line with the given words after its marker. -/
def ofMarker (line : SourceLine) (arguments : List Text) : OpenBlock :=
  ⟨line.number, line.span, arguments, [], []⟩

/-- The finished block. -/
def node (block : OpenBlock) : Node :=
  ⟨block.line, block.span, .block ⟨block.arguments, block.options, block.content⟩⟩

/-- The block with the option that a line sets. -/
def readOption (block : OpenBlock) (line : SourceLine) : Except FormatError OpenBlock :=
  match Convention.option? (Convention.unindent line.text) with
  | none => .error ⟨line.number, .malformedOption (Text.trim line.text)⟩
  | some (key, value) =>
    if block.options.any fun option => option.1 == key then
      .error ⟨line.number, .duplicateOption key⟩
    else
      .ok { block with
        options := block.options ++ [(key, value)]
        span := block.span.cover line.span }

/-- The block with a line of content after the blank lines held back before it. -/
def addContent (block : OpenBlock) (held : List SourceLine) (line : SourceLine) : OpenBlock :=
  { block with
    content := block.content ++ (held.map fun blank => Convention.unindent blank.text).flatten ++
      Convention.unindent line.text
    span := block.span.cover line.span }

end OpenBlock

/-- Where a reader stands between two lines. -/
inductive Reading where
  /-- Outside every block. -/
  | outside
  /-- After the marker or an option. -/
  | options (block : OpenBlock)
  /-- After the options and a blank line; `started` once there has been content. -/
  | content (block : OpenBlock) (started : Bool) (held : List SourceLine)
deriving DecidableEq, Repr

namespace Reading

/-- A line that stands outside every block. -/
def outsideStep (line : SourceLine) : List Node × Reading :=
  match Convention.arguments? line.text with
  | some arguments => ([], .options (.ofMarker line arguments))
  | none => ([.ofLine line], .outside)

/-- The block, if one is open, and then the lines held back, as nodes. -/
def finish : Reading → List Node
  | outside => []
  | options block => [block.node]
  | content block _ held => block.node :: held.map .ofLine

/-- The nodes that `line` completes, and where the reader stands after it. -/
def step : Reading → SourceLine → Except FormatError (List Node × Reading)
  | outside, line => .ok (outsideStep line)
  | options block, line =>
    if Text.isBlank line.text then
      .ok ([], content block false [line])
    else if Convention.isIndented line.text then
      match block.readOption line with
      | .ok block => .ok ([], options block)
      | .error e => .error e
    else
      let (nodes, next) := outsideStep line
      .ok ((options block).finish ++ nodes, next)
  | content block started held, line =>
    if Text.isBlank line.text then
      .ok ([], content block started (held ++ [line]))
    else if Convention.isIndented line.text then
      .ok ([], content (block.addContent (if started then held else []) line) true [])
    else
      let (nodes, next) := outsideStep line
      .ok ((content block started held).finish ++ nodes, next)

/-- The nodes of the remaining lines. -/
def nodes : Reading → List SourceLine → Except FormatError (List Node)
  | reading, [] => .ok reading.finish
  | reading, line :: rest =>
    match reading.step line with
    | .error e => .error e
    | .ok (done, next) =>
      match nodes next rest with
      | .error e => .error e
      | .ok later => .ok (done ++ later)

end Reading

/-- The nodes of a document. -/
def Node.parse (source : Text) : Except FormatError (List Node) :=
  Reading.outside.nodes (SourceLine.ofText source)

end Literate
