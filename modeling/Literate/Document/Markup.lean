import Literate.Document.Element
import Literate.Source.Convention

/-!
# Elements as markup

Every element has one written form: the marker, the keyword and the name, the options in a fixed
order, and, after an empty line, the content one step further in. A blank line of the content is
written as an empty line, and a content that does not end in an LF gets one.
-/

namespace Literate

/-- A truth value as an option has it. -/
def renderValue (render : Bool) : Text :=
  if render then Text.ofString "True" else Text.ofString "False"

/-- An option on a line of its own. -/
def optionMarkup (key value : Text) : Text :=
  Convention.indent ++ [':'] ++ key ++ Text.ofString ": " ++ value ++ ['\n']

/-- A line of content one step further in. -/
def contentLine (line : Text) : Text :=
  if Text.isBlank line then ['\n'] else Convention.indent ++ line

/-- The content of a block after the empty line before it; nothing if there is no content. -/
def contentMarkup (content : Text) : Text :=
  if content = [] then
    []
  else
    let body := (content.cutLines.map contentLine).flatten
    ['\n'] ++ body ++ (if Text.endsWithNewline body then [] else ['\n'])

/-- A block as it is written. -/
def blockMarkup (keyword name : Text) (options : List (Text × Text)) (content : Text) : Text :=
  Convention.marker ++ [' '] ++ keyword ++ [' '] ++ name ++ ['\n'] ++
    (options.map fun option => optionMarkup option.1 option.2).flatten ++ contentMarkup content

namespace ElementKind

/-- The options of an element, in the order in which they are written. -/
def options : ElementKind → List (Text × Text)
  | prose _ => []
  | start _ language render _ =>
    [(Text.ofString "language", language), (Text.ofString "render", renderValue render)]
  | replace _ render _ => [(Text.ofString "render", renderValue render)]
  | diff _ render _ => [(Text.ofString "render", renderValue render)]
  | excerpt .. => []
  | output _ render _ => [(Text.ofString "render", renderValue render)]

/-- An element as it is written. -/
def markup (kind : ElementKind) : Text :=
  match kind with
  | prose text => text
  | start name _ _ content
  | replace name _ content
  | diff name _ content
  | excerpt name content
  | output name _ content => blockMarkup kind.keyword name kind.options content

end ElementKind

namespace Element

/-- An element as it is written. -/
def markup (element : Element) : Text :=
  element.kind.markup

/-- The source with the bytes of an element replaced by its written form. -/
def splice (element : Element) (source : Text) : Text :=
  source.takeBytes element.span.start ++ element.markup ++ source.dropBytes element.span.stop

end Element

end Literate
