import Literate.Source.Convention

/-!
# Rendered elements

What an element looks like to the reader: prose as it is, code under the directive that names its
language, other content as a literal block, or nothing. The content of a block stands one step
further in, without the white space at the ends of its lines.
-/

namespace Literate

/-- What the reader gets to see of an element. -/
inductive Rendered where
  | prose (text : Text)
  | code (language content : Text)
  | literal (content : Text)
  | nothing
deriving DecidableEq, Repr

namespace Rendered

/-- An empty line and the content one step further in. -/
def indented (content : Text) : Text :=
  let moved := Text.replaceAll ['\n'] ('\n' :: Convention.indent) ('\n' :: content)
  Text.join ['\n'] ((Text.lines moved).map Text.trimEnd)

/-- The text of a rendered element. -/
def text : Rendered → Text
  | prose text => text
  | code language content =>
    Text.ofString ".. code-block:: " ++ language ++ ['\n'] ++ indented content
  | literal content => Text.ofString "::\n" ++ indented content
  | nothing => []

/-- The text of a rendered document. -/
def document (elements : List Rendered) : Text :=
  (elements.map text).flatten

end Rendered

end Literate
