import Literate.Text.Lines

/-!
# Conventions of the markup

What a single line says on its own: whether it opens a block, is blank or is indented, and, for a
line inside a block, its text without the indentation and the option it sets.
-/

namespace Literate.Convention

/-- A line that begins with this opens a block. -/
def marker : Text :=
  Text.ofString ".. diff-doc::"

/-- One step of indentation. -/
def indent : Text :=
  Text.ofString "    "

/-- The words after the marker, if the line opens a block. -/
def arguments? (line : Text) : Option (List Text) :=
  (Text.after? marker line).map Text.words

/-- Whether the line begins with one step of indentation. -/
def isIndented (line : Text) : Bool :=
  Text.beginsWith indent line

/-- The line without one step of indentation; of a blank line only its terminator is left. -/
def unindent (line : Text) : Text :=
  if Text.isBlank line then
    Text.lineEnd line
  else
    (Text.after? indent line).getD line

/-- A character of an option's key. -/
def isKeyChar (c : Char) : Bool :=
  c ≠ ':' && !Unicode.isWhiteSpace c

/-- A character that separates an option's value from its key. -/
def isGap (c : Char) : Bool :=
  c = ' ' || c = '\t'

/-- The key and the value set by an option line, which is a colon, a key, a colon, a gap of spaces
and tabs and a value, all on one line. The value is trimmed and may be empty. -/
def option? (line : Text) : Option (Text × Text) :=
  match Text.dropLineEnd line with
  | ':' :: rest =>
    match rest.takeWhile isKeyChar, rest.dropWhile isKeyChar with
    | key@(_ :: _), ':' :: gap :: value =>
      if isGap gap && !value.contains '\n' then some (key, Text.trim value) else none
    | _, _ => none
  | _ => none

end Literate.Convention
