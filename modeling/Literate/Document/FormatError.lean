import Literate.Text.Order
import Literate.Text.Quoted

/-!
# Malformed documents

What can be wrong with the lines of a block, where, and how a reader is told.
-/

namespace Literate

/-- A fault in the writing of a block. -/
inductive FormatFault where
  /-- A line among the options that does not set one. -/
  | malformedOption (line : Text)
  /-- An option set a second time. -/
  | duplicateOption (key : Text)
  /-- A marker not followed by a kind and a name. -/
  | unexpectedArguments (arguments : List Text)
  | missingOption (key : Text)
  /-- A value of the option `render` that is not a truth value. -/
  | renderValue (value : Text)
  /-- Options that the kind of block does not have. -/
  | extraOptions (options : List (Text × Text))
  | unknownKind (keyword : Text)
deriving DecidableEq, Repr

/-- A fault and the number of the line that shows it. -/
structure FormatError where
  line : Nat
  fault : FormatFault
deriving DecidableEq, Repr

/-- The words for a fault. -/
def FormatFault.message : FormatFault → Text
  | malformedOption line =>
    Text.ofString "malformed option line " ++ Text.quoted line ++
      Text.ofString ", expected `:key: value`"
  | duplicateOption key => Text.ofString "duplicate option " ++ Text.quoted key
  | unexpectedArguments arguments =>
    Text.ofString "expected block type and snippet name, got " ++ Text.quotedList arguments
  | missingOption key => Text.ofString "missing option " ++ Text.quoted key
  | renderValue value =>
    Text.ofString "render option must be True or False, got " ++ Text.quoted value
  | extraOptions options =>
    Text.ofString "extra options: " ++ Text.quotedTable (Text.sortByKey options)
  | unknownKind keyword => Text.ofString "unhandled element type " ++ Text.quoted keyword

/-- A message about line `line` of a document. -/
def atLine (line : Nat) (message : Text) : Text :=
  Text.ofString "line " ++ Text.decimal line ++ Text.ofString ": " ++ message

/-- The message for a malformed document. -/
def FormatError.message (e : FormatError) : Text :=
  atLine e.line e.fault.message

end Literate
