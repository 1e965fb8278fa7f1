import Literate.Text.Lines
import Literate.Text.Quoted
import Literate.Unicode.DecimalNumber
import Literate.Word

/-!
# Hunks of a unified diff

A unified diff is a list of hunks. A hunk states where its old side begins and lists lines: context,
which stands on both sides, removed lines and added lines. Header lines before the first hunk are
passed over, and so are lines that begin with a backslash. The lengths stated in a hunk's header are
not compared with its lines.
-/

namespace Literate

/-- A line of a hunk, without the character that says what it is. -/
inductive HunkLine where
  | context (text : Text)
  | removed (text : Text)
  | added (text : Text)
deriving DecidableEq, Repr

/-- A hunk; `oldStart` is the number, from one, of the first line of its old side as stated. -/
structure Hunk where
  oldStart : Nat
  lines : List HunkLine
deriving DecidableEq, Repr

/-- Why a patch cannot be read or applied. -/
inductive PatchError where
  | noHunks
  /-- A line, by its number and text, that has no place in a diff. -/
  | malformed (line : Nat) (text : Text)
  /-- A hunk, by its number and stated start, whose old side is not found. -/
  | mismatch (hunk oldStart : Nat) (expected : List Text)
deriving DecidableEq, Repr

/-- The message for a patch error. -/
def PatchError.message : PatchError → Text
  | noHunks => Text.ofString "patch contains no hunks"
  | malformed line text =>
    Text.ofString "malformed patch line " ++ Text.decimal line ++ Text.ofString ": " ++
      Text.quoted text
  | mismatch hunk oldStart expected =>
    Text.ofString "hunk " ++ Text.decimal hunk ++ Text.ofString " does not apply: expected " ++
      Text.quotedList expected ++ Text.ofString " near line " ++ Text.decimal oldStart

namespace HunkLine

/-- The line of the old side, if it stands there. -/
def old? : HunkLine → Option Text
  | context text => some text
  | removed text => some text
  | added _ => none

/-- The line of the new side, if it stands there. -/
def new? : HunkLine → Option Text
  | context text => some text
  | removed _ => none
  | added text => some text

end HunkLine

namespace Hunk

/-- The lines the hunk expects to find. -/
def oldLines (hunk : Hunk) : List Text :=
  hunk.lines.filterMap HunkLine.old?

/-- The lines the hunk puts in their place. -/
def newLines (hunk : Hunk) : List Text :=
  hunk.lines.filterMap HunkLine.new?

/-- The number of lines before the place the hunk states. With an empty old side the stated start is
the line to insert after, else it is the first line of the old side. -/
def position (hunk : Hunk) : Nat :=
  if hunk.oldLines = [] then hunk.oldStart else hunk.oldStart - 1

end Hunk

/-! ### Reading -/

/-- What a line of a diff is after the first hunk header, or `none` if it has no place there. -/
inductive DiffLine where
  | header (oldStart : Nat)
  | body (line : HunkLine)
  /-- A line that begins with a backslash. -/
  | remark
deriving DecidableEq, Repr

namespace Hunk

/-- The value of a text of ASCII decimal digits, at least one, if it is below 2^64. -/
def start? (digits : Text) : Option Nat :=
  if digits ≠ [] ∧ digits.all Char.isDigit then
    let value := digits.foldl (fun n d => 10 * n + (d.toNat - '0'.toNat)) 0
    if value < wordBound then some value else none
  else
    none

/-- A run of decimal digits of any script, at least one, and what follows it. -/
def number? (t : Text) : Option (Text × Text) :=
  match t.takeWhile Unicode.isDecimalNumber with
  | [] => none
  | digits => some (digits, t.dropWhile Unicode.isDecimalNumber)

/-- What follows a comma and a number, or the text itself if it does not begin so. -/
def afterLength (t : Text) : Text :=
  match t with
  | ',' :: rest =>
    match number? rest with
    | some (_, rest) => rest
    | none => t
  | _ => t

/-- The start of the old side in a hunk header: two at signs, a minus sign and a range, a plus sign
and a range, two at signs, and whatever follows. A range is a number, and it may go on with a comma
and a length. -/
def headerStart? (line : Text) : Option Nat := do
  let rest ← Text.after? (Text.ofString "@@ -") line
  let (digits, rest) ← number? rest
  let rest ← Text.after? (Text.ofString " +") (afterLength rest)
  let (_, rest) ← number? rest
  let _ ← Text.after? (Text.ofString " @@") (afterLength rest)
  start? digits

end Hunk

/-- What a line of a diff is; an empty line is empty context. -/
def DiffLine.ofText? (line : Text) : Option DiffLine :=
  if Text.beginsWith (Text.ofString "@@") line then
    (Hunk.headerStart? line).map .header
  else
    match line with
    | [] => some (.body (.context []))
    | ' ' :: text => some (.body (.context text))
    | '-' :: text => some (.body (.removed text))
    | '+' :: text => some (.body (.added text))
    | '\\' :: _ => some .remark
    | _ => none

namespace Hunk

/-- The hunk with one more line in front. -/
def addFirst (line : HunkLine) (hunk : Hunk) : Hunk :=
  { hunk with lines := line :: hunk.lines }

/-- The hunks of the lines from number `number` on, where `oldStart` is that of the open hunk. -/
def ofBody (number oldStart : Nat) : List Text → Except PatchError (Hunk × List Hunk)
  | [] => .ok (⟨oldStart, []⟩, [])
  | line :: rest =>
    match DiffLine.ofText? line with
    | none => .error (.malformed number line)
    | some (.header next) =>
      match ofBody (number + 1) next rest with
      | .error e => .error e
      | .ok (hunk, hunks) => .ok (⟨oldStart, []⟩, hunk :: hunks)
    | some (.body hunkLine) =>
      match ofBody (number + 1) oldStart rest with
      | .error e => .error e
      | .ok (hunk, hunks) => .ok (hunk.addFirst hunkLine, hunks)
    | some .remark => ofBody (number + 1) oldStart rest

/-- Whether a line before the first hunk may be passed over. -/
def isFileHeader (line : Text) : Bool :=
  Text.beginsWith (Text.ofString "---") line || Text.beginsWith (Text.ofString "+++") line

/-- The hunks of the lines from number `number` on, where no hunk is open. -/
def ofLines (number : Nat) : List Text → Except PatchError (List Hunk)
  | [] => .error .noHunks
  | line :: rest =>
    if Text.beginsWith (Text.ofString "@@") line then
      match headerStart? line with
      | none => .error (.malformed number line)
      | some oldStart =>
        match ofBody (number + 1) oldStart rest with
        | .error e => .error e
        | .ok (hunk, hunks) => .ok (hunk :: hunks)
    else if isFileHeader line then
      ofLines (number + 1) rest
    else
      .error (.malformed number line)

/-- The hunks of a diff. -/
def parse (patch : Text) : Except PatchError (List Hunk) :=
  ofLines 1 (Text.lines patch)

/-- The texts of the lines a diff adds, read without regard to whether it is well formed: from the
first line that begins with two at signs on, the lines that begin with a plus sign. -/
def addedLines (patch : Text) : List Text :=
  ((Text.lines patch).dropWhile fun line => !Text.beginsWith (Text.ofString "@@") line).filterMap
    (Text.after? ['+'])

end Hunk

end Literate
