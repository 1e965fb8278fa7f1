import Literate.Patch.Hunk

/-!
# Applying a diff

The hunks are placed one after the other, none before the end of the one before it. A hunk belongs
where it says; if its old side does not stand there, it goes to the nearest place where it does, of
two at the same distance the later. A hunk with an empty old side goes only where it says.

Places are numbers without a bound here. A program that keeps them in words of 64 bits breaks off
where a stated start is so close to 2^64 that the start and the number of lines do not fit a word
together.
-/

namespace Literate

namespace Hunk

/-- Whether the lines `expected` stand in `old` at `position`, which is not before `cursor`. -/
def matchesAt (old expected : List Text) (cursor position : Nat) : Bool :=
  cursor ≤ position && position + expected.length ≤ old.length &&
    (old.drop position).take expected.length == expected

/-- The first distance from `distance` on, of the `count` to be tried, at which the old side is
found: after the stated place or else before it. The sum `stated + distance` may exceed 2^64. -/
def search (fits : Nat → Bool) (stated : Nat) : Nat → Nat → Option Nat
  | _, 0 => none
  | distance, count + 1 =>
    if fits (stated + distance) then
      some (stated + distance)
    else if distance ≤ stated && fits (stated - distance) then
      some (stated - distance)
    else
      search fits stated (distance + 1) count

/-- Where the hunk goes in `old`, at or after `cursor`. The stated start is below 2^64, but not what
is added to it: this gives an answer where words of 64 bits overflow. -/
def locate (hunk : Hunk) (old : List Text) (cursor : Nat) : Option Nat :=
  let fits := matchesAt old hunk.oldLines cursor
  if fits hunk.position then
    some hunk.position
  else if hunk.oldLines = [] then
    none
  else
    search fits hunk.position 1 old.length

/-- The lines of `old` from `cursor` on with the hunks applied; `number` is that of the first. -/
def applyFrom (old : List Text) : Nat → Nat → List Hunk → Except PatchError (List Text)
  | _, cursor, [] => .ok (old.drop cursor)
  | number, cursor, hunk :: rest =>
    match hunk.locate old cursor with
    | none => .error (.mismatch number hunk.oldStart hunk.oldLines)
    | some position =>
      match applyFrom old (number + 1) (position + hunk.oldLines.length) rest with
      | .error e => .error e
      | .ok later =>
        .ok ((old.drop cursor).take (position - cursor) ++ hunk.newLines ++ later)

end Hunk

namespace Patch

/-- Lines as a text. A text that is not empty ends in an LF if the one it comes from does or was
empty. -/
def assemble (old : Text) (lines : List Text) : Text :=
  let joined := Text.join ['\n'] lines
  if joined ≠ [] ∧ (old = [] ∨ Text.endsWithNewline old) then joined ++ ['\n'] else joined

/-- The text with a diff applied. -/
def apply (old patch : Text) : Except PatchError Text :=
  match Hunk.parse patch with
  | .error e => .error e
  | .ok hunks =>
    match Hunk.applyFrom (Text.lines old) 1 0 hunks with
    | .error e => .error e
    | .ok lines => .ok (assemble old lines)

end Patch

end Literate
