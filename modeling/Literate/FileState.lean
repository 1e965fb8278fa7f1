import Literate.Text.Octets

/-!
# Files

What may stand at a path, and the system's words for what keeps a file from being read.
-/

namespace Literate

/-- What stands at a path. -/
inductive FileState where
  | missing
  | directory
  /-- Nothing can stand there, since the path leads through a file. -/
  | beneathFile
  | content (octets : Octets)
deriving DecidableEq, Repr

/-- The system's words for a path at which nothing stands. -/
def noSuchFile : Text := Text.ofString "No such file or directory (os error 2)"

/-- The system's words for a file that must not be used so. -/
def permissionDenied : Text := Text.ofString "Permission denied (os error 13)"

/-- The system's words for a path through a file. -/
def notADirectory : Text := Text.ofString "Not a directory (os error 20)"

/-- The system's words for a directory in place of a file. -/
def isADirectory : Text := Text.ofString "Is a directory (os error 21)"

/-- The words for a file whose octets are no text. -/
def notUtf8 : Text := Text.ofString "stream did not contain valid UTF-8"

/-- The text of a file, or the system's words for why there is none. -/
def FileState.read : FileState → Except Text Text
  | missing => .error noSuchFile
  | directory => .error isADirectory
  | beneathFile => .error notADirectory
  | content octets =>
    match octets.decode? with
    | some t => .ok t
    | none => .error notUtf8

end Literate
