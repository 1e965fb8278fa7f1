import Literate.Compile.Run
import Literate.Document.FormatError
import Literate.Patch.Hunk

/-!
# Compile errors

Why an element cannot be carried out, and the line on which it starts.
-/

namespace Literate

/-- What a snippet with pending lines does not allow. -/
inductive Operation where
  | replace
  | applyDiff
  | renderOutput
deriving DecidableEq, Repr

/-- Why an element cannot be carried out. -/
inductive CompileFault where
  | unknownName
  | duplicateName
  | pendingLines (operation : Operation) (pending : List Text)
  | patch (cause : PatchError)
  /-- A line to be shown that the snippet does not have. -/
  | unknownLine (text : Text)
  | outputMismatch (expected actual : Text)
  | run (cause : RunError)
deriving DecidableEq, Repr

/-- A fault of an element about the snippet `name`, and the number of the element's first line. -/
structure CompileError where
  line : Nat
  name : Text
  fault : CompileFault
deriving DecidableEq, Repr

/-- The words for an operation. -/
def Operation.phrase : Operation → Text
  | replace => Text.ofString "replace"
  | applyDiff => Text.ofString "apply diff"
  | renderOutput => Text.ofString "render output"

/-- The words for a fault of an element about the snippet `name`. -/
def CompileFault.message (name : Text) : CompileFault → Text
  | unknownName => Text.ofString "unknown snippet " ++ Text.quoted name
  | duplicateName =>
    Text.ofString "snippet " ++ Text.quoted name ++ Text.ofString " is already defined"
  | pendingLines operation pending =>
    Text.ofString "cannot " ++ operation.phrase ++ Text.ofString " for snippet " ++
      Text.quoted name ++ Text.ofString " with pending lines:\n" ++
      Text.join ['\n'] (pending.map (Text.ofString "    " ++ ·))
  | patch cause =>
    Text.ofString "diff for snippet " ++ Text.quoted name ++ Text.ofString " does not apply: " ++
      cause.message
  | unknownLine text =>
    Text.ofString "rendered line " ++ Text.quoted text ++
      Text.ofString " is not part of snippet " ++ Text.quoted name
  | outputMismatch expected actual =>
    Text.ofString "output of snippet " ++ Text.quoted name ++
      Text.ofString " does not match\nexpected:\n" ++ expected ++ Text.ofString "\nactual:\n" ++
      actual
  | run cause =>
    Text.ofString "failed to run snippet " ++ Text.quoted name ++ Text.ofString ": " ++
      cause.message

/-- The message for an element that cannot be carried out. -/
def CompileError.message (e : CompileError) : Text :=
  atLine e.line (e.fault.message e.name)

end Literate
