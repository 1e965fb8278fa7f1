import Literate.FileTree
import Literate.Text.Lines
import Literate.Text.Quoted

/-!
# Utilities

A utility is a program that the shell can start. It gets its operands and sees the files; one that
reads its standard input gets all of it. What it does is a value: what it writes, how it changes the
files, how long it takes, and the status it ends with.
-/

namespace Literate.Shell

/-- What a utility sees when it starts. -/
structure Setting where
  /-- The name it was called by. -/
  name : Octets
  directory : Path
  files : FileTree
  bindings : List (Octets × Octets)

/-- What a utility does. -/
structure Effect where
  output : Octets
  errors : Octets
  status : Nat
  files : FileTree
  /-- How long it takes, in nanoseconds. -/
  elapsed : Nat
  /-- It would go on writing without an end. -/
  endless : Bool

/-- A utility that has been started: it does something, or it reads its standard input first. -/
inductive Started where
  | done (effect : Effect)
  | reads (effect : Octets → Effect)

/-- A utility, by its operands. -/
abbrev Utility := Setting → List Octets → Started

/-- The octets of which an endless file gives no more. -/
def endlessLength : Nat := 262144

/-- What a file that never ends has to give. -/
def endlessZeros : Octets := List.replicate endlessLength '\x00'

namespace Setting

/-- Writes octets and ends with success. -/
def writing (s : Setting) (output : Octets) : Effect :=
  ⟨output, [], 0, s.files, 0, false⟩

/-- Does nothing and ends with a status. -/
def ending (s : Setting) (status : Nat) : Effect :=
  ⟨[], [], status, s.files, 0, false⟩

/-- A complaint under the name of the utility. -/
def complaint (s : Setting) (message : Octets) : Octets :=
  s.name ++ Text.ofString ": " ++ message ++ ['\n']

/-- Complains and ends with a status. -/
def failing (s : Setting) (status : Nat) (message : Octets) : Effect :=
  { s.ending status with errors := s.complaint message }

/-- Complains about how it was called, points to its help, and ends with a status. -/
def misused (s : Setting) (status : Nat) (message : Octets) : Effect :=
  let hint := Text.ofString "Try '" ++ s.name ++ Text.ofString " --help' for more information.\n"
  { s.ending status with errors := s.complaint message ++ hint }

/-- The words for what keeps a file from being read. -/
def faultWords : FileState → Octets
  | .directory => Text.ofString "Is a directory"
  | .beneathFile => Text.ofString "Not a directory"
  | .missing | .content _ => Text.ofString "No such file or directory"

/-- The octets of a file; the null device is empty and the zero device never ends. -/
def read (s : Setting) (path : Octets) : Except Octets Octets :=
  if path = Text.ofString "/dev/null" then .ok []
  else if path = Text.ofString "/dev/zero" then .ok endlessZeros
  else
    match s.files.stateAt s.directory path with
    | .content octets => .ok octets
    | fault => .error (faultWords fault)

end Setting

/-! ### Operands -/

/-- The options that operands begin with, each with its value, and the operands after them. An
option whose letter is in `valued` has a value: the rest of its operand, or else the next operand.
Letters that are in neither list end the options with a fault. At most `count` letters are read. -/
def optionsFrom (valued plain : List Char) : (count : Nat) → List Octets →
    Except Char (List (Char × Octets) × List Octets)
  | 0, operands => .ok ([], operands)
  | count + 1, operands =>
    match operands with
    | ['-', '-'] :: rest => .ok ([], rest)
    | ('-' :: c :: letters) :: rest =>
      if valued.contains c then
        match letters, rest with
        | [], value :: rest =>
          (optionsFrom valued plain count rest).map fun (o, r) => ((c, value) :: o, r)
        | [], [] => .error c
        | _, _ => (optionsFrom valued plain count rest).map fun (o, r) => ((c, letters) :: o, r)
      else if plain.contains c then
        let rest := if letters = [] then rest else ('-' :: letters) :: rest
        (optionsFrom valued plain count rest).map fun (o, r) => ((c, []) :: o, r)
      else
        .error c
    | _ => .ok ([], operands)

/-- The options that operands begin with, and the operands after them. -/
def options (valued plain : String) (operands : List Octets) :
    Except Char (List (Char × Octets) × List Octets) :=
  optionsFrom valued.toList plain.toList (operands.flatten.length + 1) operands

/-- The value of the last option of a letter. -/
def option? (given : List (Char × Octets)) (letter : Char) : Option Octets :=
  (given.reverse.find? fun o => o.1 == letter).map Prod.snd

/-- Whether an option of a letter is given. -/
def hasOption (given : List (Char × Octets)) (letter : Char) : Bool :=
  (option? given letter).isSome

/-- The words about an option that a utility does not have. -/
def Setting.badOption (s : Setting) (letter : Char) : Started :=
  .done (s.misused 1 (Text.ofString "invalid option -- '" ++ [letter, '\'']))

/-- A number of decimal digits. -/
def natural? (t : Octets) : Option Nat :=
  if t ≠ [] ∧ t.all Char.isDigit then
    some (t.foldl (fun n d => 10 * n + (d.toNat - '0'.toNat)) 0)
  else
    none

/-! ### Inputs -/

/-- What stands at the paths of operands, `-` for the standard input. -/
def Setting.inputs (s : Setting) (operands : List Octets) (standard : Octets) :
    List (Octets × Except Octets Octets) :=
  operands.map fun path => (path, if path = ['-'] then .ok standard else s.read path)

/-- Reads what operands name, or the standard input if there are none, and goes on with it. -/
def Setting.reading (s : Setting) (operands : List Octets)
    (effect : List (Octets × Except Octets Octets) → Effect) : Started :=
  let operands := if operands = [] then [['-']] else operands
  if operands.contains ['-'] then
    .reads fun standard => effect (s.inputs operands standard)
  else
    .done (effect (s.inputs operands []))

/-- How a utility complains about a file that cannot be read: the words before its path and after
it, and the status that the utility ends with. -/
structure ReadComplaint where
  before : String
  after : String
  status : Nat

/-- The complaint that names nothing but the path. -/
def ReadComplaint.plain : ReadComplaint := ⟨"", "", 1⟩

/-- The complaints about the inputs that cannot be read. -/
def Setting.readFaults (s : Setting) (c : ReadComplaint)
    (inputs : List (Octets × Except Octets Octets)) : List Octets :=
  inputs.filterMap fun input => match input.2 with
    | .ok _ => none
    | .error words =>
      some (s.complaint (Text.ofString c.before ++ input.1 ++ Text.ofString c.after ++
        Text.ofString ": " ++ words))

/-- Writes what `render` makes of the inputs put together, and complains about those that cannot be
read. -/
def Setting.filtering (s : Setting) (operands : List Octets) (c : ReadComplaint)
    (render : Octets → Octets) : Started :=
  s.reading operands fun inputs =>
    let faults := s.readFaults c inputs
    { s.writing (render (inputs.filterMap fun input => input.2.toOption).flatten) with
      errors := faults.flatten
      status := if faults = [] then 0 else c.status
      endless := operands.contains (Text.ofString "/dev/zero") }

/-- The lines of octets without their ends. -/
def lineBodies (t : Octets) : List Octets :=
  (Text.cutLines t).map fun line => if line.getLast? = some '\n' then line.dropLast else line

/-- Lines, each with its end. -/
def unlines (lines : List Octets) : Octets :=
  lines.flatMap (· ++ ['\n'])

end Literate.Shell
