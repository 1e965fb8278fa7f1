import Literate.Shell.Utility.Characters
import Literate.Shell.Utility.Lines
import Literate.Shell.Utility.Paths
import Literate.Shell.Utility.Printing
import Literate.Shell.Utility.Search
import Literate.Shell.Utility.StreamEditor

/-!
# The utilities by name

Every utility stands in `/bin` and in `/usr/bin`, next to the shell.
-/

namespace Literate.Shell.Utility

/-- The utilities by their names. -/
def table : List (String × Utility) :=
  [("[", test), ("basename", basename), ("cat", cat), ("cp", cp), ("cut", cut),
    ("dirname", dirname), ("echo", echo), ("expr", expr), ("false", fail), ("grep", grep),
    ("head", head),
    ("ls", ls), ("mkdir", mkdir), ("mv", mv), ("od", od), ("paste", paste), ("printenv", printenv),
    ("printf", printf true), ("pwd", pwd), ("rev", rev), ("rm", rm), ("rmdir", rmdir), ("sed", sed),
    ("seq", seq), ("sleep", sleep), ("sort", sort), ("tac", tac), ("tail", tail), ("tee", tee),
    ("test", test), ("touch", touch), ("tr", tr), ("true", succeed), ("uniq", uniq), ("wc", wc),
    ("yes", yes)]

/-- The utility of a name. -/
def ofName? (name : Octets) : Option Utility :=
  (table.find? fun entry => entry.1 == Text.toString name).map Prod.snd

end Utility

/-- A program that can be started. -/
inductive Program where
  | shell
  /-- Starts another program with variables set. -/
  | env
  /-- Starts another program with the words of its standard input as operands. -/
  | xargs
  | utility (run : Utility)

/-- The program of a name. -/
def Program.ofName? (name : Octets) : Option Program :=
  match Text.toString name with
  | "sh" => some .shell
  | "env" => some .env
  | "xargs" => some .xargs
  | _ => (Utility.ofName? name).map Program.utility

/-- Why a program cannot be started. -/
inductive StartFault where
  | missing
  | beneathFile
  /-- What stands there is no program. -/
  | denied
deriving DecidableEq, Repr

/-- The program that a command names: by its path if there is a slash in it, or else by its name. -/
def Program.find (files : FileTree) (directory : Path) (command : Octets) :
    Except StartFault Program :=
  let name :=
    if command.contains '/' then
      (Text.after? (Text.ofString "/bin/") command).orElse fun _ =>
        Text.after? (Text.ofString "/usr/bin/") command
    else some command
  match name.bind Program.ofName? with
  | some program => .ok program
  | none =>
    if command = ['.'] ∨ command = ['.', '.'] then .error .denied
    else if !command.contains '/' then .error .missing
    else
      match files.stateAt directory command with
      | .missing => .error .missing
      | .beneathFile => .error .beneathFile
      | .directory | .content _ => .error .denied

end Literate.Shell
