import Literate.CommandLine.Run
import Literate.Shell.System

/-!
# The program

Reads the files that the arguments name, runs, and shows the report. Snippets run on the system with
a shell of this library, so they see no file of the machine and change none.
-/

namespace Literate.Main

open CommandLine

/-- What stands at a path of the machine. -/
def fileState (path : Text) : IO FileState := do
  try
    let bytes ← IO.FS.readBinFile path.toString
    return .content (bytes.toList.map fun b => Char.ofNat b.toNat)
  catch e =>
    match e with
    | .inappropriateType _ code _ =>
      -- The code may come with its sign changed; 20 says that a file is on the way.
      if code = 20 ∨ 0 - code = 20 then return .beneathFile else return .directory
    | _ => return .missing

/-- The paths that an invocation reads. -/
def pathsRead (environment : Environment) : Invocation → List Text
  | .carryOut task config =>
    let document := match task with
      | .compile path | .convert path .. => path
    [config.getD (Config.standardPath environment), document]
  | .version | .help | .refused => []

/-- How snippets are run with a configuration. -/
def runner (home : Text) (config : Config) : Runner :=
  let bindings := [(Text.ofString "HOME", Octets.encode home)]
  let system := Shell.system .empty [Text.ofString "tmp"] bindings
  (Interpreters.ofLanguages config.languages).run system config.timeout

end Literate.Main

open Literate

/-- Compiles a document or converts a block of one. -/
def main (arguments : List String) : IO UInt32 := do
  let home := Text.ofString ((← IO.getEnv "HOME").getD "")
  let environment : Environment := [(Text.ofString "HOME", home)]
  let invocation := CommandLine.Invocation.ofArguments (arguments.map Text.ofString)
  let found ← (Main.pathsRead environment invocation).mapM fun path => do
    return (path, ← Main.fileState path)
  let files (path : Text) : FileState :=
    ((found.find? fun f => f.1 == path).map Prod.snd).getD .missing
  let report := invocation.run ⟨environment, files, Main.runner home⟩
  IO.print report.output.toString
  IO.eprint report.errors.toString
  match report.written with
  | none => pure ()
  | some (path, text) => IO.FS.writeFile path.toString text.toString
  return report.status.toUInt32
