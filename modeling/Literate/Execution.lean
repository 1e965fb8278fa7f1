import Literate.Compile.Run
import Literate.Config.Basic
import Literate.Text.Octets

/-!
# Running code with interpreters

Each language has an interpreter, a program that is started for every run. It gets the code on its
standard input, or in a file when one of its arguments names the file's path.

What a started program does is up to the system, which is a parameter here. A run gives what the
program wrote to its standard output and then what it wrote to its standard error, provided that it
has ended and both are closed before the time limit.
-/

namespace Literate

/-- The program that runs the code of a language. `extension` is that of the file which holds the
code, for arguments that name it. -/
structure Interpreter where
  program : Text
  arguments : List Text
  extension : Option Text
deriving DecidableEq, Repr

/-- A program to be started, with its standard input, and a file that is there while it runs. -/
structure Launch where
  program : Text
  arguments : List Text
  input : Octets
  file : Option (Text × Octets)
deriving DecidableEq, Repr

/-- What a program leaves behind. `ended` is the time from its start until it has ended and nothing
can write to its outputs any more; there is none if that never happens. -/
structure Outcome where
  ended : Option Duration
  output : Octets
  errors : Octets
deriving DecidableEq, Repr

/-- What comes of a launch, or the system's words for why nothing is started. -/
abbrev System := Launch → Except Text Outcome

/-- The piece of an argument that stands for the path of the file with the code. -/
def placeholder : Text := Text.ofString "\x7bpath\x7d"

/-- The path of the file with the code. -/
def codePath (extension : Option Text) : Text :=
  Text.ofString "/tmp/diffdoc-k3Wq9Z" ++
    match extension with
    | some e => '.' :: e
    | none => []

namespace Interpreter

/-- The interpreter with the given command line; an empty one is none. -/
def ofCommand (command : List Text) (extension : Option Text) : Option Interpreter :=
  match command with
  | [] => none
  | program :: arguments => some ⟨program, arguments, extension⟩

/-- Whether an argument names the file with the code. -/
def namesFile (i : Interpreter) : Bool :=
  i.arguments.any (Text.occurs placeholder)

/-- How code is run. -/
def launch (i : Interpreter) (code : Text) : Launch :=
  if i.namesFile then
    let path := codePath i.extension
    { program := i.program
      arguments := i.arguments.map (Text.replaceAll placeholder path)
      input := []
      file := some (path, Octets.encode code) }
  else
    { program := i.program, arguments := i.arguments, input := Octets.encode code, file := none }

end Interpreter

/-- Interpreters by their languages; of two for the same language the later one counts. -/
abbrev Interpreters := List (Text × Interpreter)

namespace Interpreters

/-- The interpreters of languages; an empty command adds none. -/
def ofLanguages (languages : List (Text × Language)) : Interpreters :=
  languages.filterMap fun (name, l) =>
    (Interpreter.ofCommand l.command l.extension).map fun i => (name, i)

/-- The interpreter of a language. -/
def get? (interpreters : Interpreters) (language : Text) : Option Interpreter :=
  (interpreters.reverse.find? fun entry => entry.1 == language).map Prod.snd

/-- The text that a program gives within a time limit. -/
def collect (program : Text) (limit : Duration) (outcome : Outcome) : Except RunError Text :=
  if outcome.ended.any fun ended => ended.nanoseconds < limit.nanoseconds then
    .ok (outcome.output.decodeLossy ++ outcome.errors.decodeLossy)
  else
    .error (.timeout program limit)

/-- Runs code with the interpreter of its language. -/
def run (interpreters : Interpreters) (system : System) (limit : Duration) : Runner :=
  fun _ call =>
    match interpreters.get? call.language with
    | none => .error (.unknownLanguage call.language)
    | some i =>
      match system (i.launch call.code) with
      | .error cause => .error (.failed i.program cause)
      | .ok outcome => collect i.program limit outcome

end Interpreters

end Literate
