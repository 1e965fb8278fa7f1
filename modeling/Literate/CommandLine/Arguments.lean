import Literate.Conversion
import Literate.Word

/-!
# Arguments of the command line

The program compiles a document, or converts one block of it. Its arguments are read from left to
right, one at a time: options in front of the task, the name of the task, and options and the
document's path after it. `--` ends the options. The first argument that cannot be understood ends
the reading.
-/

namespace Literate.CommandLine

/-- What the program is asked to do with a document. -/
inductive Task where
  | compile (path : Text)
  /-- Converts the block that starts on `line`; with `write` the document is overwritten. -/
  | convert (path : Text) (line : Nat) (form : Form) (write : Bool)
deriving DecidableEq, Repr

/-- What the arguments ask for. -/
inductive Invocation where
  | carryOut (task : Task) (config : Option Text)
  | version
  | help
  | refused
deriving DecidableEq, Repr

/-- How far the arguments have been read: in front of the task, or after its name. A request for
help takes the place of a task. -/
inductive Level where
  | top
  | compile
  | convert
  | help
deriving DecidableEq, Repr

/-- An option. -/
inductive Key where
  | verbose
  | config
  | line
  | form
  | write
  | version
  | help
deriving DecidableEq, Repr

/-- Whether an option is followed by a value. -/
def Key.takesValue : Key → Bool
  | config | line | form => true
  | verbose | write | version | help => false

/-- The long names of the options at a level. -/
def Level.keys : Level → List (String × Key)
  | top => [("verbose", .verbose), ("config", .config), ("help", .help), ("version", .version)]
  | compile => [("verbose", .verbose), ("config", .config), ("help", .help)]
  | convert =>
    [("verbose", .verbose), ("config", .config), ("help", .help), ("line", .line), ("to", .form),
      ("write", .write)]
  | help => []

/-- The option of a letter at a level. -/
def Level.letter? (level : Level) (c : Char) : Option Key :=
  if c = 'v' then some .verbose
  else if c = 'h' then some .help
  else if c = 'V' ∧ level = .top then some .version
  else none

/-- What has been gathered from the arguments so far. `outer` is the configuration given in front of
the task, `config` the one given at the present level, and `pending` an option whose value comes
next. `path` is that of the document, or the word that help is asked about. -/
structure Gathered where
  level : Level
  pending : Option Key
  onlyWords : Bool
  outer : Option Text
  config : Option Text
  path : Option Text
  line : Option Nat
  form : Option Form
  write : Bool
deriving DecidableEq, Repr

/-- Nothing has been read. -/
def Gathered.empty : Gathered :=
  ⟨.top, none, false, none, none, none, none, none, false⟩

/-- A number below 2^64: decimal digits, with a plus sign in front or not. -/
def number? (t : Text) : Option Nat :=
  let digits : Text := match t with
    | '+' :: rest => rest
    | _ => t
  let n := digits.foldl (fun n d => 10 * n + (d.toNat - '0'.toNat)) 0
  if digits ≠ [] ∧ digits.all Char.isDigit ∧ n < wordBound then some n else none

namespace Gathered

/-- Takes the value of an option, which must not have one already. -/
def setValue (g : Gathered) (key : Key) (value : Text) : Except Invocation Gathered :=
  match key with
  | .config =>
    if g.config = none ∧ value ≠ [] then .ok { g with pending := none, config := some value }
    else .error .refused
  | .line =>
    match g.line, number? value with
    | none, some n => .ok { g with pending := none, line := some n }
    | _, _ => .error .refused
  | .form =>
    match g.form, Form.ofWord value with
    | none, .ok form => .ok { g with pending := none, form := some form }
    | _, _ => .error .refused
  | _ => .error .refused

/-- Takes an option without a value. -/
def setFlag (g : Gathered) : Key → Except Invocation Gathered
  | .verbose => .ok g
  | .write => if g.write then .error .refused else .ok { g with write := true }
  | .version => .error .version
  | .help => .error .help
  | .config | .line | .form => .error .refused

/-- Takes the letters after a dash. -/
def setLetters (g : Gathered) : Text → Except Invocation Gathered
  | [] => .ok g
  | c :: rest =>
    match g.level.letter? c with
    | none => .error .refused
    | some key =>
      match g.setFlag key with
      | .error answer => .error answer
      | .ok g => g.setLetters rest

/-- Takes an option by its long name, with the value after an equals sign if there is one. -/
def setLong (g : Gathered) (body : Text) : Except Invocation Gathered :=
  let name := Text.toString (body.takeWhile (· ≠ '='))
  match (g.level.keys.find? fun key => key.1 == name).map Prod.snd with
  | none => .error .refused
  | some key =>
    match body.dropWhile (· ≠ '=') with
    | _ :: value => g.setValue key value
    | [] => if key.takesValue then .ok { g with pending := some key } else g.setFlag key

/-- Takes an argument that is no option: the name of the task or the path of the document. -/
def setWord (g : Gathered) (word : Text) : Except Invocation Gathered :=
  match g.level with
  | .top =>
    let enter (level : Level) : Except Invocation Gathered :=
      .ok { empty with level, outer := g.config }
    if g.onlyWords then .error .refused
    else if word = Text.ofString "compile" then enter .compile
    else if word = Text.ofString "convert" then enter .convert
    else if word = Text.ofString "help" then .ok { empty with level := .help, onlyWords := true }
    else .error .refused
  | .help =>
    let topics := ["compile", "convert", "help"].map Text.ofString
    if g.path = none ∧ word ∈ topics then .ok { g with path := some word } else .error .refused
  | .compile | .convert =>
    if g.path = none ∧ word ≠ [] then .ok { g with path := some word } else .error .refused

/-- Takes the next argument. -/
def add (g : Gathered) (argument : Text) : Except Invocation Gathered :=
  match g.pending with
  | some key =>
    if Text.beginsWith ['-'] argument ∧ argument ≠ ['-'] then .error .refused
    else g.setValue key argument
  | none =>
    if g.onlyWords then g.setWord argument
    else
      match argument with
      | ['-', '-'] => .ok { g with onlyWords := true }
      | '-' :: '-' :: body => g.setLong body
      | '-' :: c :: letters => g.setLetters (c :: letters)
      | word => g.setWord word

/-- What the arguments ask for, once all of them have been taken. -/
def finish (g : Gathered) : Invocation :=
  let config := g.config <|> g.outer
  match g.pending, g.level, g.path with
  | none, .help, _ => .help
  | none, .compile, some path => .carryOut (.compile path) config
  | none, .convert, some path =>
    match g.line, g.form with
    | some line, some form => .carryOut (.convert path line form g.write) config
    | _, _ => .refused
  | _, _, _ => .refused

/-- What the arguments ask for, after those that have been taken. -/
def readRest (g : Gathered) : List Text → Invocation
  | [] => g.finish
  | argument :: rest =>
    match g.add argument with
    | .error answer => answer
    | .ok g => g.readRest rest

end Gathered

/-- What arguments ask for. -/
def Invocation.ofArguments (arguments : List Text) : Invocation :=
  Gathered.empty.readRest arguments

end Literate.CommandLine
