import Literate.CommandLine.Arguments
import Literate.Config.Read

/-!
# Running the command line

A run reads the configuration and the document, and answers with a text or with an error. It changes
no file itself: the text that is to replace the document is part of the answer, and only a
conversion that has been compiled again has one.

An error is shown as the chain of its causes. An error whose message already holds that of its cause
is still followed by the cause.
-/

namespace Literate

/-- The messages of the causes that lie behind an error of running code. -/
def RunError.causes : RunError → List Text
  | .failed _ cause => [cause]
  | .unknownLanguage _ | .timeout .. => []

/-- The messages of the causes that lie behind a fault of an element. -/
def CompileFault.causes : CompileFault → List Text
  | .patch cause => [cause.message]
  | .run cause => cause.message :: cause.causes
  | _ => []

/-- The message for a refused document and those of its causes. -/
def DocumentError.chain (e : DocumentError) : List Text :=
  match e with
  | .format error => [error.message]
  | .compile error => error.message :: error.fault.causes

/-- The message for a block that is not converted and those of its causes. -/
def ConversionError.chain (e : ConversionError) : List Text :=
  match e with
  | .document error => error.chain
  | _ => [e.message]

/-- The message for a missing configuration and those of its causes. -/
def ConfigError.chain (e : ConfigError) : List Text :=
  match e with
  | .unreadable _ cause => [e.message, cause]
  | _ => [e.message]

namespace CommandLine

/-- Why a run fails. -/
inductive Failure where
  | config (cause : ConfigError)
  | unreadable (path cause : Text)
  | compile (path : Text) (cause : DocumentError)
  | convert (path : Text) (cause : ConversionError)
  /-- The document cannot be compiled once the block is converted. -/
  | broken (path : Text) (cause : DocumentError)
deriving DecidableEq, Repr

/-- The messages for a failure, from what was attempted to the last cause. -/
def Failure.chain : Failure → List Text
  | config cause => cause.chain
  | unreadable path cause => [Text.ofString "failed to read " ++ path, cause]
  | compile path cause => (Text.ofString "failed to compile " ++ path) :: cause.chain
  | convert path cause => (Text.ofString "failed to convert " ++ path) :: cause.chain
  | broken path cause =>
    (path ++ Text.ofString " no longer compiles after conversion") :: cause.chain

/-- The message for a failure. -/
def Failure.message (failure : Failure) : Text :=
  Text.ofString "Error: " ++ Text.join (Text.ofString ": ") failure.chain ++ ['\n']

/-- Where a run takes place. The configuration decides how code is run. -/
structure Surroundings where
  environment : Environment
  files : Text → FileState
  runner : Config → Runner

/-- What a successful run answers: a text for the standard output, or one for a file. -/
inductive Answer where
  | printed (text : Text)
  | written (path text : Text)
deriving DecidableEq, Repr

/-- The text of a document. -/
def readDocument (files : Text → FileState) (path : Text) : Except Failure Text :=
  match (files path).read with
  | .ok source => .ok source
  | .error cause => .error (.unreadable path cause)

/-- Compiles a document. -/
def compile (tools : Tools) (path source : Text) : Except Failure Answer :=
  match (Compile.document tools [] source).result with
  | .ok text => .ok (.printed text)
  | .error cause => .error (.compile path cause)

/-- Converts a block of a document and compiles the result, since later blocks may depend on what
was there before. -/
def convert (tools : Tools) (path source : Text) (line : Nat) (form : Form) (write : Bool) :
    Except Failure Answer :=
  match Conversion.document tools [] source line form with
  | ⟨_, .error cause⟩ => .error (.convert path cause)
  | ⟨calls, .ok converted⟩ =>
    match (Compile.document tools calls converted).result with
    | .error cause => .error (.broken path cause)
    | .ok _ => .ok (if write then .written path converted else .printed converted)

/-- Carries out a task with a configuration. -/
def Task.run (task : Task) (s : Surroundings) (config : Config) : Except Failure Answer :=
  let tools := Tools.standard (s.runner config)
  match task with
  | compile path =>
    match readDocument s.files path with
    | .error failure => .error failure
    | .ok source => CommandLine.compile tools path source
  | convert path line form write =>
    match readDocument s.files path with
    | .error failure => .error failure
    | .ok source => CommandLine.convert tools path source line form write

/-- Carries out a task with the configuration at the given path, or else the standard one. -/
def Task.runConfigured (task : Task) (s : Surroundings) (config : Option Text) :
    Except Failure Answer :=
  match Config.load s.environment s.files config with
  | .error cause => .error (.config cause)
  | .ok config => task.run s config

/-- What a run of the program shows: the status it exits with, its outputs, and the file it writes
with the text for it. -/
structure Report where
  status : Nat
  output : Text
  errors : Text
  written : Option (Text × Text)
deriving DecidableEq, Repr

/-- The name and the number of this version. -/
def versionText : Text := Text.ofString "diffdoc 0.1.0\n"

/-- How the program is called. -/
def usageText : Text :=
  Text.ofString "Usage: diffdoc [--config FILE] compile PATH\n" ++
    Text.ofString "       diffdoc [--config FILE] convert PATH --line LINE --to diff|replace" ++
    Text.ofString " [--write]\n"

/-- What a task shows. -/
def Report.ofResult : Except Failure Answer → Report
  | .ok (.printed text) => ⟨0, text, [], none⟩
  | .ok (.written path text) => ⟨0, [], [], some (path, text)⟩
  | .error failure => ⟨1, [], failure.message, none⟩

/-- Runs the program. -/
def Invocation.run (s : Surroundings) : Invocation → Report
  | .version => ⟨0, versionText, [], none⟩
  | .help => ⟨0, usageText, [], none⟩
  | .refused => ⟨2, [], usageText, none⟩
  | .carryOut task config => Report.ofResult (task.runConfigured s config)

/-- Runs the program with arguments. -/
def run (s : Surroundings) (arguments : List Text) : Report :=
  (Invocation.ofArguments arguments).run s

end CommandLine

end Literate
