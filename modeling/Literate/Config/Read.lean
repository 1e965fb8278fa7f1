import Literate.Config.Basic
import Literate.Config.Expansion
import Literate.FileState
import Literate.Toml.Reader
import Literate.Word

/-!
# Reading a configuration

A configuration is a TOML document with the tables `execution` and `languages`; other keys are of no
account. What is missing has its standard value, but a table `languages`, once given, holds all of
the languages. The program of each language is expanded.
-/

namespace Literate

namespace Config

open Toml (Value Entries)

/-- The fields of a record: by their keys from a table, or by their places from an array. -/
def record (keys : List Text) : Value → Option Entries
  | .table _ entries => some entries
  | .array items => some (keys.zip items)
  | .tables tables => some (keys.zip (tables.map (Value.table .header)))
  | _ => none

/-- The text of a string. -/
def string? : Value → Option Text
  | .string t => some t
  | _ => none

/-- The texts of an array of strings. -/
def strings? : Value → Option (List Text)
  | .array items => items.mapM string?
  | _ => none

/-- A number of seconds, below 2^64. -/
def seconds? : Value → Option Nat
  | .integer n => if 0 ≤ n ∧ n < wordBound then some n.toNat else none
  | _ => none

/-- The value of a key that may be missing; a value that does not fit is refused. -/
def optional {α : Type} (read : Value → Option α) (entries : Entries) (key : Text) :
    Option (Option α) :=
  match entries.get? key with
  | none => some none
  | some v => (read v).map some

/-- The time limit of a table `execution`. -/
def execution? (v : Value) : Option Nat := do
  let entries ← record [Text.ofString "timeout_secs"] v
  return (← optional seconds? entries (Text.ofString "timeout_secs")).getD standard.timeoutSeconds

/-- The settings of a language; its command is required. -/
def language? (v : Value) : Option Language := do
  let entries ← record [Text.ofString "command", Text.ofString "extension"] v
  let command ← strings? (← entries.get? (Text.ofString "command"))
  return ⟨command, ← optional string? entries (Text.ofString "extension")⟩

/-- The languages of a table `languages`. -/
def languages? : Value → Option (List (Text × Language))
  | .table _ entries =>
    (entries.mapM fun entry => (language? entry.2).map fun l => (entry.1, l)).map Text.sortByKey
  | _ => none

/-- The settings in a text, as they are written there. -/
def parse? (t : Text) : Option Config := do
  let entries ← Toml.parse t
  let seconds ← optional execution? entries (Text.ofString "execution")
  let languages ← optional languages? entries (Text.ofString "languages")
  return ⟨seconds.getD standard.timeoutSeconds, languages.getD standard.languages⟩

/-- The language with its program expanded, unless its command is empty. -/
def expandLanguage (env : Environment) (l : Language) : Option Language :=
  match l.command with
  | [] => none
  | program :: arguments => some { l with command := Expansion.apply env program :: arguments }

/-- The languages with their programs expanded, or the first one whose command is empty. -/
def expandLanguages (env : Environment) :
    List (Text × Language) → Except Text (List (Text × Language))
  | [] => .ok []
  | (name, l) :: rest =>
    match expandLanguage env l with
    | none => .error name
    | some l =>
      match expandLanguages env rest with
      | .error name => .error name
      | .ok rest => .ok ((name, l) :: rest)

/-- The settings in a text that stands at a path. -/
def ofText (env : Environment) (path t : Text) : Except ConfigError Config :=
  match parse? t with
  | none => .error (.malformed path)
  | some config =>
    match expandLanguages env config.languages with
    | .error name => .error (.emptyCommand path name)
    | .ok languages => .ok { config with languages }

/-- The settings in a file, or `none` if nothing stands at the path. -/
def ofFile (env : Environment) (path : Text) (file : FileState) :
    Except ConfigError (Option Config) :=
  match file with
  | .missing | .beneathFile => .ok none
  | _ =>
    match file.read with
    | .error cause => .error (.unreadable path cause)
    | .ok t =>
      match ofText env path t with
      | .error e => .error e
      | .ok config => .ok (some config)

/-- The path of the configuration when none is given. -/
def standardPath (env : Environment) : Text :=
  Expansion.tilde env (Text.ofString "~/.config/diffdoc") ++ Text.ofString "/config.toml"

/-- The settings from the given path, where a file has to be, or else from the standard path, where
there need not be one. -/
def load (env : Environment) (files : Text → FileState) (given : Option Text) :
    Except ConfigError Config :=
  match given with
  | some path =>
    match ofFile env path (files path) with
    | .error e => .error e
    | .ok (some config) => .ok config
    | .ok none => .error (.notFound path)
  | none =>
    match ofFile env (standardPath env) (files (standardPath env)) with
    | .error e => .error e
    | .ok (some config) => .ok config
    | .ok none => .ok standard

end Config

end Literate
