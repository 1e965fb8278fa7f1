import Literate.Duration
import Literate.Text.Order

/-!
# Configuration

How long a snippet may run, and for each language the command that runs it. The first word of a
command is the program. Without a configuration Python and the shell are known, and a snippet may
run for ten seconds.
-/

namespace Literate

/-- How the snippets of a language are run. `extension` is that of the file which holds the snippet,
for a command that names it. -/
structure Language where
  command : List Text
  extension : Option Text
deriving DecidableEq, Repr

/-- The settings, with the languages in the order of their names. -/
structure Config where
  timeoutSeconds : Nat
  languages : List (Text × Language)
deriving DecidableEq, Repr

/-- Why there is no configuration. -/
inductive ConfigError where
  | unreadable (path cause : Text)
  | notFound (path : Text)
  | malformed (path : Text)
  | emptyCommand (path language : Text)
deriving DecidableEq, Repr

/-- The message for a missing configuration. -/
def ConfigError.message : ConfigError → Text
  | unreadable path cause =>
    Text.ofString "Failed to read config file at " ++ path ++ Text.ofString ": " ++ cause
  | notFound path => Text.ofString "Config file not found at " ++ path
  | malformed path => Text.ofString "Failed to parse config file at " ++ path
  | emptyCommand path language =>
    Text.ofString "Language '" ++ language ++ Text.ofString "' in " ++ path ++
      Text.ofString " has an empty command"

namespace Config

/-- How long a snippet may run. -/
def timeout (config : Config) : Duration :=
  .ofSeconds config.timeoutSeconds

/-- The settings that hold without a configuration. -/
def standard : Config where
  timeoutSeconds := 10
  languages :=
    [(Text.ofString "python", ⟨[Text.ofString "python3", Text.ofString "-"], none⟩),
      (Text.ofString "sh", ⟨[Text.ofString "sh", Text.ofString "-s"], none⟩)]

end Config

end Literate
