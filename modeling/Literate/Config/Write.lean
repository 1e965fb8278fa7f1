import Literate.Config.Basic
import Literate.Toml.Writer

/-!
# Writing a configuration

The tables of a configuration as a TOML document, with an empty line between two of them.
-/

namespace Literate.Config

/-- The table of a language. -/
def languageText (name : Text) (l : Language) : Text :=
  Toml.headerText [Text.ofString "languages", name] ++
    Toml.line (Text.ofString "command") (Toml.arrayText l.command) ++
    match l.extension with
    | some extension => Toml.line (Text.ofString "extension") (Toml.stringText extension)
    | none => []

/-- A configuration as a document. -/
def text (config : Config) : Text :=
  let execution := Toml.headerText [Text.ofString "execution"] ++
    Toml.line (Text.ofString "timeout_secs") (Text.decimal config.timeoutSeconds)
  let languages :=
    match config.languages with
    | [] => [Toml.headerText [Text.ofString "languages"]]
    | languages => languages.map fun entry => languageText entry.1 entry.2
  Text.join ['\n'] (execution :: languages)

end Literate.Config
