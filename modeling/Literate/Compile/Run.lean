import Literate.Duration
import Literate.Text.Quoted

/-!
# Running code

What a compilation needs from outside: something that runs the code of a snippet, and something that
applies diffs and writes them. Running code may fail, and it need not give the same answer twice:
the answer may depend on all the calls made before.
-/

namespace Literate

/-- A request to run code of a language. -/
structure Call where
  language : Text
  code : Text
deriving DecidableEq, Repr

/-- Why code could not be run to its end. -/
inductive RunError where
  | unknownLanguage (language : Text)
  /-- The program could not be run for a reason that the system gives. -/
  | failed (program cause : Text)
  | timeout (program : Text) (limit : Duration)
deriving DecidableEq, Repr

/-- The message for code that could not be run. -/
def RunError.message : RunError → Text
  | unknownLanguage language =>
    Text.ofString "no interpreter configured for language " ++ Text.quoted language
  | failed program cause =>
    Text.ofString "failed to run `" ++ program ++ Text.ofString "`: " ++ cause
  | timeout program limit =>
    Text.ofString "`" ++ program ++ Text.ofString "` did not finish within " ++ limit.text

/-- The printed text of a call, given the calls made before it, the first one first. -/
abbrev Runner := List Call → Call → Except RunError Text

end Literate
