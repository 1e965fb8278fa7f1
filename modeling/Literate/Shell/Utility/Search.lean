import Literate.Shell.Regex
import Literate.Shell.Utility.Basic

/-!
# Searching lines

The utility `grep`: the lines that match an expression, or what is to be said about them.
-/

namespace Literate.Shell.Utility

/-- What is searched for: lines that one of the expressions matches. With `words` a match must not
touch letters, digits or underscores. -/
structure Search where
  expressions : List Regex
  fold : Bool
  words : Bool
deriving Repr

namespace Search

/-- A letter, a digit or an underscore. -/
def isWordChar (c : Option Char) : Bool :=
  c.any fun c => c.isAlphanum || c = '_'

/-- The matches in a line. -/
def found (search : Search) (line : Octets) : List Octets :=
  search.expressions.flatMap fun r =>
    let (found, rest) := r.allMatches search.fold (line.length + 1) true false line
    let follows := (found.drop 1).map (fun m => m.before ++ m.text) ++ [rest]
    (found.zip follows).filterMap fun (m, next) =>
      if search.words && (isWordChar m.before.getLast? || isWordChar next.head?) then none
      else some m.text

/-- Whether a line is found. -/
def accepts (search : Search) (line : Octets) : Bool :=
  search.found line != []

end Search

/-- The search that options ask for with the expressions in a text, one on each line of it. -/
def search (given : List (Char × Octets)) (written : Octets) : Search :=
  let parse (t : Octets) : Regex :=
    if hasOption given 'F' then Regex.literal t else Regex.parse (hasOption given 'E') t
  let anchored (r : Regex) : Regex :=
    if hasOption given 'x' then Regex.append .start (.append r .finish) else r
  ⟨(Text.pieces written).map fun t => anchored (parse t), hasOption given 'i', hasOption given 'w'⟩

/-- What is said about the lines of an input that are to be shown. -/
def searchReport (given : List (Char × Octets)) (search : Search) (label name : Octets)
    (lines : List (Octets × Nat)) : Octets :=
  if hasOption given 'q' then []
  else if hasOption given 'c' then unlines [label ++ Text.decimal lines.length]
  else if hasOption given 'l' then (if lines = [] then [] else unlines [name])
  else
    unlines (lines.flatMap fun (line, number) =>
      let mark := label ++ (if hasOption given 'n' then Text.decimal number ++ [':'] else [])
      if hasOption given 'o' then ((search.found line).filter (· ≠ [])).map (mark ++ ·)
      else [mark ++ line])

/-- Writes the lines that match one of the expressions. -/
def grep : Utility := fun s operands =>
  match options "em" "vcinqEFoxwhsl" operands with
  | .error c => s.badOption c
  | .ok (given, rest) =>
    let written : Octets :=
      if hasOption given 'e' then Text.join ['\n'] ((given.filter fun o => o.1 == 'e').map Prod.snd)
      else rest.headD []
    let paths := if hasOption given 'e' then rest else rest.drop 1
    let search := search given written
    s.reading paths fun inputs =>
      let found := inputs.map fun (name, input) =>
        let lines := (lineBodies (input.toOption.getD [])).zipIdx 1
        (name, lines.filter fun (line, _) => search.accepts line != hasOption given 'v')
      let shown := found.map fun (name, lines) =>
        let name := if name = ['-'] then Text.ofString "(standard input)" else name
        let label := if inputs.length > 1 ∧ !hasOption given 'h' then name ++ [':'] else []
        searchReport given search label name lines
      let faults := s.readFaults .plain inputs
      let any := found.any fun (_, lines) => lines != []
      { s.writing shown.flatten with
        errors := if hasOption given 's' then [] else faults.flatten
        status := if faults ≠ [] then 2 else if any then 0 else 1 }

end Literate.Shell.Utility
