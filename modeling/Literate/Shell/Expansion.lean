import Literate.Shell.Fields
import Literate.Shell.State
import Literate.Shell.Word

/-!
# Expansion

What becomes of a word when its command is carried out: parameters, commands and arithmetic
expressions give way to their values, the result falls into fields, and fields that are patterns
give way to the paths they match. How a command inside a word is carried out is a parameter here.
-/

namespace Literate.Shell

/-! ### Parameters -/

/-- What is done with the value of a parameter. -/
inductive ParameterUse where
  | value
  | length
  /-- One of the operators `-`, `=`, `?` and `+`; with `orEmpty` an empty value counts as none. -/
  | otherwise (op : Char) (orEmpty : Bool) (word : Word)
  | dropStart (longest : Bool) (word : Word)
  | dropEnd (longest : Bool) (word : Word)
deriving DecidableEq, Repr

/-- The parameter in braces, and what is done with its value. -/
def parameterUse? (body : Octets) : Option (Octets × ParameterUse) :=
  let named (t : Octets) : Octets × Octets :=
    match t with
    | c :: _ =>
      if c.isDigit then (t.takeWhile Char.isDigit, t.dropWhile Char.isDigit) else parameterName t
    | [] => ([], [])
  let plain : Option (Octets × ParameterUse) :=
    match named body with
    | ([], _) => none
    | (name, rest) =>
      match rest with
      | [] => some (name, .value)
      | '#' :: '#' :: w => some (name, .dropStart true w)
      | '#' :: w => some (name, .dropStart false w)
      | '%' :: '%' :: w => some (name, .dropEnd true w)
      | '%' :: w => some (name, .dropEnd false w)
      | ':' :: op :: w =>
        if ['-', '=', '?', '+'].contains op then some (name, .otherwise op true w) else none
      | op :: w =>
        if ['-', '=', '?', '+'].contains op then some (name, .otherwise op false w) else none
  match body with
  | '#' :: c :: rest =>
    match named (c :: rest) with
    | (_ :: _, []) => some (c :: rest, .length)
    | _ => plain
  | _ => plain

namespace Run

/-- The value of a parameter that is not the list of arguments. -/
def parameter? (name : Octets) : Run (Option Octets) := do
  let s ← session
  match name with
  | ['?'] => return some (Text.decimal s.status)
  | ['#'] => return some (Text.decimal s.arguments.length)
  | ['$'] => return some (Text.decimal s.number)
  | ['!'] => return s.lastJob.map Text.decimal
  | ['-'] => return some s.flags
  | ['0'] => return some s.name
  | _ =>
    match natural? name with
    | some n => return s.arguments[n - 1]?
    | none => return s.get? name

/-- Sets a variable that may be set. -/
def setVariable (name value : Octets) : Run Unit := do
  let s ← session
  match s.binding? name with
  | none => changeSession fun s => s.put name (some ⟨value, false, false⟩)
  | some v =>
    if v.readOnly then
      fatal (name ++ Text.ofString ": is read only")
    else
      changeSession fun s => s.put name (some { v with value })

/-- The characters that separate fields. -/
def separators : Run Octets := do
  return ((← session).get? (Text.ofString "IFS")).getD [' ', '\t', '\n']

end Run

/-- The pieces of a value inside quotes or outside. -/
def valuePieces (quoted : Bool) (value : Octets) : List Piece :=
  value.map fun c => if quoted then .char c true else .loose c

/-- The pieces of all arguments, as one text for `*` inside quotes. -/
def argumentPieces (arguments : List Octets) (separators : Octets) (star quoted : Bool) :
    List Piece :=
  if star ∧ quoted then
    valuePieces true (Text.join (separators.take 1) arguments)
  else if arguments = [] then
    [.absent]
  else
    let between := if quoted then [.gap, .quotes] else [.gap]
    (arguments.map (valuePieces quoted)).intersperse between |>.flatten

/-- The pieces of a word in place of a value: outside quotes they are cut like a value. -/
def loosen (quoted : Bool) (pieces : List Piece) : List Piece :=
  if quoted then pieces
  else pieces.map fun piece => match piece with
    | .char c false => .loose c
    | other => other

/-- The text of pieces where no fields are made. -/
def joinedText (pieces : List Piece) : Octets :=
  pieces.filterMap fun piece => match piece with
    | .gap => some ' '
    | other => other.char?

/-! ### Words -/

namespace Expansion

/-- The pieces of a value. A parameter without a value is a fault if the option `u` is set. -/
def plainValue (quoted : Bool) (name : Octets) (value : Option Octets) : Run (List Piece) := do
  match value with
  | some v => return valuePieces quoted v
  | none =>
    if (← Run.session).flags.contains 'u' then
      Run.fatal (name ++ Text.ofString ": parameter not set")
    else
      return []

/-- The pieces of a use of a parameter; `expand` expands the word in it. -/
def parameter (expand : Context → Word → Run (List Piece)) (quoted : Bool) (name : Octets)
    (use : ParameterUse) : Run (List Piece) := do
  let s ← Run.session
  let isList := name = ['@'] ∨ name = ['*']
  let value ← if isList then
      pure (if s.arguments = [] then none else some (Text.join [' '] s.arguments))
    else Run.parameter? name
  let whole : Run (List Piece) := do
    if isList then
      return argumentPieces s.arguments (← Run.separators) (name = ['*']) quoted
    else
      plainValue quoted name value
  let inside : Context := if quoted then .double else .bare
  match use with
  | .value => whole
  | .length => plainValue quoted name ((value.getD []).length |> Text.decimal |> some)
  | .dropStart longest w =>
    let items := pattern (Piece.marked (← expand .bare w))
    return valuePieces quoted (Shell.dropStart longest items (value.getD []))
  | .dropEnd longest w =>
    let items := pattern (Piece.marked (← expand .bare w))
    return valuePieces quoted (Shell.dropEnd longest items (value.getD []))
  | .otherwise op orEmpty w =>
    let has := match value with
      | none => false
      | some v => !(orEmpty && v.isEmpty)
    match op with
    | '+' => if has then return loosen quoted (← expand inside w) else return []
    | '-' => if has then whole else return loosen quoted (← expand inside w)
    | '=' =>
      if has then whole
      else
        let text := joinedText (← expand inside w)
        Run.setVariable name text
        return valuePieces quoted text
    | _ =>
      if has then whole
      else
        let words := joinedText (← expand inside w)
        let standard := if orEmpty then "parameter not set or null" else "parameter not set"
        Run.fatal
          (name ++ Text.ofString ": " ++ if words = [] then Text.ofString standard else words)

/-- The value of an arithmetic expression; variables that it sets are set. -/
def arithmetic (expression : Octets) : Run Octets := do
  let before := (← Run.session).bindings.map fun v => (v.1, v.2.value)
  match Arithmetic.evaluate before expression with
  | .error fault => Run.fatal (fault.message expression)
  | .ok (n, after) =>
    let changed := after.filter fun v => !before.contains v
    for (name, value) in changed do
      Run.setVariable name value
    return Arithmetic.render n

/-- The pieces of a word; `command` gives the output of a command in it. The constructs in a word
are nested at most as deep as the first argument says. -/
def pieces (command : Octets → Run Octets) : Nat → Context → Word → Run (List Piece)
  | 0, _, _ => return []
  | depth + 1, context, w => do
    let parts ← (segments context w).mapM fun segment => match segment with
      | .char c quoted => pure [Piece.char c quoted]
      | .quotes => pure [Piece.quotes]
      | .home => do
        return valuePieces true (((← Run.session).get? (Text.ofString "HOME")).getD ['~'])
      | .command quoted script => do return valuePieces quoted (← command script)
      | .arithmetic quoted expression => do
        let text := joinedText (← pieces command depth .here expression)
        return valuePieces quoted (← arithmetic text)
      | .parameter quoted body =>
        match parameterUse? body with
        | some (name, use) => parameter (pieces command depth) quoted name use
        | none => Run.fatal (Text.ofString "Bad substitution")
    return parts.flatten

/-- A word as one text. -/
def text (command : Octets → Run Octets) (context : Context) (w : Word) : Run Octets := do
  return joinedText (← pieces command (w.length + 1) context w)

/-- The pattern that a word writes. -/
def patternOf (command : Octets → Run Octets) (w : Word) : Run (List PatternItem) := do
  return pattern (Piece.marked (← pieces command (w.length + 1) .bare w))

/-- The paths that the names of a pattern match, from a place on; `written` is how the path to that
place is written. -/
def pathsFrom (files : FileTree) (place : Path) (written : Octets) :
    List (List Marked) → List Octets
  | [] => [written]
  | name :: rest =>
    let items := pattern name
    let close (name : Octets) : Octets := written ++ name ++ (if rest = [] then [] else ['/'])
    if isGlob items then
      let names := (files.names place).filter fun n =>
        matchesAll items n && (n.head? != some '.' || (name.head?.map Marked.char) == some '.')
      names.flatMap fun n => pathsFrom files (place ++ [n]) (close n) rest
    else
      let plain := name.map Marked.char
      if plain = [] then pathsFrom files place (close []) rest
      else if (files.walk place [plain]).toOption.any fun p => files.state p != .missing then
        pathsFrom files (place ++ [plain]) (close plain) rest
      else []

/-- The names of a pattern between its slashes. -/
def patternNames : List Marked → List (List Marked)
  | [] => [[]]
  | m :: rest =>
    if m.char = '/' then [] :: patternNames rest
    else
      match patternNames rest with
      | [] => [[m]]
      | name :: more => (m :: name) :: more

/-- The paths that a field matches, or the field itself. -/
def paths (files : FileTree) (directory : Path) (field : List Marked) : List Octets :=
  let plain := field.map Marked.char
  if isGlob (pattern field) then
    let found := match field with
      | m :: rest =>
        if m.char = '/' then pathsFrom files [] ['/'] (patternNames rest)
        else pathsFrom files directory [] (patternNames field)
      | [] => []
    if found = [] then [plain] else found
  else
    [plain]

/-- The arguments that a word gives. -/
def arguments (command : Octets → Run Octets) (w : Word) : Run (List Octets) := do
  let found := fields (← Run.separators) (← pieces command (w.length + 1) .bare w)
  let s ← Run.session
  if s.flags.contains 'f' then
    return found.map fun field => field.map Marked.char
  else
    return found.flatMap (paths (← Run.world).files s.directory)

/-- The arguments that words give. -/
def allArguments (command : Octets → Run Octets) (words : List Word) : Run (List Octets) := do
  return (← words.mapM (arguments command)).flatten

end Expansion

end Literate.Shell
