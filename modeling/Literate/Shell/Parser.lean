import Literate.Shell.Word

/-!
# Reading commands

The reader takes a script one line at a time, so that a line runs before the next one is looked at.
The first argument of the mutually recursive readers bounds how deep they go; the length of the
script is enough.
-/

namespace Literate.Shell

/-- Where the reader is: the rest of the script and the number of its first line. `skipped` counts
lines that were taken out of the script after the current one. -/
structure Script where
  rest : Octets
  line : Nat
  skipped : Nat
deriving Repr

/-- A script that cannot be read on: the line and the shell's words for it. -/
structure ReadError where
  line : Nat
  message : Octets
deriving Repr

/-- A reader of a script. -/
abbrev Reader := StateT Script (Except ReadError)

namespace Reader

/-- Stops with a message about the current line. -/
def fail {α : Type} (message : Octets) : Reader α := do
  throw ⟨(← get).line, message⟩

/-- What is left of the script. -/
def rest : Reader Octets := do
  return (← get).rest

/-- Goes on at `rest`, on the same line. -/
def setRest (rest : Octets) : Reader Unit :=
  modify fun s => { s with rest }

/-- Goes on at `rest`, after the end of the line. -/
def nextLine (rest : Octets) : Reader Unit :=
  modify fun s => { rest, line := s.line + 1 + s.skipped, skipped := 0 }

end Reader

/-! ### Tokens -/

/-- Passes over spaces, joined lines and a comment. -/
def skipBlanks (inComment : Bool) : Octets → Octets
  | [] => []
  | '\\' :: '\n' :: t => if inComment then '\n' :: t else skipBlanks false t
  | c :: t =>
    if c = '\n' then c :: t
    else if inComment then skipBlanks true t
    else if c = ' ' || c = '\t' then skipBlanks false t
    else if c = '#' then skipBlanks true t
    else c :: t

/-- Joined lines passed over are counted. -/
def Reader.blanks : Reader Unit := do
  let before ← Reader.rest
  let after := skipBlanks false before
  let joined := before.count '\n' - after.count '\n'
  modify fun s => { s with rest := after, line := s.line + joined }

/-- The characters of an operator that the text begins with. -/
def operator? (t : Octets) : Option Octets :=
  match t with
  | ';' :: ';' :: _ => some [';', ';']
  | '&' :: '&' :: _ => some ['&', '&']
  | '|' :: '|' :: _ => some ['|', '|']
  | c :: _ => if c = ';' || c = '&' || c = '|' || c = '(' || c = ')' then some [c] else none
  | [] => none

/-- The shell's name for what the text begins with. -/
def tokenName (t : Octets) : Octets :=
  match t with
  | [] => Text.ofString "end of file"
  | '\n' :: _ => Text.ofString "newline"
  | '<' :: _ => Text.ofString "redirection"
  | '>' :: _ => Text.ofString "redirection"
  | _ =>
    match operator? t with
    | some op => ['"'] ++ op ++ ['"']
    | none =>
      let word := t.takeWhile fun c => !isMeta c
      if isReserved word then ['"'] ++ word ++ ['"'] else Text.ofString "word"

/-- Stops because of what comes next. -/
def Reader.unexpected {α : Type} (expected : Option String) : Reader α := do
  let name := tokenName (← Reader.rest)
  let tail := match expected with
    | some e => Text.ofString " (expecting \"" ++ Text.ofString e ++ Text.ofString "\")"
    | none => []
  Reader.fail (Text.ofString "Syntax error: " ++ name ++ Text.ofString " unexpected" ++ tail)

/-- The words for a construct that does not end. -/
def Open.words : Open → String
  | .single | .double => "Unterminated quoted string"
  | .parens => "end of file unexpected (expecting \")\")"
  | .braces => "Missing '\x7d'"
  | .back => "EOF in backquote substitution"

/-- The word that comes next. -/
def Reader.word : Reader Word := do
  match scanWord [] [] (← Reader.rest) with
  | .error innermost =>
    Reader.fail (Text.ofString "Syntax error: " ++ Text.ofString innermost.words)
  | .ok (w, after) =>
    let passed := (← Reader.rest).count '\n' - after.count '\n'
    modify fun s => { s with rest := after, line := s.line + passed }
    return w

/-- Whether the next word is `word`, read as a reserved one. -/
def nextIs (word : String) (t : Octets) : Bool :=
  match Text.after? (Text.ofString word) t with
  | some [] => true
  | some (c :: _) => isMeta c
  | none => false

/-- Passes over a reserved word, which has to come next. -/
def Reader.expect (word : String) : Reader Unit := do
  Reader.blanks
  let t ← Reader.rest
  if nextIs word t then
    Reader.setRest (t.drop word.length)
  else
    Reader.unexpected (some word)

/-! ### Redirections -/

/-- The lines of a text, with their ends, up to the one that is `stop`, and what follows that line;
`acc` are those before, the last one first. With `tabs`, tabs at the beginnings of lines are left
out. -/
def hereLines (tabs : Bool) (stop : Octets) : (count : Nat) → (acc : List Octets) → Octets →
    List Octets × Octets
  | 0, acc, t => (acc.reverse, t)
  | _ + 1, acc, [] => (acc.reverse, [])
  | count + 1, acc, t =>
    let line := t.takeWhile (· ≠ '\n')
    let ending := (t.dropWhile (· ≠ '\n')).take 1
    let after := t.drop (line.length + 1)
    let line := if tabs then line.dropWhile (· = '\t') else line
    if line = stop then (acc.reverse, after)
    else hereLines tabs stop count ((line ++ ending) :: acc) after

/-- A text in the script that begins after the current line, and ends before the line `stop`. It is
taken out of the rest of the script. -/
def Reader.hereText (tabs : Bool) (stop : Octets) : Reader Octets := do
  let t ← Reader.rest
  let current := t.takeWhile (· ≠ '\n')
  match t.dropWhile (· ≠ '\n') with
  | [] => return []
  | _ :: below =>
    let (lines, after) := hereLines tabs stop (below.length + 1) [] below
    modify fun s =>
      { s with rest := current ++ '\n' :: after, skipped := s.skipped + lines.length + 1 }
    return lines.flatten

/-- A redirection, if one comes next. -/
def Reader.redirect? : Reader (Option Redirect) := do
  let t ← Reader.rest
  let digits := t.takeWhile Char.isDigit
  let at? := match t.dropWhile Char.isDigit with
    | op@('<' :: _) => some op
    | op@('>' :: _) => some op
    | _ => none
  match at? with
  | none => return none
  | some op =>
    let number := digits.foldl (fun n d => 10 * n + (d.toNat - '0'.toNat)) 0
    let fd (standard : Nat) : Nat := if digits = [] then standard else number
    let target (standard : Nat) (kind : RedirectKind) (after : Octets) :
        Reader (Option Redirect) := do
      Reader.setRest after
      Reader.blanks
      let w ← Reader.word
      if w = [] then Reader.unexpected none
      return some ⟨fd standard, kind, w⟩
    let here (tabs : Bool) (after : Octets) : Reader (Option Redirect) := do
      Reader.setRest after
      Reader.blanks
      let (stop, quoted) := unquote false (← Reader.word)
      let body ← Reader.hereText tabs stop
      return some ⟨fd 0, .here (!quoted), body⟩
    match op with
    | '<' :: '<' :: '-' :: after => here true after
    | '<' :: '<' :: after => here false after
    | '<' :: '&' :: after => target 0 .duplicate after
    | '<' :: '>' :: after => target 0 .input after
    | '<' :: after => target 0 .input after
    | '>' :: '>' :: after => target 1 .append after
    | '>' :: '&' :: after => target 1 .duplicate after
    | '>' :: '|' :: after => target 1 .output after
    | '>' :: after => target 1 .output after
    | _ => return none

/-- The redirections that come next; at most `count` of them. -/
def Reader.redirects : (count : Nat) → Reader (List Redirect)
  | 0 => return []
  | count + 1 => do
    Reader.blanks
    match ← Reader.redirect? with
    | none => return []
    | some r => return r :: (← Reader.redirects count)

/-! ### Commands -/

/-- Words and redirections up to the end of a simple command; at most `count` of them. -/
def Reader.simple : (count : Nat) → (words : List Word) → (redirects : List Redirect) →
    Reader (List Word × List Redirect)
  | 0, words, redirects => return (words.reverse, redirects.reverse)
  | count + 1, words, redirects => do
    Reader.blanks
    match ← Reader.redirect? with
    | some r => Reader.simple count words (r :: redirects)
    | none =>
      let t ← Reader.rest
      match t with
      | [] => return (words.reverse, redirects.reverse)
      | c :: _ =>
        if isMeta c then
          return (words.reverse, redirects.reverse)
        else
          Reader.simple count ((← Reader.word) :: words) redirects

/-- Passes over ends of lines; at most `count` of them. -/
def Reader.newlines : (count : Nat) → Reader Unit
  | 0 => return ()
  | count + 1 => do
    Reader.blanks
    match ← Reader.rest with
    | '\n' :: t =>
      Reader.nextLine t
      Reader.newlines count
    | _ => return ()

/-- The words of a `for` up to the end of its list; at most `count` of them. -/
def Reader.wordList : (count : Nat) → Reader (List Word)
  | 0 => return []
  | count + 1 => do
    Reader.blanks
    match ← Reader.rest with
    | [] => return []
    | c :: _ =>
      if isMeta c then return []
      else
        let w ← Reader.word
        return w :: (← Reader.wordList count)

/-- The patterns of an arm of a `case` and the parenthesis after them; at most `count` of them. -/
def Reader.patterns : (count : Nat) → Reader (List Word)
  | 0 => return []
  | count + 1 => do
    Reader.blanks
    let w ← Reader.word
    Reader.blanks
    match ← Reader.rest with
    | ')' :: t =>
      Reader.setRest t
      return [w]
    | '|' :: t =>
      Reader.setRest t
      return w :: (← Reader.patterns count)
    | _ => Reader.unexpected (some ")")

/-- Words that end a list of commands. -/
def isCloser (t : Octets) : Bool :=
  ["then", "else", "elif", "fi", "do", "done", "esac", "\x7d"].any fun w => nextIs w t

/-- How many things may follow one another in the rest of the script. -/
def Reader.bound : Reader Nat := do
  return (← Reader.rest).length + 1

mutual

/-- A list of commands up to a word or a parenthesis that closes it. Lines may end in it. -/
def readList : Nat → Reader Command
  | 0 => return .nothing
  | fuel + 1 => do
    Reader.newlines (← Reader.bound)
    let t ← Reader.rest
    if t = [] ∨ isCloser t ∨ t.head? = some ')' ∨ Text.beginsWith [';', ';'] t then
      return .nothing
    let c ← readAndOr fuel
    Reader.blanks
    match ← Reader.rest with
    | ';' :: ';' :: _ => return c
    | ';' :: t =>
      Reader.setRest t
      return .sequence c (← readList fuel)
    | '&' :: t =>
      Reader.setRest t
      return .sequence (.background c) (← readList fuel)
    | '\n' :: _ => return .sequence c (← readList fuel)
    | _ => return c

/-- A list of at least one command, up to a word or a parenthesis that closes it. -/
def readCommands : Nat → Reader Command
  | 0 => return .nothing
  | fuel + 1 => do
    Reader.newlines (← Reader.bound)
    let t ← Reader.rest
    if isCloser t ∨ t.head? = some ')' ∨ Text.beginsWith [';', ';'] t then Reader.unexpected none
    readList fuel

/-- Pipelines joined by `&&` and `||`. -/
def readAndOr : Nat → Reader Command
  | 0 => return .nothing
  | fuel + 1 => do
    let first ← readPipeline fuel
    readAndOrRest fuel first

/-- What follows the first part of a list joined by `&&` and `||`. -/
def readAndOrRest : Nat → Command → Reader Command
  | 0, first => return first
  | fuel + 1, first => do
    Reader.blanks
    match ← Reader.rest with
    | '&' :: '&' :: t =>
      Reader.setRest t
      Reader.newlines (← Reader.bound)
      let second ← readPipeline fuel
      readAndOrRest fuel (.both first second)
    | '|' :: '|' :: t =>
      Reader.setRest t
      Reader.newlines (← Reader.bound)
      let second ← readPipeline fuel
      readAndOrRest fuel (.either first second)
    | _ => return first

/-- Commands joined by `|`, with an exclamation mark in front or not. -/
def readPipeline : Nat → Reader Command
  | 0 => return .nothing
  | fuel + 1 => do
    Reader.blanks
    let t ← Reader.rest
    if nextIs "!" t then
      Reader.setRest (t.drop 1)
      return .negated (← readPipeline fuel)
    else
      match ← readStages fuel with
      | [c] => return c
      | stages => return .pipeline stages

/-- The stages of a pipeline. -/
def readStages : Nat → Reader (List Command)
  | 0 => return []
  | fuel + 1 => do
    let c ← readCommand fuel
    Reader.blanks
    match ← Reader.rest with
    | '|' :: '|' :: _ => return [c]
    | '|' :: t =>
      Reader.setRest t
      Reader.newlines (← Reader.bound)
      return c :: (← readStages fuel)
    | _ => return [c]

/-- What follows `then` or `elif` in a conditional, up to its end. -/
def readBranches : Nat → Reader Command
  | 0 => return .nothing
  | fuel + 1 => do
    let condition ← readCommands fuel
    Reader.expect "then"
    let yes ← readCommands fuel
    let t ← Reader.rest
    if nextIs "elif" t then
      Reader.setRest (t.drop 4)
      return .branch condition yes (← readBranches fuel)
    else if nextIs "else" t then
      Reader.setRest (t.drop 4)
      let no ← readCommands fuel
      Reader.expect "fi"
      return .branch condition yes no
    else
      Reader.expect "fi"
      return .branch condition yes .nothing

/-- The body of a loop, between `do` and `done`. -/
def readBody : Nat → Reader Command
  | 0 => return .nothing
  | fuel + 1 => do
    Reader.newlines (← Reader.bound)
    Reader.expect "do"
    let body ← readCommands fuel
    Reader.expect "done"
    return body

/-- The arms of a `case`, up to its end. -/
def readArms : Nat → Reader (List (List Word × Command))
  | 0 => return []
  | fuel + 1 => do
    Reader.newlines (← Reader.bound)
    let t ← Reader.rest
    if nextIs "esac" t then
      Reader.setRest (t.drop 4)
      return []
    if t.head? = some '(' then
      Reader.setRest (t.drop 1)
    let patterns ← Reader.patterns (← Reader.bound)
    let body ← readList fuel
    let t ← Reader.rest
    if Text.beginsWith [';', ';'] t then
      Reader.setRest (t.drop 2)
      return (patterns, body) :: (← readArms fuel)
    else
      Reader.expect "esac"
      return [(patterns, body)]

/-- A command that is not a simple one, without the redirections after it, if one comes next. -/
def readCompound : Nat → Reader (Option Command)
  | 0 => return none
  | fuel + 1 => do
    let t ← Reader.rest
    let line := (← get).line
    if t.head? = some '(' then
      Reader.setRest (t.drop 1)
      let body ← readCommands fuel
      match ← Reader.rest with
      | ')' :: t =>
        Reader.setRest t
        return some (.subshell body)
      | _ => Reader.unexpected (some ")")
    else if nextIs "\x7b" t then
      Reader.setRest (t.drop 1)
      let body ← readCommands fuel
      Reader.expect "\x7d"
      return some (.redirected body [])
    else if nextIs "if" t then
      Reader.setRest (t.drop 2)
      return some (← readBranches fuel)
    else if nextIs "while" t ∨ nextIs "until" t then
      Reader.setRest (t.drop 5)
      let condition ← readCommands fuel
      let body ← readBody fuel
      return some (.loop (nextIs "until" t) condition body)
    else if nextIs "for" t then
      Reader.setRest (t.drop 3)
      Reader.blanks
      let name ← Reader.word
      if !isName name then
        Reader.fail (Text.ofString "Syntax error: Bad for loop variable")
      Reader.newlines (← Reader.bound)
      let t ← Reader.rest
      let words ← if nextIs "in" t then do
          Reader.setRest (t.drop 2)
          pure (some (← Reader.wordList (← Reader.bound)))
        else
          pure none
      Reader.blanks
      match ← Reader.rest with
      | ';' :: t => Reader.setRest t
      | _ => pure ()
      return some (.each line name words (← readBody fuel))
    else if nextIs "case" t then
      Reader.setRest (t.drop 4)
      Reader.blanks
      let w ← Reader.word
      Reader.newlines (← Reader.bound)
      Reader.expect "in"
      return some (.choice line w (← readArms fuel))
    else
      return none

/-- A command with its redirections. -/
def readCommand : Nat → Reader Command
  | 0 => return .nothing
  | fuel + 1 => do
    Reader.blanks
    match ← readCompound fuel with
    | some c =>
      match ← Reader.redirects (← Reader.bound) with
      | [] => return c
      | rs => return .redirected c rs
    | none =>
      let t ← Reader.rest
      if isCloser t then Reader.unexpected none
      let line := (← get).line
      let (words, redirects) ← Reader.simple (← Reader.bound) [] []
      if words = [] ∧ redirects = [] then Reader.unexpected none
      match words, ← Reader.rest with
      | [name], '(' :: t =>
        if !isName name then Reader.unexpected none
        Reader.setRest t
        Reader.blanks
        match ← Reader.rest with
        | ')' :: t =>
          Reader.setRest t
          Reader.newlines (← Reader.bound)
          return .define name (← readCommand fuel)
        | _ => Reader.unexpected (some ")")
      | _, '(' :: _ => Reader.unexpected none
      | _, _ => return .simple line words redirects

end

/-- The commands of a line, joined by semicolons and ampersands; at most `count` of them. -/
def readLine : (count : Nat) → Reader Command
  | 0 => return .nothing
  | count + 1 => do
    Reader.blanks
    match ← Reader.rest with
    | [] => return .nothing
    | '\n' :: t =>
      Reader.nextLine t
      return .nothing
    | _ =>
      let c ← readAndOr (4 * (← Reader.bound) + 8)
      Reader.blanks
      match ← Reader.rest with
      | ';' :: ';' :: _ => Reader.unexpected none
      | ';' :: t =>
        Reader.setRest t
        return .sequence c (← readLine count)
      | '&' :: t =>
        Reader.setRest t
        return .sequence (.background c) (← readLine count)
      | '\n' :: t =>
        Reader.nextLine t
        return c
      | [] => return c
      | _ => Reader.unexpected none

/-- The commands of the next line of a script, and the script after it; `none` at its end. -/
def nextCommand (s : Script) : Except ReadError (Option (Command × Script)) :=
  match s.rest with
  | [] => .ok none
  | _ =>
    match (readLine (s.rest.length + 1)).run s with
    | .ok (c, s) => .ok (some (c, s))
    | .error e => .error e

end Literate.Shell
