import Literate.Shell.Expansion

/-!
# Commands of the shell itself

Commands that look at the state of the shell or change it. Those that carry out other commands are
elsewhere.
-/

namespace Literate.Shell

/-- Commands whose failures end the script, and before which assignments last. -/
def isSpecial (name : Octets) : Bool :=
  [":", ".", "break", "continue", "eval", "exec", "exit", "export", "readonly", "return", "set",
    "shift", "trap", "unset"].any fun n => Text.ofString n == name

/-- The utility of a name that the shell has itself. -/
def ownUtility? (name : Octets) : Option Utility :=
  match Text.toString name with
  | "printf" => some (Utility.printf false)
  | "[" | "test" => some Utility.test
  | "false" => some Utility.fail
  | "pwd" => some Utility.pwd
  | "true" => some Utility.succeed
  | _ => none

/-- The other commands of the shell that end no script when they fail. -/
def ownCommands : List String :=
  ["cd", "command", "echo", "hash", "kill", "local", "read", "type", "umask", "wait"]

/-- The signals by name. -/
def signals : List (String × Nat) :=
  [("EXIT", 0), ("HUP", 1), ("INT", 2), ("QUIT", 3), ("ILL", 4), ("TRAP", 5), ("ABRT", 6),
    ("BUS", 7), ("FPE", 8), ("KILL", 9), ("USR1", 10), ("SEGV", 11), ("USR2", 12), ("PIPE", 13),
    ("ALRM", 14), ("TERM", 15), ("CHLD", 17), ("CONT", 18), ("STOP", 19)]

/-- The signal that a name, with `SIG` in front or not, or a number stands for. -/
def signal? (t : Octets) : Option Nat :=
  let name := Text.toString ((Text.after? (Text.ofString "SIG") t).getD t)
  match natural? t with
  | some n => if n < 65 then some n else none
  | none => (signals.find? fun s => s.1 == name).map Prod.snd

/-- What the shell says about a program that a signal has ended. -/
def signalWords (signal : Nat) : String :=
  match signal with
  | 1 => "Hangup"
  | 3 => "Quit"
  | 4 => "Illegal instruction"
  | 6 => "Aborted"
  | 7 => "Bus error"
  | 8 => "Floating point exception"
  | 9 => "Killed"
  | 11 => "Segmentation fault"
  | 14 => "Alarm clock"
  | 15 => "Terminated"
  | _ => ""

/-- A value in single quotes. -/
def singleQuoted (t : Octets) : Octets :=
  ['\''] ++ t.flatMap (fun c => if c = '\'' then Text.ofString "'\"'\"'" else [c]) ++ ['\'']

/-- A line of `read` cut into values for names, the last of which gets the rest. At most `count`
characters are passed. -/
def readValues (separators : Octets) : (names : Nat) → List Marked → List Octets
  | 0, _ => []
  | names + 1, line =>
    let isBlank (m : Marked) : Bool :=
      !m.quoted && separators.contains m.char && isBlankSeparator m.char
    let isSeparator (m : Marked) : Bool := !m.quoted && separators.contains m.char
    let line := line.dropWhile isBlank
    if names = 0 then
      [((line.reverse.dropWhile isBlank).reverse).map Marked.char]
    else
      let value := line.takeWhile fun m => !isSeparator m
      let rest := (line.drop value.length).dropWhile isBlank
      let rest := match rest with
        | m :: more => if isSeparator m then more else rest
        | [] => []
      value.map Marked.char :: readValues separators names rest

/-- Characters marked as quoted if a backslash stands before them. -/
def markBackslashes : Octets → List Marked
  | [] => []
  | '\\' :: c :: t => ⟨c, true⟩ :: markBackslashes t
  | c :: t => ⟨c, false⟩ :: markBackslashes t

namespace Run

/-- Complains about a command of the shell and ends the script. -/
def fatalIn {α : Type} (name : String) (message : Octets) : Run α :=
  fatal (Text.ofString name ++ Text.ofString ": " ++ message)

/-- Complains about a command of the shell, which ends with a status. -/
def failIn (name : String) (status : Nat) (message : Octets) : Run Unit := do
  complain (Text.ofString name ++ Text.ofString ": " ++ message)
  setStatus status

/-- The number that an operand writes, or `other` if there is no operand. -/
def countOperand (name : String) (other : Nat) (operands : List Octets) : Run Nat := do
  match operands with
  | [] => return other
  | t :: _ =>
    match natural? t with
    | some n => return n
    | none => fatalIn name (Text.ofString "Illegal number: " ++ t)

/-- `cd`: goes to a directory. -/
def goTo (operands : List Octets) : Run Unit := do
  let s ← session
  let home := (s.get? (Text.ofString "HOME")).getD []
  let path := match operands with
    | [] => home
    | ['-'] :: _ => (s.get? (Text.ofString "OLDPWD")).getD []
    | path :: _ => path
  let files := (← world).files
  match files.locate s.directory path with
  | .ok place =>
    if files.state place = .directory then
      changeSession fun s => { s with directory := place }
      setVariable (Text.ofString "OLDPWD") s.directory.written
      setVariable (Text.ofString "PWD") place.written
      if operands.head? = some ['-'] then write 1 (place.written ++ ['\n'])
      setStatus 0
    else
      failIn "cd" 2 (Text.ofString "can't cd to " ++ path)
  | .error _ => failIn "cd" 2 (Text.ofString "can't cd to " ++ path)

/-- `break` and `continue`, which do nothing outside loops. -/
def leaveLoop (name : String) (flow : Nat → Flow) (operands : List Octets) : Run Unit := do
  let n ← countOperand name 1 operands
  let loops := (← session).loops
  setStatus 0
  if loops = 0 then return () else throw (flow (min n loops))

/-- `shift`: drops arguments. -/
def shiftArguments (operands : List Octets) : Run Unit := do
  let n ← countOperand "shift" 1 operands
  if (← session).arguments.length < n then
    fatalIn "shift" (Text.ofString "can't shift that many")
  changeSession fun s => { s with arguments := s.arguments.drop n }
  setStatus 0

/-- Sets or clears options by their letters. -/
def setFlags (on : Bool) (letters : Octets) : Run Unit :=
  changeSession fun s =>
    let others := s.flags.filter fun c => !letters.contains c
    { s with flags := if on then others ++ letters else others }

/-- The letter of an option with a long name. -/
def optionLetters (name : Octets) : Octets :=
  match Text.toString name with
  | "errexit" => ['e']
  | "nounset" => ['u']
  | "xtrace" => ['x']
  | "noglob" => ['f']
  | _ => []

/-- `set`: options and arguments; at most `count` operands are read. -/
def setOptions : (count : Nat) → List Octets → Run Unit
  | 0, _ => return ()
  | count + 1, operands =>
    match operands with
    | [] => return ()
    | ['-', '-'] :: rest => changeSession fun s => { s with arguments := rest }
    | ['-', 'o'] :: name :: rest => do
      setFlags true (optionLetters name)
      setOptions count rest
    | ['+', 'o'] :: name :: rest => do
      setFlags false (optionLetters name)
      setOptions count rest
    | ('-' :: c :: letters) :: rest => do
      setFlags true (c :: letters)
      setOptions count rest
    | ('+' :: c :: letters) :: rest => do
      setFlags false (c :: letters)
      setOptions count rest
    | _ => changeSession fun s => { s with arguments := operands }

/-- `export` and `readonly`: marks variables, and sets those that come with a value. -/
def markVariables (name : String) (mark : Variable → Variable) (operands : List Octets) :
    Run Unit := do
  for operand in operands.filter (· ≠ ['-', 'p']) do
    match assignment? operand with
    | some (key, value) =>
      setVariable key value
      changeSession fun s => s.put key ((s.binding? key).map mark)
    | none =>
      if isName operand then
        changeSession fun s =>
          s.put operand (some (mark ((s.binding? operand).getD ⟨[], false, false⟩)))
      else
        fatalIn name (operand ++ Text.ofString ": bad variable name")
  if operands = [] ∨ operands = [['-', 'p']] then
    for (key, v) in (← session).bindings do
      if (mark v).exported == v.exported && (mark v).readOnly == v.readOnly then
        write 1 (Text.ofString name ++ [' '] ++ key ++ ['='] ++ singleQuoted v.value ++ ['\n'])
  setStatus 0

/-- `unset`: takes variables or functions away. -/
def unset (operands : List Octets) : Run Unit := do
  match operands with
  | ['-', 'f'] :: names =>
    changeSession fun s => { s with functions := s.functions.filter fun f => !names.contains f.1 }
  | _ =>
    for name in operands.filter (· ≠ ['-', 'v']) do
      match (← session).binding? name with
      | some v =>
        if v.readOnly then fatalIn "unset" (name ++ Text.ofString ": is read only")
        else changeSession fun s => s.put name none
      | none =>
        changeSession fun s => { s with functions := s.functions.filter fun f => f.1 != name }
  setStatus 0

/-- `local`: variables that are put back at the end of the function. -/
def makeLocal (operands : List Octets) : Run Unit := do
  if (← session).locals.isEmpty then
    fatalIn "local" (Text.ofString "not in a function")
  for operand in operands do
    let name := operand.takeWhile (· ≠ '=')
    changeSession fun s =>
      match s.locals with
      | [] => s
      | frame :: outer => { s with locals := ((name, s.binding? name) :: frame) :: outer }
    match assignment? operand with
    | some (name, value) => setVariable name value
    | none => pure ()
  setStatus 0

/-- A line of the standard input with the characters after backslashes marked as quoted, and whether
it has an end; at most `count` lines are joined. -/
def markedLine (raw : Bool) : (count : Nat) → Run (List Marked × Bool)
  | 0 => return ([], false)
  | count + 1 => do
    let line ← readLine 0
    let ended := line.getLast? = some '\n'
    let body := if ended then line.dropLast else line
    if raw then
      return (body.map fun c => ⟨c, false⟩, ended)
    else
      let joined := ended && (body.reverse.takeWhile (· = '\\')).length % 2 == 1
      let marked := markBackslashes (if joined then body.dropLast else body)
      if joined then
        let (more, ended) ← markedLine raw count
        return (marked ++ more, ended)
      else
        return (marked, ended)

/-- `read`: reads a line into variables. -/
def readVariables (operands : List Octets) : Run Unit := do
  let raw := operands.head? = some ['-', 'r']
  let names := if raw then operands.drop 1 else operands
  if names = [] then
    failIn "read" 2 (Text.ofString "arg count")
  else
    let (line, ended) ← markedLine raw 1000
    let values := readValues (← separators) names.length line
    for (name, value) in names.zip values do
      setVariable name value
    setStatus (if ended then 0 else 1)

/-- `wait`: waits for the end of commands in the background. -/
def waitFor (operands : List Octets) : Run Unit := do
  let jobs := (← world).jobs
  setStatus 0
  let waited := if operands = [] then jobs else
    operands.filterMap fun t => (natural? t).bind fun n => jobs.find? fun job => job.number == n
  if waited.length < operands.length then setStatus 127
  for job in waited do
    waitUntil job.endsAt
    if operands ≠ [] then setStatus job.status
    match job.killed.map signalWords with
    | none | some "" => pure ()
    | some words => write 2 (Text.ofString words ++ ['\n'])

/-- Sends a signal to a shell or to a command in the background. -/
def signalTo (signal : Nat) (t : Octets) : Run Unit := do
  let s ← session
  let number? := if t = ['%', '1'] then s.lastJob else natural? t
  let known := (← world).jobs.any fun job => some job.number == number?
  if number? = some s.number then
    if signal = 19 then throw .endless
    else if signal ≠ 0 ∧ signal ≠ 17 ∧ signal ≠ 18 then throw (.killed signal)
  else if known then
    if signal ≠ 0 then
      changeWorld fun w =>
        { w with
          jobs := w.jobs.map fun job =>
            if some job.number == number? && s.clock < job.endsAt then
              { job with endsAt := s.clock, status := 128 + signal, killed := some signal }
            else job }
  else
    failIn "kill" 1 (Text.ofString "No such process")

/-- `kill`: sends a signal. -/
def kill (operands : List Octets) : Run Unit := do
  setStatus 0
  let (signal, targets) := match operands with
    | ['-', 's'] :: name :: rest => (signal? name, rest)
    | ['-', '-'] :: rest => (some 15, rest)
    | ('-' :: name) :: rest => (signal? name, rest)
    | rest => (some 15, rest)
  match signal with
  | none =>
    failIn "kill" 2
      (Text.ofString "invalid signal number or name: " ++ (operands.headD []).drop 1)
  | some signal =>
    for target in targets do
      signalTo signal target

/-- `trap`: what is carried out when the shell ends. -/
def setTrap (operands : List Octets) : Run Unit := do
  match operands with
  | action :: conditions =>
    if conditions.any fun c => signal? c == some 0 then
      changeSession fun s => { s with onExit := if action = ['-'] then none else some action }
  | [] => pure ()
  setStatus 0

/-- What a name stands for as a command. -/
def commandKind (name : Octets) : Run (Option (Octets × Octets)) := do
  let s ← session
  if isReserved name then
    return some (name, Text.ofString " is a shell keyword")
  else if s.functions.any fun f => f.1 == name then
    return some (name, Text.ofString " is a shell function")
  else if isSpecial name then
    return some (name, Text.ofString " is a special shell builtin")
  else if (ownUtility? name).isSome ∨ ownCommands.contains (Text.toString name) then
    return some (name, Text.ofString " is a shell builtin")
  else
    match Program.find (← world).files s.directory name with
    | .ok _ =>
      let path := if name.contains '/' then name else Text.ofString "/usr/bin/" ++ name
      return some (path, Text.ofString " is " ++ path)
    | .error _ => return none

/-- `type`: says what names stand for. -/
def describe (names : List Octets) : Run Unit := do
  setStatus 0
  for name in names do
    match ← commandKind name with
    | some (_, words) => write 1 (name ++ words ++ ['\n'])
    | none =>
      write 1 (name ++ Text.ofString ": not found\n")
      setStatus 127

/-- `command -v`: where commands of the given names are. -/
def findCommands (names : List Octets) : Run Unit := do
  setStatus 0
  for name in names do
    match ← commandKind name with
    | some (path, _) => write 1 (path ++ ['\n'])
    | none => setStatus 127

/-- The command of the shell with a name, if it carries out no other command. -/
def builtin? (name : Octets) : Option (List Octets → Run Unit) :=
  match Text.toString name with
  | ":" | "hash" => some fun _ => setStatus 0
  | "break" => some (leaveLoop "break" .leave)
  | "cd" => some goTo
  | "continue" => some (leaveLoop "continue" .again)
  | "echo" => some fun operands => do
    write 1 (Format.echo operands)
    setStatus 0
  | "exit" => some fun operands => do
    setStatus ((← countOperand "exit" (← session).status operands) % 256)
    throw .exit
  | "export" => some (markVariables "export" fun v => { v with exported := true })
  | "kill" => some kill
  | "local" => some makeLocal
  | "read" => some readVariables
  | "readonly" => some (markVariables "readonly" fun v => { v with readOnly := true })
  | "return" => some fun operands => do
    setStatus ((← countOperand "return" (← session).status operands) % 256)
    throw .giveBack
  | "set" => some fun operands => do
    setOptions (operands.length + 1) operands
    setStatus 0
  | "shift" => some shiftArguments
  | "trap" => some setTrap
  | "type" => some describe
  | "umask" => some fun operands => do
    if operands = [] then write 1 (Text.ofString "0022\n")
    setStatus 0
  | "unset" => some unset
  | "wait" => some waitFor
  | _ => none

end Run

end Literate.Shell
