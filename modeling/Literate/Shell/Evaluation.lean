import Literate.Duration
import Literate.Shell.Builtin
import Literate.Shell.Parser
import Literate.Word

/-!
# Carrying out commands

Commands are carried out one after the other, those of a pipeline and those in the background too;
time goes by on the clock of each shell. A shell that is started reads its whole script before it
carries out the first line of it.

The first argument of the mutually recursive functions bounds how deep commands are nested.
-/

namespace Literate.Shell

/-- A command in the background without the parentheses, braces and redirections around it, and
those redirections, the outermost first. -/
def Command.peel : Command → List Redirect × Command
  | .simple line words redirects => (redirects, .simple line words [])
  | .redirected body redirects => (redirects ++ body.peel.1, body.peel.2)
  | .subshell body => body.peel
  | .sequence body .nothing => body.peel
  | c => ([], c)

/-- Whether a word has a command in it. -/
def hasCommand (w : Word) : Bool :=
  (segments .bare w).any fun segment => match segment with
    | .command .. => true
    | _ => false

/-- How many functions may be called inside one another. -/
def greatestCalls : Nat := 999

/-- Words in groups of a size, the last of which may be smaller; there is always one. -/
def chunks (size : Nat) (words : List Octets) : List (List Octets) :=
  if _h : 0 < size ∧ size < words.length then
    words.take size :: chunks size (words.drop size)
  else
    [words]
termination_by words.length
decreasing_by
  rw [List.length_drop]
  omega

/-- What a shell is started to do: its script or where that is, the name it goes by, its arguments
and its options. -/
structure Start where
  script : Option Octets
  path : Option Octets
  name : Octets
  arguments : List Octets
  flags : List Char

namespace Start

/-- What the operands after the options of a shell ask for: `asText` says that the script is an
operand, and `asInput` that it is the standard input. -/
def ofWords (asText asInput : Bool) (flags : List Char) (operands : List Octets) : Start :=
  if asText then
    ⟨some (operands.headD []), none, (operands[1]?).getD ['s', 'h'], operands.drop 2, flags⟩
  else if asInput then
    ⟨none, none, ['s', 'h'], operands, flags⟩
  else
    ⟨none, operands.head?, operands.headD ['s', 'h'], operands.drop 1, flags⟩

/-- What the operands of a shell ask for. -/
def ofOperands (asText asInput : Bool) (flags : List Char) : List Octets → Start
  | [] => ofWords asText asInput flags []
  | word :: rest =>
    match word with
    | ['-'] => ofWords asText asInput flags rest
    | '-' :: c :: letters =>
      if c = '-' then ofWords asText asInput flags rest
      else
        let letters := c :: letters
        ofOperands (asText || letters.contains 'c') (asInput || letters.contains 's')
          (flags ++ letters.filter (· ≠ 'c')) rest
    | _ => ofWords asText asInput flags (word :: rest)

end Start

namespace Run

/-! ### Programs -/

/-- What a utility sees that is called by a name. -/
def setting (name : Octets) : Run Setting := do
  let s ← session
  return ⟨name, s.directory, (← world).files, s.exported⟩

/-- Does what a utility does. A utility that would go on without an end is cut off by the end of a
pipe. -/
def perform (effect : Effect) : Run Unit := do
  changeWorld fun w => { w with files := effect.files }
  waitUntil ((← session).clock + effect.elapsed)
  write 1 effect.output
  write 2 effect.errors
  setStatus effect.status
  if effect.endless then
    let sinks := (← world).sinks
    match (← session).channel? 1 with
    | some (.sink n) =>
      if effect.output = [] ∨ !(sinks[n]?.any Sink.isPipe) then throw .endless
    | _ => throw .endless

/-- Starts a utility. -/
def startUtility (utility : Utility) (name : Octets) (operands : List Octets) : Run Unit := do
  match utility (← setting name) operands with
  | .done effect => perform effect
  | .reads effect => perform (effect (← readAll 0))

/-! ### Redirections -/

/-- The channel of a file that is written, or the reason why there is none. -/
def outputChannel (isAppend : Bool) (path : Octets) : Run (Except String Channel) := do
  let s ← session
  let files := (← world).files
  match Text.toString path with
  | "/dev/null" => return .ok .null
  | "/dev/stdout" => return .ok ((s.channel? 1).getD .null)
  | "/dev/stderr" => return .ok ((s.channel? 2).getD .null)
  | _ =>
    match files.locate s.directory path with
    | .error _ => return .error "Directory nonexistent"
    | .ok place =>
      match files.state place with
      | .directory => return .error "Is a directory"
      | .content _ =>
        if !isAppend then
          changeWorld fun w => { w with files := w.files.insert place (some []) }
        return .ok (.file place)
      | _ =>
        changeWorld fun w => { w with files := w.files.insert place (some []) }
        return .ok (.file place)

/-- The channel of a file that is read, or the reason why there is none. -/
def inputChannel (path : Octets) : Run (Except String Channel) := do
  let s ← session
  match Text.toString path with
  | "/dev/null" => return .ok .null
  | "/dev/zero" => return .ok .zeros
  | "/dev/stdin" => return .ok ((s.channel? 0).getD .null)
  | _ =>
    match (← world).files.stateAt s.directory path with
    | .content octets => return .ok (← openSource octets 0)
    | .directory => return .ok .null
    | .missing | .beneathFile => return .error "No such file"

/-- Redirects a descriptor; a complaint means that it cannot be done. -/
def redirectOne (command : Octets → Run Octets) (r : Redirect) : Run Bool := do
  let opened (words : String) (path : Octets) (channel : Except String Channel) : Run Bool := do
    match channel with
    | .ok channel =>
      setChannel r.descriptor (some channel)
      return true
    | .error reason =>
      complain (Text.ofString words ++ [' '] ++ path ++ Text.ofString ": " ++ Text.ofString reason)
      return false
  match r.kind with
  | .here expand =>
    let text ← if expand then Expansion.text command .here r.target else pure r.target
    setChannel r.descriptor (some (← openSource text 0))
    return true
  | .input =>
    let path ← Expansion.text command .bare r.target
    opened "cannot open" path (← inputChannel path)
  | .output =>
    let path ← Expansion.text command .bare r.target
    opened "cannot create" path (← outputChannel false path)
  | .append =>
    let path ← Expansion.text command .bare r.target
    opened "cannot create" path (← outputChannel true path)
  | .duplicate =>
    let target ← Expansion.text command .bare r.target
    if target = ['-'] then
      setChannel r.descriptor none
      return true
    else
      match natural? target with
      | none => fatal (Text.ofString "Syntax error: Bad fd number")
      | some n =>
        match (← session).channel? n with
        | some channel =>
          setChannel r.descriptor (some channel)
          return true
        | none =>
          complain (target ++ Text.ofString ": Bad file descriptor")
          return false

/-- Redirects descriptors, one after the other, up to the first that cannot be redirected. -/
def redirect (command : Octets → Run Octets) : List Redirect → Run Bool
  | [] => return true
  | r :: rest => do
    if ← redirectOne command r then redirect command rest else return false

/-- Carries out something with descriptors redirected; if that cannot be done, `otherwise`. -/
def withRedirects (command : Octets → Run Octets) (redirects : List Redirect)
    (otherwise act : Run Unit) : Run Unit := do
  if redirects = [] then act
  else
    let saved := (← session).channels
    let result ← attempt do
      if ← redirect command redirects then act else otherwise
    changeSession fun s => { s with channels := saved }
    match result with
    | .ok _ => return ()
    | .error flow => throw flow

/-! ### Parts of commands -/

/-- Carries out something whose status is tested. -/
def tested (act : Run Unit) : Run Unit := do
  let before := (← session).tested
  changeSession fun s => { s with tested := true }
  act
  changeSession fun s => { s with tested := before }

/-- Ends the script after a failure if the option `e` is set and the status is not tested. -/
def checkFailure : Run Unit := do
  let s ← session
  if s.status ≠ 0 ∧ s.flags.contains 'e' ∧ !s.tested then throw .exit

/-- One round of a loop at a depth: whether the loop goes on. -/
def loopRound (depth : Nat) (round : Run Bool) : Run Bool := do
  changeSession fun s => { s with loops := depth }
  match ← attempt round with
  | .ok goesOn => return goesOn
  | .error (.leave n) => if n ≤ 1 then return false else throw (.leave (n - 1))
  | .error (.again n) => if n ≤ 1 then return true else throw (.again (n - 1))
  | .error flow => throw flow

/-- The body of the first arm with a pattern that matches. -/
def findArm (command : Octets → Run Octets) (text : Octets) :
    List (List Word × Command) → Run (Option Command)
  | [] => return none
  | (patterns, body) :: rest => do
    let items ← patterns.mapM (Expansion.patternOf command)
    if items.any fun p => matchesAll p text then return some body
    else findArm command text rest

/-- Carries out something with variables set for it alone. -/
def withVariables (assigned : List (Octets × Octets)) (act : Run Unit) : Run Unit := do
  let saved ← assigned.mapM fun (name, value) => do
    let old := (← session).binding? name
    setVariable name value
    changeSession fun s => s.put name ((s.binding? name).map fun v => { v with exported := true })
    return (name, old)
  let result ← attempt act
  changeSession fun s => saved.reverse.foldl (fun s (name, old) => s.put name old) s
  match result with
  | .ok _ => return ()
  | .error flow => throw flow

/-- A shell of its own for a part of a script, with `finish` to be carried out at its end. The
result is its state in the end and, unless it has come to its end by itself, how it ended. -/
def child (finish : Octets → Run Unit) (prepare : Session → Session) (act : Run Unit) :
    Run (Session × Option Flow) := do
  let saved ← session
  changeSession fun s => prepare { s with onExit := none }
  let result ← attempt act
  let flow? := match result with
    | .error (.killed n) => some (Flow.killed n)
    | .error .endless => some .endless
    | _ => none
  let ending ← session
  if flow? = none then
    match ending.onExit with
    | none => pure ()
    | some action =>
      changeSession fun s => { s with onExit := none }
      match ← attempt (finish action) with
      | .error .exit => pure ()
      | _ => setStatus ending.status
  let ending ← session
  changeSession fun _ => { saved with clock := ending.clock }
  return (ending, flow?)

/-- A shell of its own for a part of a script; its status is the result. -/
def childStatus (finish : Octets → Run Unit) (prepare : Session → Session) (act : Run Unit) :
    Run Nat := do
  match ← child finish prepare act with
  | (ending, none) => return ending.status
  | (_, some flow) => throw flow

/-! ### Commands -/

mutual

/-- Carries out a command. -/
def command : Nat → Command → Run Unit
  | 0, _ => throw .endless
  | fuel + 1, c =>
    match c with
    | .nothing => return ()
    | .simple line words redirects => simple fuel line words redirects
    | .pipeline stages => do
      let now := (← session).clock
      pipeline fuel none now now stages
      checkFailure
    | .negated c => do
      tested (command fuel c)
      setStatus (if (← session).status = 0 then 1 else 0)
    | .both first second => do
      tested (command fuel first)
      if (← session).status = 0 then command fuel second
    | .either first second => do
      tested (command fuel first)
      if (← session).status ≠ 0 then command fuel second
    | .sequence first second => do
      command fuel first
      command fuel second
    | .background c => background fuel c
    | .subshell body => do
      setStatus (← childStatus (script fuel 1) id (command fuel body))
      checkFailure
    | .redirected body redirects =>
      withRedirects (capture fuel) redirects (setStatus 2) (command fuel body)
    | .branch condition yes no => do
      tested (command fuel condition)
      if (← session).status = 0 then
        command fuel yes
      else
        setStatus 0
        command fuel no
    | .loop whileFails condition body => do
      let before := (← session).loops
      let round (last : Nat) : Run (Option Nat) := do
        step
        let goesOn ← loopRound (before + 1) do
          tested (command fuel condition)
          if ((← session).status == 0) == whileFails then
            setStatus last
            return false
          else
            command fuel body
            return true
        let status := (← session).status
        if goesOn then return some status else return none
      iterate round ((← world).steps + 1) 0
      changeSession fun s => { s with loops := before }
    | .each line name words body => do
      changeSession fun s => { s with line }
      let arguments := (← session).arguments
      let values ← match words with
        | some words => Expansion.allArguments (capture fuel) words
        | none => pure arguments
      let before := (← session).loops
      let round (values : List Octets) : Run (Option (List Octets)) := do
        match values with
        | [] => return none
        | value :: rest =>
          step
          setVariable name value
          let goesOn ← loopRound (before + 1) do
            command fuel body
            return true
          if goesOn then return some rest else return none
      setStatus 0
      iterate round (values.length + 1) values
      changeSession fun s => { s with loops := before }
    | .choice line w arms => do
      changeSession fun s => { s with line }
      let text ← Expansion.text (capture fuel) .bare w
      let body ← findArm (capture fuel) text arms
      setStatus 0
      command fuel (body.getD .nothing)
    | .define name body => do
      changeSession fun s =>
        { s with functions := (name, body) :: s.functions.filter fun f => f.1 != name, status := 0 }

/-- Carries out words and redirections. -/
def simple : Nat → Nat → List Word → List Redirect → Run Unit
  | 0, _, _, _ => throw .endless
  | fuel + 1, line, words, redirects => do
    step
    changeSession fun s => { s with line }
    let assignments := (words.takeWhile fun w => (assignment? w).isSome).filterMap assignment?
    let arguments ← Expansion.allArguments (capture fuel) (words.drop assignments.length)
    let values ← assignments.mapM fun (name, w) => do
      let value ← Expansion.text (capture fuel) .bare w
      if arguments = [] then setVariable name value
      return (name, value)
    if (← session).flags.contains 'x' then
      let shown := values.map (fun v => v.1 ++ '=' :: v.2) ++ arguments
      write 2 (Text.ofString "+ " ++ Text.join [' '] shown ++ ['\n'])
    match arguments with
    | [] =>
      if !(assignments.any fun (_, w) => hasCommand w) then setStatus 0
      withRedirects (capture fuel) redirects (setStatus 2) (return ())
    | name :: operands =>
      if name = Text.ofString "exec" ∧ operands = [] then
        setStatus 0
        if !(← redirect (capture fuel) redirects) then
          setStatus 2
          throw .exit
      else
        let isFunction := (← session).functions.any fun f => f.1 == name
        let failed : Run Unit := do
          setStatus 2
          if isSpecial name then throw .exit
        let act := withRedirects (capture fuel) redirects failed (call fuel true name operands)
        if isSpecial name ∧ !isFunction then
          for (name, value) in values do
            setVariable name value
          act
        else
          withVariables values act
    checkFailure

/-- Calls a function, a command of the shell or a program. -/
def call : Nat → (functions : Bool) → Octets → List Octets → Run Unit
  | 0, _, _, _ => throw .endless
  | fuel + 1, functions, name, operands => do
    let s ← session
    let body? := if functions then (s.functions.find? fun f => f.1 == name).map Prod.snd else none
    match body? with
    | some body =>
      changeSession fun s =>
        { s with arguments := operands, loops := 0, locals := [] :: s.locals }
      let result ← attempt do
        if greatestCalls < s.locals.length then
          fatal (Text.ofString "Maximum function recursion depth (1000) reached")
        command fuel body
      changeSession fun now =>
        let restored := (now.locals.headD []).foldl (fun now (name, old) => now.put name old) now
        { restored with arguments := s.arguments, loops := s.loops, locals := s.locals }
      match result with
      | .ok _ => return ()
      | .error .giveBack => return ()
      | .error flow => throw flow
    | none =>
      match Text.toString name with
      | "eval" =>
        setStatus 0
        script fuel s.line (Text.join [' '] operands)
      | "." =>
        let path := operands.headD []
        match (← world).files.stateAt s.directory path with
        | .content text =>
          match ← attempt (script fuel 1 text) with
          | .ok _ => return ()
          | .error .giveBack => return ()
          | .error flow => throw flow
        | _ =>
          if path.contains '/' then
            fatalIn "." (Text.ofString "cannot open " ++ path ++ Text.ofString ": No such file")
          else
            fatalIn "." (path ++ Text.ofString ": not found")
      | "exec" =>
        program fuel "exec: " (operands.headD []) (operands.drop 1)
        throw .exit
      | "command" =>
        match operands with
        | ['-', 'v'] :: names => findCommands names
        | [] => setStatus 0
        | name :: operands => call fuel false name operands
      | _ =>
        match builtin? name with
        | some act => act operands
        | none =>
          match ownUtility? name with
          | some utility =>
            let label :=
              s.name ++ Text.ofString ": " ++ Text.decimal s.line ++ Text.ofString ": " ++ name
            startUtility utility label operands
          | none => program fuel "" name operands

/-- Starts a program and waits for its end. The label stands in front of a complaint. -/
def program : Nat → (label : String) → Octets → List Octets → Run Unit
  | 0, _, _, _ => throw .endless
  | fuel + 1, label, name, operands => do
    let s ← session
    match Program.find (← world).files s.directory name with
    | .error .denied =>
      complain (Text.ofString label ++ name ++ Text.ofString ": Permission denied")
      setStatus 126
    | .error _ =>
      complain (Text.ofString label ++ name ++ Text.ofString ": not found")
      setStatus 127
    | .ok .shell =>
      match ← shell fuel operands with
      | none => return ()
      | some signal =>
        setStatus (128 + signal)
        match signalWords signal with
        | "" => return ()
        | words => write 2 (Text.ofString words ++ ['\n'])
    | .ok .env =>
      let assigned := operands.takeWhile (fun w => (assignment? w).isSome) |>.filterMap assignment?
      match operands.drop assigned.length with
      | [] => withVariables assigned (startUtility Utility.env name [])
      | name :: operands => withVariables assigned (program fuel "" name operands)
    | .ok .xargs =>
      let words := Text.words (← readAll 0)
      let (size, operands) : Nat × List Octets := match options "n" "" operands with
        | .ok (given, rest) => (((option? given 'n').bind natural?).getD (words.length + 1), rest)
        | .error _ => (words.length + 1, operands)
      let called := if operands = [] then [Text.ofString "echo"] else operands
      for group in chunks size words do
        program fuel "" (called.headD []) (called.drop 1 ++ group)
    | .ok (.utility utility) => startUtility utility name operands

/-- Starts a shell and waits for its end. The result is the signal that has ended it, if one has. -/
def shell : Nat → List Octets → Run (Option Nat)
  | 0, _ => throw .endless
  | fuel + 1, operands => do
    let start := Start.ofOperands false false [] operands
    let number := (← world).nextNumber
    changeWorld fun w => { w with nextNumber := number + 1 }
    let prepare (s : Session) : Session :=
      { s with
        name := start.name, number, arguments := start.arguments, flags := start.flags, status := 0
        bindings := s.bindings.filter fun v => v.2.exported
        functions := [], lastJob := none, line := 1, tested := false, loops := 0, locals := [] }
    let act : Run Unit := do
      match start.script, start.path with
      | some text, _ => script fuel 1 text
      | none, none => script fuel 1 (← readAll 0)
      | none, some path =>
        match (← world).files.stateAt (← session).directory path with
        | .content text => script fuel 1 text
        | _ =>
          changeSession fun s => { s with name := ['s', 'h'], line := 0 }
          complain (Text.ofString "cannot open " ++ path ++ Text.ofString ": No such file")
          setStatus 2
    match ← child (script fuel 1) prepare act with
    | (ending, none) =>
      setStatus ending.status
      return none
    | (_, some (.killed signal)) => return some signal
    | (_, some flow) => throw flow

/-- Carries out the stages of a pipeline that begins at a time, the first of them with a channel to
read from. `ended` is the time at which the stages before have ended. -/
def pipeline : Nat → Option Channel → (began ended : Nat) → List Command → Run Unit
  | 0, _, _, _, _ => throw .endless
  | _ + 1, _, _, ended, [] => waitUntil ended
  | fuel + 1, input, began, ended, [last] => do
    let feed (s : Session) : Session := match input with
      | some channel => s.lead 0 (some channel)
      | none => s
    changeSession fun s => { s with clock := began }
    let status ← childStatus (script fuel 1) feed (command fuel last)
    waitUntil ended
    setStatus status
  | fuel + 1, input, began, ended, stage :: rest => do
    let feed (s : Session) : Session := match input with
      | some channel => s.lead 0 (some channel)
      | none => s
    let pipe ← openSink true
    changeSession fun s => { s with clock := began }
    let _ ← childStatus (script fuel 1) (fun s => (feed s).lead 1 (some pipe)) (command fuel stage)
    let time := (← session).clock
    let (octets, closedAt) ← closeSink pipe time
    pipeline fuel (some (← openSource octets closedAt)) began (max ended time) rest

/-- Carries out a command in the background. -/
def background : Nat → Command → Run Unit
  | 0, _ => throw .endless
  | fuel + 1, c => do
    let before ← get
    let number := before.world.nextNumber
    changeWorld fun w => { w with nextNumber := number + 1 }
    let (redirects, bare) := c.peel
    let (ending, flow?) ← child (script fuel 1) (fun s => s.lead 0 (some .null)) do
      if ← redirect (capture fuel) redirects then command fuel bare else setStatus 2
    let never := wordBound * Duration.perSecond
    let job : Job := match flow? with
      | some .endless => ⟨number, never, 0, none, ending.openSinks⟩
      | some (.killed signal) =>
        ⟨number, ending.clock, 128 + signal, some signal, ending.openSinks⟩
      | _ => ⟨number, ending.clock, ending.status, none, ending.openSinks⟩
    changeWorld fun w =>
      { w with jobs := job :: w.jobs, steps := max w.steps (before.world.steps / 2) }
    changeSession fun s =>
      { s with clock := before.session.clock, lastJob := some number, status := 0 }

/-- The output of a script without the LFs at its end. -/
def capture : Nat → Octets → Run Octets
  | 0, _ => throw .endless
  | fuel + 1, text => do
    let sink ← openSink false
    let line := (← session).line
    let status ← childStatus (script fuel 1) (fun s => s.lead 1 (some sink)) (script fuel line text)
    let (octets, closedAt) ← closeSink sink (← session).clock
    waitUntil closedAt
    setStatus status
    return ((octets.filter (· ≠ '\x00')).reverse.dropWhile (· = '\n')).reverse

/-- Carries out a script, line by line, whose first line has a number. -/
def script : Nat → (line : Nat) → Octets → Run Unit
  | 0, _, _ => throw .endless
  | fuel + 1, line, text => do
    let round (s : Script) : Run (Option Script) := do
      match nextCommand s with
      | .error e =>
        changeSession fun session => { session with line := e.line }
        fatal e.message
      | .ok none => return none
      | .ok (some (c, rest)) =>
        command fuel c
        return some rest
    iterate round (text.length + 1) ⟨text, line, 0⟩

end

end Run

end Literate.Shell
