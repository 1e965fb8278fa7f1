import Literate.Shell.Arithmetic
import Literate.Shell.Command
import Literate.Shell.Utility.Table

/-!
# The state of a shell

A shell has its variables, functions, arguments and descriptors, and the time that has gone by for
it. Only waiting takes time. It shares a world with the shells and programs that it starts: the
files, and what has been written where.

A command in the background is carried out at once, by its own clock. What it writes carries the
times at which it does so, and its outputs stay open until it ends.
-/

namespace Literate.Shell

/-- Where a descriptor leads. -/
inductive Channel where
  | source (index : Nat)
  | sink (index : Nat)
  | file (place : Path)
  | null
  | zeros
deriving DecidableEq, Repr

/-- What is left to be read, and the time at which all of it has been written. -/
structure Source where
  rest : Octets
  closedAt : Nat

/-- What has been written, piece by piece with the times, the last piece first. A pipe leads to a
command that reads it. -/
structure Sink where
  pieces : List (Nat × Octets)
  isPipe : Bool

/-- What has been written, in the order of the times. -/
def Sink.octets (sink : Sink) : Octets :=
  ((sink.pieces.reverse.mergeSort fun a b => decide (a.1 ≤ b.1)).map Prod.snd).flatten

/-- A command in the background: when it ends, with which status or by which signal, and which sinks
it keeps open until then. -/
structure Job where
  number : Nat
  endsAt : Nat
  status : Nat
  killed : Option Nat
  sinks : List Nat

/-- What shells and programs share. `steps` bounds how many more commands are carried out. -/
structure World where
  files : FileTree
  sources : Array Source
  sinks : Array Sink
  jobs : List Job
  nextNumber : Nat
  steps : Nat

/-- A variable. -/
structure Variable where
  value : Octets
  exported : Bool
  readOnly : Bool

/-- The state of one shell. -/
structure Session where
  /-- The name it was called by, or the path of its script. -/
  name : Octets
  number : Nat
  bindings : List (Octets × Variable)
  functions : List (Octets × Command)
  arguments : List Octets
  status : Nat
  directory : Path
  channels : List (Nat × Channel)
  /-- The time that has gone by, in nanoseconds. -/
  clock : Nat
  /-- The options that are set, such as `e` and `u`. -/
  flags : List Char
  lastJob : Option Nat
  onExit : Option Octets
  line : Nat
  /-- The status of the present command is tested, so that a failure does not end the script. -/
  tested : Bool
  loops : Nat
  /-- For each function that is being carried out, the variables that are to be put back. -/
  locals : List (List (Octets × Option Variable))

namespace Session

/-- The variable of a name. -/
def binding? (s : Session) (name : Octets) : Option Variable :=
  (s.bindings.find? fun v => v.1 == name).map Prod.snd

/-- The value of a variable. -/
def get? (s : Session) (name : Octets) : Option Octets :=
  (s.binding? name).map Variable.value

/-- The session with a variable, or without one. -/
def put (s : Session) (name : Octets) (v : Option Variable) : Session :=
  match v with
  | none => { s with bindings := s.bindings.filter fun entry => entry.1 != name }
  | some v =>
    if s.bindings.any fun entry => entry.1 == name then
      { s with
        bindings := s.bindings.map fun entry => if entry.1 == name then (name, v) else entry }
    else
      { s with bindings := s.bindings ++ [(name, v)] }

/-- The variables that programs get. -/
def exported (s : Session) : List (Octets × Octets) :=
  (s.bindings.filter fun v => v.2.exported).map fun v => (v.1, v.2.value)

/-- The session with a descriptor that leads somewhere, or is closed. -/
def lead (s : Session) (descriptor : Nat) (channel : Option Channel) : Session :=
  let others := s.channels.filter fun c => c.1 != descriptor
  { s with channels := (channel.map fun c => (descriptor, c)).toList ++ others }

/-- Where a descriptor leads. -/
def channel? (s : Session) (descriptor : Nat) : Option Channel :=
  (s.channels.find? fun c => c.1 == descriptor).map Prod.snd

/-- The sinks that the descriptors lead to. -/
def openSinks (s : Session) : List Nat :=
  s.channels.filterMap fun c => match c.2 with
    | .sink n => some n
    | _ => none

end Session

/-- A shell and the world. -/
structure State where
  session : Session
  world : World

/-- Why a command does not go on with the next one. -/
inductive Flow where
  | exit
  | leave (loops : Nat)
  | again (loops : Nat)
  | giveBack
  | killed (signal : Nat)
  /-- It never ends. -/
  | endless
deriving DecidableEq, Repr

/-- Commands as they are carried out. -/
abbrev Run := EStateM Flow State

namespace Run

/-- The result of commands, or why they did not go on; what they changed stays. -/
def attempt {α : Type} (act : Run α) : Run (Except Flow α) := fun s =>
  match act s with
  | .ok a s => .ok (.ok a) s
  | .error flow s => .ok (.error flow) s

/-- Repeats a step that gives the next one's start, at most `count` times. -/
def iterate {σ : Type} (step : σ → Run (Option σ)) : (count : Nat) → σ → Run Unit
  | 0, _ => fun s => .error .endless s
  | count + 1, x => fun s =>
    match step x s with
    | .ok (some y) s => iterate step count y s
    | .ok none s => .ok () s
    | .error flow s => .error flow s

/-- The state of the shell. -/
def session : Run Session := do
  return (← get).session

/-- Changes the state of the shell. -/
def changeSession (f : Session → Session) : Run Unit :=
  modify fun s => { s with session := f s.session }

/-- The world. -/
def world : Run World := do
  return (← get).world

/-- Changes the world. -/
def changeWorld (f : World → World) : Run Unit :=
  modify fun s => { s with world := f s.world }

/-- Sets the status of the last command. -/
def setStatus (status : Nat) : Run Unit :=
  changeSession fun s => { s with status }

/-- Counts a command; too many of them never end. -/
def step : Run Unit := do
  let w ← world
  match w.steps with
  | 0 => throw .endless
  | steps + 1 => changeWorld fun w => { w with steps }

/-- Waits until a time. -/
def waitUntil (time : Nat) : Run Unit :=
  changeSession fun s => { s with clock := max s.clock time }

/-! ### Channels -/

/-- Lets a descriptor lead somewhere, or closes it. -/
def setChannel (descriptor : Nat) (channel : Option Channel) : Run Unit :=
  changeSession fun s => s.lead descriptor channel

/-- Writes where a descriptor leads. -/
def write (descriptor : Nat) (octets : Octets) : Run Unit := do
  let clock := (← session).clock
  match (← session).channel? descriptor with
  | some (.sink n) =>
    if octets != [] then
      changeWorld fun w =>
        { w with
          sinks := w.sinks.modify n fun sink =>
            { sink with pieces := (clock, octets) :: sink.pieces } }
  | some (.file place) => changeWorld fun w => { w with files := w.files.append place octets }
  | _ => return ()

/-- Reads all that is left where a descriptor leads. -/
def readAll (descriptor : Nat) : Run Octets := do
  match (← session).channel? descriptor with
  | some (.source n) =>
    match (← world).sources[n]? with
    | some source =>
      waitUntil source.closedAt
      changeWorld fun w => { w with sources := w.sources.modify n fun s => { s with rest := [] } }
      return source.rest
    | none => return []
  | some .zeros => return endlessZeros
  | _ => return []

/-- Reads up to the end of a line where a descriptor leads; the result ends with an LF unless the
end has been reached. -/
def readLine (descriptor : Nat) : Run Octets := do
  match (← session).channel? descriptor with
  | some (.source n) =>
    match (← world).sources[n]? with
    | some source =>
      waitUntil source.closedAt
      let line := source.rest.takeWhile (· ≠ '\n') ++ (source.rest.dropWhile (· ≠ '\n')).take 1
      changeWorld fun w =>
        { w with sources := w.sources.modify n fun s => { s with rest := s.rest.drop line.length } }
      return line
    | none => return []
  | _ => return []

/-- A channel that reads octets, all of them written at a time. -/
def openSource (octets : Octets) (closedAt : Nat) : Run Channel := do
  let n := (← world).sources.size
  changeWorld fun w => { w with sources := w.sources.push ⟨octets, closedAt⟩ }
  return .source n

/-- A channel that collects what is written. -/
def openSink (isPipe : Bool) : Run Channel := do
  let n := (← world).sinks.size
  changeWorld fun w => { w with sinks := w.sinks.push ⟨[], isPipe⟩ }
  return .sink n

/-- What has been written to a channel, and the time at which nothing can write to it any more, if
the shell does not after `time`. -/
def closeSink (channel : Channel) (time : Nat) : Run (Octets × Nat) := do
  let w ← world
  match channel with
  | .sink n =>
    let holders := w.jobs.filter fun job => job.sinks.contains n
    let octets := (w.sinks[n]?.map Sink.octets).getD []
    return (octets, (holders.map Job.endsAt).foldl max time)
  | _ => return ([], time)

/-- Complains with the name of the shell and the number of the line. -/
def complain (message : Octets) : Run Unit := do
  let s ← session
  let place := s.name ++ Text.ofString ": " ++ Text.decimal s.line
  write 2 (place ++ Text.ofString ": " ++ message ++ ['\n'])

/-- Complains and ends the shell. -/
def fatal {α : Type} (message : Octets) : Run α := do
  complain message
  setStatus 2
  throw .exit

end Run

end Literate.Shell
