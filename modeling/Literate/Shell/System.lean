import Literate.Execution
import Literate.Shell.Evaluation

/-!
# A system with a shell

A system on which the shell and its utilities can be started, and no other program. Each launch
begins with the same files; what it changes is gone when it ends.
-/

namespace Literate.Shell

/-- How deep commands may be nested. -/
def greatestDepth : Nat := 16000

/-- How many commands are carried out before a launch counts as one that never ends. -/
def greatestSteps : Nat := 400000

/-- The system's words for a text that cannot be an argument. -/
def nulWords : Text := Text.ofString "nul byte found in provided data"

/-- The system's words for a program that cannot be started. -/
def StartFault.words : StartFault → Text
  | missing => noSuchFile
  | beneathFile => notADirectory
  | denied => permissionDenied

/-- The tree with the directories that every system has, a directory that a program is started in,
and the file that is there while it runs. -/
def launchTree (files : FileTree) (directory : Path) (file : Option (Text × Octets)) : FileTree :=
  let path (t : String) : Path := (Path.names (Text.ofString t)).filter (· ≠ [])
  let standard := ["/bin", "/dev", "/etc", "/home", "/tmp", "/usr/bin", "/usr/lib", "/var"]
  let places := standard.map path ++ [directory]
  let tree := places.foldl (fun tree place => tree.insert place none) files
  let tree := tree.insert (path "/dev/null") (some [])
  match file with
  | none => tree
  | some (name, octets) =>
    tree.insert ((Path.names (Octets.encode name)).filter (· ≠ [])) (some octets)

/-- The state at a launch: the standard input is at hand, the outputs are collected. -/
def launchState (files : FileTree) (directory : Path) (bindings : List (Octets × Octets))
    (input : Octets) : State where
  session :=
    { name := ['s', 'h'], number := 100, functions := [], arguments := [], status := 0, directory
      bindings := bindings.map fun v => (v.1, ⟨v.2, true, false⟩)
      channels := [(0, .source 0), (1, .sink 0), (2, .sink 1)]
      clock := 0, flags := [], lastJob := none, onExit := none, line := 1, tested := false,
      loops := 0
      locals := [] }
  world :=
    { files, sources := #[⟨input, 0⟩], sinks := #[⟨[], false⟩, ⟨[], false⟩], jobs := []
      nextNumber := 101, steps := greatestSteps }

/-- What a launch leaves behind, from the state in the end and from whether it has ended. -/
def outcome (s : State) (ended : Bool) : Outcome :=
  let octets (n : Nat) : Octets := (s.world.sinks[n]?.map Sink.octets).getD []
  let holders := s.world.jobs.filter fun job => job.sinks.contains 0 || job.sinks.contains 1
  let time := (holders.map Job.endsAt).foldl max s.session.clock
  ⟨if ended then some ⟨time⟩ else none, octets 0, octets 1⟩

/-- Starts a program and waits for its end. -/
def start (program : Program) (name : Octets) (operands : List Octets) : Run Unit := do
  match program with
  | .shell => let _ ← Run.shell greatestDepth operands
  | _ => Run.program greatestDepth "" name operands

/-- The system with the given files, on which programs are started in a directory with the given
variables. -/
def system (files : FileTree) (directory : Path) (bindings : List (Octets × Octets)) : System :=
  fun launch =>
    if (launch.program :: launch.arguments).any fun t => t.contains '\x00' then
      .error nulWords
    else
      let tree := launchTree files directory launch.file
      let name := Octets.encode launch.program
      match Program.find tree directory name with
      | .error fault => .error fault.words
      | .ok program =>
        let act := start program name (launch.arguments.map Octets.encode)
        match act (launchState tree directory bindings launch.input) with
        | .ok _ s => .ok (outcome s true)
        | .error .endless s => .ok (outcome s false)
        | .error _ s => .ok (outcome s true)

end Literate.Shell
