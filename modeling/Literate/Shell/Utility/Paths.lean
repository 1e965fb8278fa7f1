import Literate.Shell.Utility.Basic

/-!
# Utilities for files

`basename` and `dirname` take a path apart; `ls` shows a directory; `mkdir`, `rmdir`, `rm`, `touch`,
`cp`, `mv` and `tee` change files.
-/

namespace Literate.Shell.Utility

/-- A path without the slashes it ends with, unless it is the root. -/
def dropSlashes (path : Octets) : Octets :=
  match (path.reverse.dropWhile (· = '/')).reverse with
  | [] => if path = [] then [] else ['/']
  | t => t

/-- The last name of a path. -/
def lastName (path : Octets) : Octets :=
  match dropSlashes path with
  | ['/'] => ['/']
  | t => (t.reverse.takeWhile (· ≠ '/')).reverse

/-- The path of the directory that holds the last name of a path. -/
def parentPath (path : Octets) : Octets :=
  match dropSlashes path with
  | ['/'] => ['/']
  | t =>
    if t.contains '/' then dropSlashes (t.reverse.dropWhile (· ≠ '/')).reverse else ['.']

/-- Writes the last name of a path, without a given end. -/
def basename : Utility := fun s operands =>
  match operands with
  | [] => .done (s.misused 1 (Text.ofString "missing operand"))
  | path :: more =>
    let name := lastName path
    let ending := more.headD []
    let kept := match Text.after? ending.reverse name.reverse with
      | some [] => name
      | some rest => rest.reverse
      | none => name
    .done (s.writing (kept ++ ['\n']))

/-- Writes the paths of the directories that hold the last names of paths. -/
def dirname : Utility := fun s operands =>
  if operands = [] then .done (s.misused 1 (Text.ofString "missing operand"))
  else .done (s.writing (unlines (operands.map parentPath)))

/-- Complaints, one for each operand that fails, with the tree as the others leave it. -/
def changing (s : Setting) (operands : List Octets)
    (change : FileTree → Octets → Except Octets FileTree) : Effect :=
  let (files, faults) := operands.foldl (fun (files, faults) path =>
    match change files path with
    | .ok files => (files, faults)
    | .error words => (files, faults ++ [s.complaint words])) (s.files, ([] : List Octets))
  { s.ending (if faults = [] then 0 else 1) with files, errors := faults.flatten }

/-- A path in quotation marks after words about it, and a reason. -/
def about (words : String) (path : Octets) (reason : Octets) : Octets :=
  Text.ofString words ++ Text.ofString " '" ++ path ++ Text.ofString "': " ++ reason

/-- Shows the names in directories. -/
def ls : Utility := fun s operands =>
  match options "" "1aAl" operands with
  | .error c => s.badOption c
  | .ok (given, paths) =>
    let paths := if paths = [] then [['.']] else paths
    let shown (place : Path) : Octets :=
      let dots : List Octets := if hasOption given 'a' then [['.'], ['.', '.']] else []
      unlines (dots ++ (s.files.names place).filter fun name =>
        hasOption given 'a' || hasOption given 'A' || name.head? != some '.')
    let results := paths.map fun path =>
      match s.files.locate s.directory path with
      | .error fault =>
        (([] : Octets), s.complaint (about "cannot access" path (Setting.faultWords fault)))
      | .ok place =>
        match s.files.state place with
        | .directory =>
          (if paths.length > 1 then path ++ [':', '\n'] ++ shown place else shown place, [])
        | .content _ => (path ++ ['\n'], [])
        | fault => ([], s.complaint (about "cannot access" path (Setting.faultWords fault)))
    let faults := results.flatMap Prod.snd
    .done { s.writing (results.flatMap Prod.fst) with
      errors := faults, status := if faults = [] then 0 else 2 }

/-- Whether something stands at a place of a tree. -/
def occupied (files : FileTree) (place : Path) : Bool :=
  files.state place != .missing

/-- Makes directories, with those on the way to them if that is asked for. -/
def mkdir : Utility := fun s operands =>
  match options "m" "p" operands with
  | .error c => s.badOption c
  | .ok (given, paths) =>
    .done (changing s paths fun files path =>
      let fault (reason : Octets) : Except Octets FileTree :=
        .error (about "cannot create directory" path reason)
      match files.locate s.directory (dropSlashes path) with
      | .ok place =>
        if !occupied files place then .ok (files.insert place none)
        else if hasOption given 'p' ∧ files.state place = .directory then .ok files
        else fault (Text.ofString "File exists")
      | .error .missing =>
        if hasOption given 'p' ∧ path ≠ [] then
          let base := if path.head? = some '/' then [] else s.directory
          .ok (files.insert (base ++ (Path.names path).filter (· ≠ [])) none)
        else fault (Setting.faultWords .missing)
      | .error state => fault (Setting.faultWords state))

/-- Removes directories that are empty. -/
def rmdir : Utility := fun s operands =>
  .done (changing s operands fun files path =>
    let fault (reason : Octets) : Except Octets FileTree :=
      .error (about "failed to remove" path reason)
    match files.locate s.directory path with
    | .error state => fault (Setting.faultWords state)
    | .ok place =>
      match files.state place with
      | .directory =>
        if files.names place = [] then .ok (files.erase place)
        else fault (Text.ofString "Directory not empty")
      | .content _ => fault (Setting.faultWords .beneathFile)
      | state => fault (Setting.faultWords state))

/-- Removes files, and directories if that is asked for. -/
def rm : Utility := fun s operands =>
  match options "" "rRfdiv" operands with
  | .error c => s.badOption c
  | .ok (given, paths) =>
    let force := hasOption given 'f'
    let deep := hasOption given 'r' || hasOption given 'R'
    .done (changing s paths fun files path =>
      let fault (reason : Octets) : Except Octets FileTree :=
        .error (about "cannot remove" path reason)
      let absent (state : FileState) : Except Octets FileTree :=
        if force then .ok files else fault (Setting.faultWords state)
      match files.locate s.directory path with
      | .error state => absent state
      | .ok place =>
        match files.state place with
        | .content _ => .ok (files.erase place)
        | .directory =>
          if deep then .ok (files.erase place) else fault (Setting.faultWords .directory)
        | state => absent state)

/-- Makes empty files where there are none. -/
def touch : Utility := fun s operands =>
  .done (changing s operands fun files path =>
    match files.locate s.directory path with
    | .error state => .error (about "cannot touch" path (Setting.faultWords state))
    | .ok place => .ok (if occupied files place then files else files.insert place (some [])))

/-- The place for a file that is put at a path under the name of another one. -/
def target (s : Setting) (files : FileTree) (source path : Octets) : Except FileState Path :=
  match files.locate s.directory path with
  | .error state => .error state
  | .ok place =>
    if files.state place = .directory then .ok (place ++ [lastName source]) else .ok place

/-- Copies files, and takes them away from where they were if `move` is set. -/
def transfer (move : Bool) (s : Setting) (paths : List Octets) : Effect :=
  changing s paths.dropLast fun files source =>
    let words := if move then "cannot move" else "cannot stat"
    match files.locate s.directory source with
    | .error state => .error (about words source (Setting.faultWords state))
    | .ok origin =>
      match files.state origin, target s files source (paths.getLastD []) with
      | .content octets, .ok place =>
        let files := if move then files.erase origin else files
        .ok (files.insert place (some octets))
      | .content _, .error state => .error (about "cannot create regular file" (paths.getLastD [])
          (Setting.faultWords state))
      | .directory, _ =>
        .error (Text.ofString "-r not specified; omitting directory '" ++ source ++ ['\''])
      | state, _ => .error (about words source (Setting.faultWords state))

/-- Copies files. -/
def cp : Utility := fun s operands =>
  match options "" "fpi" operands with
  | .error c => s.badOption c
  | .ok (_, paths) => .done (transfer false s paths)

/-- Moves files. -/
def mv : Utility := fun s operands =>
  match options "" "fi" operands with
  | .error c => s.badOption c
  | .ok (_, paths) => .done (transfer true s paths)

/-- Writes its standard input to its standard output and to files. -/
def tee : Utility := fun s operands =>
  match options "" "ai" operands with
  | .error c => s.badOption c
  | .ok (given, paths) =>
    .reads fun t =>
      { changing s paths fun files path =>
          match files.locate s.directory path with
          | .error state => .error (path ++ Text.ofString ": " ++ Setting.faultWords state)
          | .ok place =>
            let before := match files.state place with
              | .content octets => if hasOption given 'a' then octets else []
              | _ => []
            .ok (files.insert place (some (before ++ t))) with
        output := t }

end Literate.Shell.Utility
