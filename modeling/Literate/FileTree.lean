import Literate.FileState

/-!
# Trees of files

The files that a program may see, by their paths from the root. A directory stands wherever a longer
path leads through, so most directories need no entry of their own.

`walk` follows the names of a path one by one. Going on from a place takes a directory, also for `.`
and `..`, so that a path through a file leads nowhere.
-/

namespace Literate

/-- A path from the root, name by name. -/
abbrev Path := List Octets

/-- Files by their paths; a path with `none` is a directory of its own. -/
structure FileTree where
  entries : List (Path × Option Octets)
deriving DecidableEq, Repr

namespace Path

/-- The pieces of a written path between its slashes. -/
def names : Octets → List Octets
  | [] => [[]]
  | c :: t =>
    if c = '/' then
      [] :: names t
    else
      match names t with
      | [] => [[c]]
      | name :: rest => (c :: name) :: rest

/-- A path as it is written from the root. -/
def written (path : Path) : Octets :=
  match path with
  | [] => ['/']
  | _ => path.flatMap ('/' :: ·)

end Path

namespace FileTree

/-- A tree without files. -/
def empty : FileTree := ⟨[]⟩

/-- What stands at a path whose names are those of the places on the way. -/
def state (tree : FileTree) (path : Path) : FileState :=
  match tree.entries.find? fun entry => entry.1 == path with
  | some (_, some octets) => .content octets
  | some (_, none) => .directory
  | none =>
    if path.isEmpty || tree.entries.any fun entry => path.isPrefixOf entry.1 then
      .directory
    else
      .missing

/-- The place that names lead to from a place, or what keeps them from leading on. -/
def walk (tree : FileTree) (here : Path) : List Octets → Except FileState Path
  | [] => .ok here
  | name :: rest =>
    match tree.state here with
    | .directory =>
      if name = [] ∨ name = ['.'] then tree.walk here rest
      else if name = ['.', '.'] then tree.walk here.dropLast rest
      else tree.walk (here ++ [name]) rest
    | .content _ => .error .beneathFile
    | other => .error other

/-- The place that a written path leads to, from the root if it begins with a slash. An empty path
leads nowhere. -/
def locate (tree : FileTree) (directory : Path) (path : Octets) : Except FileState Path :=
  match path with
  | [] => .error .missing
  | '/' :: rest => tree.walk [] (Path.names rest)
  | _ => tree.walk directory (Path.names path)

/-- What stands at the place that a written path leads to. -/
def stateAt (tree : FileTree) (directory : Path) (path : Octets) : FileState :=
  match tree.locate directory path with
  | .ok place => tree.state place
  | .error fault => fault

/-- The tree with a file at a path. -/
def insert (tree : FileTree) (path : Path) (content : Option Octets) : FileTree :=
  if tree.entries.any fun entry => entry.1 == path then
    ⟨tree.entries.map fun entry => if entry.1 == path then (path, content) else entry⟩
  else
    ⟨tree.entries ++ [(path, content)]⟩

/-- The tree with octets at the end of a file. -/
def append (tree : FileTree) (path : Path) (octets : Octets) : FileTree :=
  match tree.state path with
  | .content before => tree.insert path (some (before ++ octets))
  | _ => tree

/-- The tree without what stands at a path or below it. -/
def erase (tree : FileTree) (path : Path) : FileTree :=
  ⟨tree.entries.filter fun entry => !path.isPrefixOf entry.1⟩

/-- The names in a directory, in order. -/
def names (tree : FileTree) (directory : Path) : List Octets :=
  let below := tree.entries.filterMap fun entry =>
    if directory.isPrefixOf entry.1 then (entry.1.drop directory.length).head? else none
  below.eraseDups.mergeSort fun a b => !decide (b < a)

end FileTree

end Literate
