import Literate.Toml.Scalar
import Literate.Toml.Scan

/-!
# Reading TOML

A document is a sequence of lines, each empty, a header or a key with its value; a value may go over
several lines. The first argument of the readers of values bounds how far they go, and the length of
the text is enough of it. The second one counts how many brackets and braces may still be opened
inside one another.
-/

namespace Literate.Toml

/-- How deep arrays and inline tables may stand inside one another. -/
def maxDepth : Nat := 80

mutual

/-- A value. -/
def value : (fuel depth : Nat) → Text → Option (Value × Text)
  | 0, _, _ => none
  | fuel + 1, depth, t =>
    match t with
    | '[' :: rest => do
      guard (0 < depth)
      let (values, rest) ← items fuel (depth - 1) rest
      return (.array values, rest)
    | '\x7b' :: rest => do
      guard (0 < depth)
      let (entries, rest) ← fields fuel (depth - 1) [] rest
      return (.table .inline entries, rest)
    | '"' :: _
    | '\'' :: _ => do
      let (s, rest) ← string? t
      return (.string s, rest)
    | _ => do
      let (word, rest) := word t
      return (← ofWord word, rest)

/-- The values of an array and its closing bracket; the last one may have a comma after it. -/
def items : (fuel depth : Nat) → Text → Option (List Value × Text)
  | 0, _, _ => none
  | fuel + 1, depth, t => do
    match ← skipSpace false t with
    | ']' :: rest => return ([], rest)
    | t =>
      let (v, rest) ← value fuel depth t
      match ← skipSpace false rest with
      | ',' :: rest =>
        let (vs, rest) ← items fuel depth rest
        return (v :: vs, rest)
      | ']' :: rest => return ([v], rest)
      | _ => none

/-- The keys and values of an inline table and its closing brace, added to the entries so far; the
last one may have a comma after it. -/
def fields : (fuel depth : Nat) → Entries → Text → Option (Entries × Text)
  | 0, _, _, _ => none
  | fuel + 1, depth, entries, t => do
    match ← skipSpace false t with
    | '\x7d' :: rest => return (entries, rest)
    | t =>
      let (path, rest) ← keyPath? t
      let rest ← Text.after? ['='] (skipBlanks rest)
      let (v, rest) ← value fuel depth (skipBlanks rest)
      let entries ← entries.assign .inline path v
      match ← skipSpace false rest with
      | ',' :: rest => fields fuel depth entries rest
      | '\x7d' :: rest => return (entries, rest)
      | _ => none

end

/-- A line of a document that is not empty. -/
inductive Statement where
  | header (path : List Text)
  | itemHeader (path : List Text)
  | assign (path : List Text) (value : Value)

/-- A header after its opening brackets. -/
def headerPath (closing t : Text) : Option (List Text × Text) := do
  let (path, rest) ← keyPath? (skipBlanks t)
  let rest ← Text.after? closing (skipBlanks rest)
  return (path, ← endLine false rest)

/-- One statement and what follows its line. -/
def statement (t : Text) : Option (Statement × Text) :=
  match t with
  | '[' :: '[' :: rest => do
    let (path, rest) ← headerPath [']', ']'] rest
    return (.itemHeader path, rest)
  | '[' :: rest => do
    let (path, rest) ← headerPath [']'] rest
    return (.header path, rest)
  | _ => do
    let (path, rest) ← keyPath? t
    let rest ← Text.after? ['='] (skipBlanks rest)
    let (v, rest) ← value (rest.length + 1) maxDepth (skipBlanks rest)
    return (.assign path v, ← endLine false rest)

/-- The statements of a text, at most `count` of them. -/
def statements : (count : Nat) → Text → Option (List Statement)
  | 0, _ => none
  | count + 1, t => do
    match ← skipSpace false t with
    | [] => return []
    | t =>
      let (s, rest) ← statement t
      return s :: (← statements count rest)

/-- The entries that statements build up, after `entries`, in the table at `path`. -/
def build (entries : Entries) (path : List Text) : List Statement → Option Entries
  | [] => some entries
  | .header path :: rest => do build (← entries.openTable path) path rest
  | .itemHeader path :: rest => do build (← entries.openItem path) path rest
  | .assign key v :: rest => do build (← entries.assignIn path key v) path rest

/-- The table that a document is, or `none` if it is not one. A byte order mark at the start is
passed over. -/
def parse (t : Text) : Option Entries := do
  let t := match t with
    | '\ufeff' :: rest => rest
    | _ => t
  build [] [] (← statements (t.length + 1) t)

end Literate.Toml
