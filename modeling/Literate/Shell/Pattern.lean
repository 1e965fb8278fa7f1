import Literate.Text.Octets

/-!
# Patterns of the shell

A pattern is a list of items: a character that stands for itself, any character, any run of
characters, or a set. Characters that were quoted stand for themselves.
-/

namespace Literate.Shell

/-- An item of a pattern. -/
inductive PatternItem where
  | char (c : Char)
  | any
  | run
  /-- One of the characters in the ranges, or none of them. -/
  | set (negated : Bool) (ranges : List (Char × Char))
deriving DecidableEq, Repr

/-- A character of a word, and whether it was quoted. -/
structure Marked where
  char : Char
  quoted : Bool
deriving DecidableEq, Repr

/-- The ranges of a named class of characters. -/
def classRanges (name : Octets) : List (Char × Char) :=
  match Text.toString name with
  | "digit" => [('0', '9')]
  | "lower" => [('a', 'z')]
  | "upper" => [('A', 'Z')]
  | "alpha" => [('a', 'z'), ('A', 'Z')]
  | "alnum" => [('a', 'z'), ('A', 'Z'), ('0', '9')]
  | "space" => [('\t', '\r'), (' ', ' ')]
  | "blank" => [('\t', '\t'), (' ', ' ')]
  | "punct" => [('!', '/'), (':', '@'), ('[', '\x60'), ('\x7b', '~')]
  | "xdigit" => [('0', '9'), ('a', 'f'), ('A', 'F')]
  | "print" => [(' ', '~')]
  | "graph" => [('!', '~')]
  | "cntrl" => [('\x00', '\x1f'), ('\x7f', '\x7f')]
  | _ => []

/-- The members of a bracket expression and what follows its closing bracket. A closing bracket that
comes first is a member. -/
def bracket : (count : Nat) → (first : Bool) → List Marked →
    Option (List (Char × Char) × List Marked)
  | 0, _, _ => none
  | _ + 1, _, [] => none
  | count + 1, first, c :: t =>
    if c.char = ']' ∧ !c.quoted ∧ !first then
      some ([], t)
    else if c.char = '[' ∧ !c.quoted ∧ (t.head?.map Marked.char) = some ':' then
      let name := (t.drop 1).takeWhile fun m => m.char ≠ ':'
      let after := (t.drop 1).drop (name.length + 2)
      (bracket count false after).map fun (ranges, rest) =>
        (classRanges (name.map Marked.char) ++ ranges, rest)
    else
      match t with
      | dash :: last :: after =>
        if dash.char = '-' ∧ !dash.quoted ∧ (last.char ≠ ']' ∨ last.quoted) then
          (bracket count false after).map fun (ranges, rest) =>
            ((c.char, last.char) :: ranges, rest)
        else
          (bracket count false t).map fun (ranges, rest) => ((c.char, c.char) :: ranges, rest)
      | _ => (bracket count false t).map fun (ranges, rest) => ((c.char, c.char) :: ranges, rest)

/-- The items of a pattern; at most `count` characters of it are read. -/
def patternItems : (count : Nat) → List Marked → List PatternItem
  | 0, _ => []
  | _ + 1, [] => []
  | count + 1, c :: t =>
    if c.quoted then .char c.char :: patternItems count t
    else if c.char = '*' then .run :: patternItems count t
    else if c.char = '?' then .any :: patternItems count t
    else if c.char = '[' then
      let (negated, inside) := match t with
        | m :: rest =>
          if (m.char = '!' ∨ m.char = '^') ∧ !m.quoted then (true, rest) else (false, t)
        | [] => (false, t)
      match bracket (inside.length + 1) true inside with
      | some (ranges, rest) => .set negated ranges :: patternItems count rest
      | none => .char '[' :: patternItems count t
    else .char c.char :: patternItems count t

/-- The pattern of a word. -/
def pattern (w : List Marked) : List PatternItem :=
  patternItems (w.length + 1) w

/-- Whether an item that is no run stands for a character. -/
def PatternItem.accepts (item : PatternItem) (c : Char) : Bool :=
  match item with
  | .char d => c = d
  | .any => true
  | .run => false
  | .set negated ranges => (ranges.any fun r => r.1 ≤ c && c ≤ r.2) != negated

/-- Whether a pattern stands for the whole of a text. -/
def matchesAll : List PatternItem → Octets → Bool
  | [], t => t.isEmpty
  | .run :: items, t => (List.range (t.length + 1)).any fun n => matchesAll items (t.drop n)
  | item :: items, t =>
    match t with
    | [] => false
    | c :: rest => item.accepts c && matchesAll items rest

/-- Whether the pattern has an item other than characters. -/
def isGlob (items : List PatternItem) : Bool :=
  items.any fun item => match item with
    | .char _ => false
    | _ => true

/-- The text without the beginning that a pattern stands for, the shortest or the longest one. -/
def dropStart (longest : Bool) (items : List PatternItem) (t : Octets) : Octets :=
  let cuts := List.range (t.length + 1)
  let cuts := if longest then cuts.reverse else cuts
  match cuts.find? fun n => matchesAll items (t.take n) with
  | some n => t.drop n
  | none => t

/-- The text without the end that a pattern stands for: the shortest one or the longest one. -/
def dropEnd (longest : Bool) (items : List PatternItem) (t : Octets) : Octets :=
  let cuts := List.range (t.length + 1)
  let cuts := if longest then cuts else cuts.reverse
  match cuts.find? fun n => matchesAll items (t.drop n) with
  | some n => t.take n
  | none => t

end Literate.Shell
