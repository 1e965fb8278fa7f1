import Literate.Shell.Utility.Basic

/-!
# Utilities for lines

Utilities that take their input line by line, or that take or count a part of it: `cat`, `head`,
`tail`, `wc`, `cut`, `sort`, `uniq`, `rev`, `tac` and `paste`.
-/

namespace Literate.Shell.Utility

/-- Writes its inputs one after the other. -/
def cat : Utility := fun s operands =>
  match options "" "u" operands with
  | .error c => s.badOption c
  | .ok (_, paths) => s.filtering paths .plain id

/-! ### Parts of the input -/

/-- The operands with a count that stands in an option of its own, as in `-5`, written after the
letter `n`. -/
def countOption (operands : List Octets) : List Octets :=
  match operands with
  | ('-' :: c :: digits) :: rest =>
    if c.isDigit then ['-', 'n'] :: (c :: digits) :: rest else operands
  | _ => operands

/-- Writes the first lines or octets of its inputs. -/
def head : Utility := fun s operands =>
  match options "nc" "q" (countOption operands) with
  | .error c => s.badOption c
  | .ok (given, paths) =>
    let take : Octets → Octets :=
      match option? given 'c', (option? given 'n').getD ['1', '0'] with
      | some n, _ => fun t => t.take ((natural? n).getD 0)
      | none, '-' :: n => fun t =>
        let lines := Text.cutLines t
        (lines.take (lines.length - (natural? n).getD 0)).flatten
      | none, n => fun t => ((Text.cutLines t).take ((natural? n).getD 0)).flatten
    match s.filtering paths ⟨"cannot open '", "' for reading", 1⟩ take with
    | .done effect => .done { effect with endless := false }
    | started => started

/-- Writes the last lines or octets of its inputs, or all of them from a place on. -/
def tail : Utility := fun s operands =>
  match options "nc" "q" (countOption operands) with
  | .error c => s.badOption c
  | .ok (given, paths) =>
    let count (t : Octets) : Nat := (natural? (t.dropWhile fun c => c = '-' ∨ c = '+')).getD 0
    let last (n : Octets) (all : List Octets) : List Octets :=
      if n.head? = some '+' then all.drop (count n - 1) else all.drop (all.length - count n)
    s.filtering paths ⟨"cannot open '", "' for reading", 1⟩ fun t =>
      match option? given 'c' with
      | some n => (last n (t.map fun c => [c])).flatten
      | none => (last ((option? given 'n').getD ['1', '0']) (Text.cutLines t)).flatten

/-- The number of words in octets. -/
def wordCount (t : Octets) : Nat :=
  let isBlank (c : Char) : Bool := c = ' ' || ('\t' ≤ c && c ≤ '\r')
  (t.foldl (fun (n, inWord) c =>
    if isBlank c then (n, false) else (if inWord then n else n + 1, true))
    ((0, false) : Nat × Bool)).1

/-- Counts lines, words and octets. -/
def wc : Utility := fun s operands =>
  match options "" "lwcm" operands with
  | .error c => s.badOption c
  | .ok (given, paths) =>
    let all := given.isEmpty
    let counts (t : Octets) : List Nat :=
      (if all || hasOption given 'l' then [t.count '\n'] else []) ++
        (if all || hasOption given 'w' then [wordCount t] else []) ++
        (if hasOption given 'm' then [t.decodeLossy.length] else []) ++
        (if all || hasOption given 'c' then [t.length] else [])
    s.reading paths fun inputs =>
      let texts := inputs.filterMap fun input => input.2.toOption.map fun t => (input.1, t)
      let faults := s.readFaults .plain inputs
      let whole := texts.flatMap Prod.snd
      let width :=
        if (counts []).length = 1 ∧ inputs.length = 1 then 1
        else if paths = [] ∨ paths.contains ['-'] then 7
        else (Text.decimal whole.length).length
      let row (label : Octets) (t : Octets) : Octets :=
        let cells := (counts t).map fun n =>
          let digits := Text.decimal n
          List.replicate (width - digits.length) ' ' ++ digits
        Text.join [' '] cells ++ (if paths = [] then [] else ' ' :: label) ++ ['\n']
      let rows := texts.map fun (label, t) => row label t
      let total := if inputs.length > 1 then [row (Text.ofString "total") whole] else []
      { s.writing (rows ++ total).flatten with
        errors := faults.flatten, status := if faults = [] then 0 else 1 }

/-! ### Fields -/

/-- The pieces of octets between a separator. -/
def splitAt (separator : Char) (t : Octets) : List Octets :=
  t.foldr (fun c pieces =>
    if c = separator then [] :: pieces
    else
      match pieces with
      | [] => [[c]]
      | piece :: rest => (c :: piece) :: rest) [[]]

/-- The places that a list such as `1-3,5,7-` names: ranges with both ends, the last one open. -/
def ranges (t : Octets) : List (Nat × Option Nat) :=
  let number (digits : Octets) (other : Nat) : Nat := (natural? digits).getD other
  (splitAt ',' t).map fun item =>
    let first := item.takeWhile (· ≠ '-')
    match item.dropWhile (· ≠ '-') with
    | [] => (number first 0, some (number first 0))
    | _ :: last => (number first 1, natural? last)

/-- Whether ranges have a place. -/
def inRanges (rs : List (Nat × Option Nat)) (n : Nat) : Bool :=
  rs.any fun r => r.1 ≤ n && r.2.all (n ≤ ·)

/-- The members of a list at the places of ranges, which count from 1. -/
def select {α : Type} (rs : List (Nat × Option Nat)) (xs : List α) : List α :=
  (xs.zipIdx 1).filterMap fun (x, n) => if inRanges rs n then some x else none

/-- Writes characters or fields of each line. -/
def cut : Utility := fun s operands =>
  match options "bcfd" "sn" operands with
  | .error c => s.badOption c
  | .ok (given, paths) =>
    let separator := ((option? given 'd').bind List.head?).getD '\t'
    let part (line : Octets) : Option Octets :=
      match option? given 'f', (option? given 'c').orElse (fun _ => option? given 'b') with
      | some places, _ =>
        if line.contains separator then
          some (Text.join [separator] (select (ranges places) (splitAt separator line)))
        else if hasOption given 's' then none
        else some line
      | none, some places => some (select (ranges places) line)
      | none, none => some line
    if !(hasOption given 'f' || hasOption given 'c' || hasOption given 'b') then
      .done (s.misused 1 (Text.ofString "you must specify a list of bytes, characters, or fields"))
    else s.filtering paths .plain fun t => unlines ((lineBodies t).filterMap part)

/-! ### Order -/

/-- The number that a line begins with. -/
def leadingNumber (line : Octets) : Int :=
  let t := line.dropWhile fun c => c = ' ' || c = '\t'
  let (sign, t) := match t with
    | '-' :: rest => ((-1 : Int), rest)
    | _ => (1, t)
  sign * ((natural? (t.takeWhile Char.isDigit)).getD 0 : Nat)

/-- What `sort` looks at of a line. -/
def sortKey (given : List (Char × Octets)) (line : Octets) : Octets :=
  let keyed : Octets :=
    match (option? given 'k').bind fun k => natural? (k.takeWhile Char.isDigit) with
    | none => line
    | some k =>
      match (option? given 't').bind List.head? with
      | some separator => Text.join [separator] ((splitAt separator line).drop (k - 1))
      | none => Text.join [' '] ((Text.words line).drop (k - 1))
  if hasOption given 'f' then keyed.map Char.toUpper else keyed

/-- Whether what is looked at of a line comes before that of another. -/
def sortsBefore (given : List (Char × Octets)) (a b : Octets) : Bool :=
  let before (a b : Octets) : Bool :=
    if hasOption given 'n' then
      decide (leadingNumber (sortKey given a) < leadingNumber (sortKey given b))
    else decide (sortKey given a < sortKey given b)
  if hasOption given 'r' then before b a else before a b

/-- Whether a line may stand before another. Lines of which the same is looked at are compared as a
whole, unless only one of them is to stay. -/
def sortsNotAfter (given : List (Char × Octets)) (a b : Octets) : Bool :=
  if sortsBefore given a b then true
  else if sortsBefore given b a then false
  else if hasOption given 'u' then true
  else if hasOption given 'r' then !decide (a < b) else !decide (b < a)

/-- The lines of octets in their order. -/
def sortedLines (given : List (Char × Octets)) (t : Octets) : List Octets :=
  let sorted := (lineBodies t).mergeSort (sortsNotAfter given)
  if hasOption given 'u' then
    (sorted.splitBy fun a b =>
      !sortsBefore given a b && !sortsBefore given b a).filterMap List.head?
  else sorted

/-- Sorts lines. -/
def sort : Utility := fun s operands =>
  match options "kt" "nrufb" operands with
  | .error c => s.badOption c
  | .ok (given, paths) =>
    s.filtering paths ⟨"cannot read: ", "", 2⟩ fun t => unlines (sortedLines given t)

/-- What `uniq` looks at of a line. -/
def uniqKey (given : List (Char × Octets)) (line : Octets) : Octets :=
  if hasOption given 'i' then line.map Char.toLower else line

/-- The lines of octets, those together that follow one another and look the same. -/
def lineGroups (given : List (Char × Octets)) (t : Octets) : List (List Octets) :=
  (lineBodies t).splitBy fun a b => uniqKey given a == uniqKey given b

/-- Merges equal lines that follow one another. -/
def uniq : Utility := fun s operands =>
  match options "" "cdui" operands with
  | .error c => s.badOption c
  | .ok (given, paths) =>
    s.filtering (paths.take 1) .plain fun t =>
      let kept := (lineGroups given t).filter fun group =>
        (!hasOption given 'd' || decide (1 < group.length)) &&
          (!hasOption given 'u' || decide (group.length = 1))
      unlines (kept.filterMap fun group => group.head?.map fun line =>
        if hasOption given 'c' then
          let digits := Text.decimal group.length
          List.replicate (7 - digits.length) ' ' ++ digits ++ ' ' :: line
        else line)

/-- Writes the lines in the opposite order. -/
def tac : Utility := fun s operands =>
  s.filtering operands ⟨"failed to open '", "' for reading", 1⟩ fun t =>
    (Text.cutLines t).reverse.flatten

/-- Writes each line from its end to its beginning. -/
def rev : Utility := fun s operands =>
  s.filtering operands ⟨"cannot open ", "", 1⟩ fun t =>
    (Text.cutLines t.decodeLossy).flatMap fun line =>
      Octets.encode
        (if line.getLast? = some '\n' then line.dropLast.reverse ++ ['\n'] else line.reverse)

/-- Writes the lines of an input on one line; with one input and no option, as they are. -/
def paste : Utility := fun s operands =>
  match options "d" "s" operands with
  | .error c => s.badOption c
  | .ok (given, paths) =>
    let separator := ((option? given 'd').bind List.head?).getD '\t'
    s.filtering paths .plain fun t =>
      if hasOption given 's' then Text.join [separator] (lineBodies t) ++ ['\n']
      else unlines (lineBodies t)

end Literate.Shell.Utility
