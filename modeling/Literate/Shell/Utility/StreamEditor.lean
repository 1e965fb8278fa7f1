import Literate.Shell.Regex
import Literate.Shell.Utility.Basic

/-!
# Editing lines

The utility `sed`: commands that substitute, print or delete lines, each for all lines or for those
that an address selects.
-/

namespace Literate.Shell.Utility

/-- The replacement of a match: `&` is the match and a backslash with a digit is a group. -/
def replacement (text : Octets) (groups : List (Nat × Octets)) : Octets → Octets
  | [] => []
  | '\\' :: c :: rest =>
    let piece :=
      if c.isDigit then
        if c = '0' then text
        else ((groups.find? fun g => g.1 == c.toNat - '0'.toNat).map Prod.snd).getD []
      else if c = 'n' then ['\n']
      else if c = 't' then ['\t']
      else [c]
    piece ++ replacement text groups rest
  | '&' :: rest => text ++ replacement text groups rest
  | c :: rest => c :: replacement text groups rest

/-- A line with the `nth` match of an expression replaced, or with all from there on, if there is
such a match. -/
def substitute (r : Regex) (fold all : Bool) (new : Octets) (nth : Nat) (line : Octets) :
    Option Octets :=
  let (found, rest) := r.allMatches fold (line.length + 1) true false line
  if found.length < nth then none
  else
    let pieces := (found.zipIdx 1).map fun (m, n) =>
      let chosen := n == nth || (all && decide (nth < n))
      m.before ++ (if chosen then replacement m.text m.groups new else m.text)
    some (pieces.flatten ++ rest)

/-- Which lines a command of `sed` is for. -/
inductive LineAddress where
  | number (n : Nat)
  | last
  | matching (r : Regex)
deriving DecidableEq, Repr

/-- What a command of `sed` does with a line. -/
inductive LineEdit where
  | substitute (r : Regex) (new : Octets) (fold all print : Bool) (nth : Nat)
  | print
  | delete
  | quit
deriving DecidableEq, Repr

/-- A command of `sed`: for all lines, for those of one address, or from one to another. -/
structure LineCommand where
  first : Option LineAddress
  final : Option LineAddress
  negated : Bool
  edit : LineEdit
deriving DecidableEq, Repr

/-- The text up to a separator that has no backslash in front of it, and what follows. -/
def delimited (separator : Char) : Octets → Option (Octets × Octets)
  | [] => none
  | '\\' :: c :: rest =>
    (delimited separator rest).map fun (t, after) =>
      (if c = separator then c :: t else '\\' :: c :: t, after)
  | c :: rest =>
    if c = separator then some ([], rest)
    else (delimited separator rest).map fun (t, after) => (c :: t, after)

/-- An address, and what follows it. -/
def lineAddress? (extended : Bool) (t : Octets) : Option (LineAddress × Octets) :=
  match t with
  | '$' :: rest => some (.last, rest)
  | '/' :: rest =>
    (delimited '/' rest).map fun (e, after) => (.matching (Regex.parse extended e), after)
  | _ => (natural? (t.takeWhile Char.isDigit)).map fun n => (.number n, t.dropWhile Char.isDigit)

/-- The commands of a script of `sed`; at most `count` of them. -/
def lineCommands (extended : Bool) : (count : Nat) → Octets → Option (List LineCommand)
  | 0, _ => none
  | count + 1, t =>
    match t.dropWhile fun c => c = ' ' ∨ c = ';' ∨ c = '\n' with
    | [] => some []
    | t =>
      let (first, t) := match lineAddress? extended t with
        | some (a, rest) => (some a, rest)
        | none => (none, t)
      let (final, t) := match t with
        | ',' :: rest => match lineAddress? extended rest with
          | some (a, rest) => (some a, rest)
          | none => (none, t)
        | _ => (none, t)
      let t := t.dropWhile (· = ' ')
      let (negated, t) := match t with
        | '!' :: rest => (true, rest)
        | _ => (false, t)
      let found : Option (LineEdit × Octets) := match t with
        | 'p' :: rest => some (.print, rest)
        | 'd' :: rest => some (.delete, rest)
        | 'q' :: rest => some (.quit, rest)
        | 's' :: separator :: rest => do
          let (e, rest) ← delimited separator rest
          let (new, rest) ← delimited separator rest
          let flags := rest.takeWhile fun c => c = 'g' ∨ c = 'p' ∨ c = 'i' ∨ c = 'I' ∨ c.isDigit
          let nth := (natural? (flags.filter Char.isDigit)).getD 1
          some (.substitute (Regex.parse extended e) new (flags.contains 'i' || flags.contains 'I')
            (flags.contains 'g') (flags.contains 'p') nth, rest.drop flags.length)
        | _ => none
      match found with
      | none => none
      | some (edit, rest) =>
        (lineCommands extended count rest).map (⟨first, final, negated, edit⟩ :: ·)

/-- Whether an address is that of a line. -/
def LineAddress.holds (a : LineAddress) (line : Octets) (number : Nat) (isLast : Bool) : Bool :=
  match a with
  | .number n => n == number
  | .last => isLast
  | .matching r => r.occursIn false line

/-- Carries out commands, each with whether it is between its two addresses, on a line. The result
is the line, whether it has been deleted, what has been printed, whether to quit, and the commands.
-/
def editLine (number : Nat) (isLast : Bool) (line : Octets) :
    List (LineCommand × Bool) → Octets × Bool × List Octets × Bool × List (LineCommand × Bool)
  | [] => (line, false, [], false, [])
  | (c, inside) :: rest =>
    let holds (a : LineAddress) : Bool := a.holds line number isLast
    let (selected, inside) : Bool × Bool := match c.first, c.final with
      | none, _ => (true, false)
      | some a, none => (holds a, false)
      | some a, some b =>
        if inside then (true, !holds b)
        else if holds a then (true, match b with
          | .number n => decide (number < n)
          | _ => true)
        else (false, false)
    let next (line : Octets) (printed : List Octets) :
        Octets × Bool × List Octets × Bool × List (LineCommand × Bool) :=
      let (line, deleted, more, quit, commands) := editLine number isLast line rest
      (line, deleted, printed ++ more, quit, (c, inside) :: commands)
    if selected == c.negated then next line []
    else
      match c.edit with
      | .print => next line [line]
      | .delete => (line, true, [], false, (c, inside) :: rest)
      | .quit => (line, false, [], true, (c, inside) :: rest)
      | .substitute r new fold all print nth =>
        match substitute r fold all new nth line with
        | some changed => next changed (if print then [changed] else [])
        | none => next line []

/-- What comes of carrying out commands on lines, the first of which has the given number. -/
def editLines (quiet : Bool) (commands : List (LineCommand × Bool)) (number : Nat) :
    List Octets → List Octets
  | [] => []
  | line :: rest =>
    let (line, deleted, printed, quit, commands) := editLine number rest.isEmpty line commands
    let shown := printed ++ (if quiet || deleted then [] else [line])
    if quit then shown else shown ++ editLines quiet commands (number + 1) rest

/-- Edits its inputs line by line. -/
def sed : Utility := fun s operands =>
  match options "e" "nErs" operands with
  | .error c => s.badOption c
  | .ok (given, rest) =>
    let given' := given.filter fun o => o.1 == 'e'
    let (script, paths) := match given', rest with
      | [], script :: paths => (script, paths)
      | _, _ => (Text.join ['\n'] (given'.map Prod.snd), rest)
    match lineCommands (hasOption given 'E' || hasOption given 'r') (script.length + 1) script with
    | none =>
      .done (s.failing 1 (Text.ofString "-e expression #1, char 1: unknown command: \x60" ++
        script.take 1 ++ ['\'']))
    | some commands =>
      s.filtering paths ⟨"can't read ", "", 2⟩ fun t =>
        let inactive := commands.map fun c => (c, false)
        let edited := editLines (hasOption given 'n') inactive 1 (lineBodies t)
        if Text.endsWithNewline t then unlines edited else Text.join ['\n'] edited

end Literate.Shell.Utility
