import Literate.Shell.Pattern

/-!
# Regular expressions

Basic and extended expressions, as `grep`, `sed` and `expr` read them. In a basic expression groups,
intervals and alternatives are written with a backslash, in an extended one without. A match begins
as early as possible, and repetitions take as much as they can.
-/

namespace Literate.Shell

/-- A regular expression. -/
inductive Regex where
  | empty
  | char (c : Char)
  | any
  | set (negated : Bool) (ranges : List (Char × Char))
  | start
  | finish
  | group (number : Nat) (body : Regex)
  /-- What the group of a number has stood for. -/
  | back (number : Nat)
  | append (first second : Regex)
  | either (first second : Regex)
  | repeated (least : Nat) (most : Option Nat) (body : Regex)
deriving DecidableEq, Repr

namespace Regex

/-! ### Matching -/

/-- Where a match has got to: the rest of the text, whether the text begins here, and what groups
have stood for. -/
structure Place where
  rest : Octets
  atStart : Bool
  groups : List (Nat × Octets)
deriving DecidableEq, Repr

/-- The place after the first characters of the rest. -/
def Place.skip (p : Place) (count : Nat) : Place :=
  ⟨p.rest.drop count, p.atStart && count == 0, p.groups⟩

/-- Matches at a place and goes on with `next`; the depth of the search is bounded by the first
argument. Letters match both cases if `fold` is set. -/
def run (fold : Bool) : Nat → Regex → Place → (Place → Option Place) → Option Place
  | 0, _, _, _ => none
  | fuel + 1, r, p, next =>
    let accept (test : Char → Bool) : Option Place :=
      match p.rest with
      | c :: _ =>
        if test c || (fold && (test c.toLower || test c.toUpper)) then next (p.skip 1) else none
      | [] => none
    match r with
    | .empty => next p
    | .char d => accept fun c => c = d
    | .any => accept fun _ => true
    | .set negated ranges => accept fun c => (PatternItem.set negated ranges).accepts c
    | .start => if p.atStart then next p else none
    | .finish => if p.rest = [] then next p else none
    | .group number body =>
      run fold fuel body p fun q =>
        let text := p.rest.take (p.rest.length - q.rest.length)
        next { q with groups := (number, text) :: q.groups }
    | .back number =>
      match (p.groups.find? fun g => g.1 == number).map Prod.snd with
      | none => none
      | some text => if Text.beginsWith text p.rest then next (p.skip text.length) else none
    | .append first second => run fold fuel first p fun q => run fold fuel second q next
    | .either first second =>
      match run fold fuel first p next with
      | some q => some q
      | none => run fold fuel second p next
    | .repeated least most body =>
      let more := if most = some 0 then none else
        run fold fuel body p fun q =>
          if q.rest.length = p.rest.length ∧ least = 0 then none
          else run fold fuel (.repeated (least - 1) (most.map (· - 1)) body) q next
      match more with
      | some q => some q
      | none => if least = 0 then next p else none

/-- The first match of an expression in a text: what stands before it, the match, what groups have
stood for, and what follows it. `passed` is what has been passed over, the last character first. -/
def find? (r : Regex) (fold : Bool) (passed : Octets) (atStart : Bool) (t : Octets) :
    Option (Octets × Octets × List (Nat × Octets) × Octets) :=
  match run fold (8 * t.length + 64) r ⟨t, atStart, []⟩ some with
  | some q => some (passed.reverse, t.take (t.length - q.rest.length), q.groups, q.rest)
  | none =>
    match t with
    | [] => none
    | c :: rest => find? r fold (c :: passed) false rest

/-- Whether an expression matches somewhere in a text. -/
def occursIn (r : Regex) (fold : Bool) (t : Octets) : Bool :=
  (r.find? fold [] true t).isSome

/-- A match, with what stands between it and the one before. -/
structure Match where
  before : Octets
  text : Octets
  groups : List (Nat × Octets)
deriving DecidableEq, Repr

/-- Octets in front of the first match, or in front of the rest if there is none. -/
def prepend (octets : Octets) : List Match × Octets → List Match × Octets
  | ([], rest) => ([], octets ++ rest)
  | (m :: more, rest) => ({ m with before := octets ++ m.before } :: more, rest)

/-- The matches of an expression in a text, from the left, and what follows the last one; at most
`count` of them. Right after a match (`touching`) there is no empty one. -/
def allMatches (r : Regex) (fold : Bool) :
    (count : Nat) → (atStart touching : Bool) → Octets → List Match × Octets
  | 0, _, _, t => ([], t)
  | count + 1, atStart, touching, t =>
    match r.find? fold [] atStart t with
    | none => ([], t)
    | some (before, [], groups, after) =>
      let here := if touching ∧ before = [] then [] else [⟨before, [], groups⟩]
      let left := if here = [] then before else []
      match after with
      | [] => (here, left)
      | c :: rest =>
        let (more, rest) := prepend (left ++ [c]) (allMatches r fold count false false rest)
        (here ++ more, rest)
    | some (before, text, groups, after) =>
      let (more, rest) := allMatches r fold count false true after
      (⟨before, text, groups⟩ :: more, rest)

/-! ### Reading -/

/-- What stands for what in an expression: the rest of it, and how many groups have begun. -/
structure Reading where
  rest : Octets
  groups : Nat
deriving DecidableEq, Repr

/-- An operator of an expression at its beginning, and what follows it. Basic expressions write it
with a backslash. -/
def operator? (extended : Bool) (c : Char) (t : Octets) : Option Octets :=
  if extended then Text.after? [c] t else Text.after? ['\\', c] t

/-- The bounds of an interval, and what follows them. -/
def interval? (extended : Bool) (t : Octets) : Option (Nat × Option Nat × Octets) :=
  let number (digits : Octets) : Nat := digits.foldl (fun n d => 10 * n + (d.toNat - '0'.toNat)) 0
  let least := t.takeWhile Char.isDigit
  match t.dropWhile Char.isDigit with
  | ',' :: t =>
    let most := t.takeWhile Char.isDigit
    (operator? extended '\x7d' (t.dropWhile Char.isDigit)).map fun rest =>
      (number least, if most = [] then none else some (number most), rest)
  | t => (operator? extended '\x7d' t).map fun rest => (number least, some (number least), rest)

/-- An atom with the repetitions after it; at most `count` of them. -/
def repetitions (extended : Bool) : (count : Nat) → Regex → Octets → Regex × Octets
  | 0, r, t => (r, t)
  | count + 1, r, t =>
    match t with
    | '*' :: rest => repetitions extended count (.repeated 0 none r) rest
    | _ =>
      match operator? extended '+' t, operator? extended '?' t, operator? extended '\x7b' t with
      | some rest, _, _ => repetitions extended count (.repeated 1 none r) rest
      | _, some rest, _ => repetitions extended count (.repeated 0 (some 1) r) rest
      | _, _, some inside =>
        match interval? extended inside with
        | some (least, most, rest) => repetitions extended count (.repeated least most r) rest
        | none => (r, t)
      | _, _, _ => (r, t)

/-- A set of characters whose opening bracket has been read, and what follows it. -/
def readSet (t : Octets) : Option (Regex × Octets) :=
  let (negated, t) := match t with
    | '^' :: rest => (true, rest)
    | _ => (false, t)
  (bracket (t.length + 1) true (t.map fun c => ⟨c, false⟩)).map fun (ranges, rest) =>
    (.set negated ranges, rest.map Marked.char)

mutual

/-- Alternatives, and what follows them. -/
def readEither (extended : Bool) : Nat → Reading → Regex × Reading
  | 0, s => (.empty, s)
  | fuel + 1, s =>
    let (first, s) := readAppend extended fuel true s
    match operator? extended '|' s.rest with
    | some rest =>
      let (second, s) := readEither extended fuel { s with rest }
      (.either first second, s)
    | none => (first, s)

/-- Atoms one after the other, and what follows them. -/
def readAppend (extended : Bool) : Nat → Bool → Reading → Regex × Reading
  | 0, _, s => (.empty, s)
  | fuel + 1, isFirst, s =>
    if s.rest = [] ∨ (operator? extended '|' s.rest).isSome ∨ (operator? extended ')' s.rest).isSome
    then (.empty, s)
    else
      let (atom, s) := readAtom extended fuel isFirst s
      let (atom, rest) := repetitions extended fuel atom s.rest
      let (second, s) := readAppend extended fuel false { s with rest }
      (.append atom second, s)

/-- An atom, and what follows it. -/
def readAtom (extended : Bool) : Nat → Bool → Reading → Regex × Reading
  | 0, _, s => (.empty, s)
  | fuel + 1, isFirst, s =>
    match operator? extended '(' s.rest with
    | some rest =>
      let number := s.groups + 1
      let (body, s) := readEither extended fuel ⟨rest, number⟩
      (.group number body, { s with rest := (operator? extended ')' s.rest).getD s.rest })
    | none =>
      match s.rest with
      | [] => (.empty, s)
      | '^' :: t => if extended ∨ isFirst then (.start, { s with rest := t })
          else (.char '^', { s with rest := t })
      | '$' :: t =>
        let ends := extended || t == [] || (operator? extended ')' t).isSome ||
          (operator? extended '|' t).isSome
        (if ends then .finish else .char '$', { s with rest := t })
      | '.' :: t => (.any, { s with rest := t })
      | '[' :: t =>
        match readSet t with
        | some (r, rest) => (r, { s with rest })
        | none => (.char '[', { s with rest := t })
      | '\\' :: c :: t =>
        let r := if c.isDigit ∧ c ≠ '0' then .back (c.toNat - '0'.toNat)
          else if c = 'n' then .char '\n'
          else if c = 't' then .char '\t'
          else .char c
        (r, { s with rest := t })
      | c :: t => (.char c, { s with rest := t })

end

/-- The expression that a text writes. -/
def parse (extended : Bool) (t : Octets) : Regex :=
  (readEither extended (4 * t.length + 4) ⟨t, 0⟩).1

/-- The expression that matches a text as it stands. -/
def literal (t : Octets) : Regex :=
  t.foldr (fun c r => .append (.char c) r) .empty

end Regex

end Literate.Shell
