import Literate.Shell.Condition
import Literate.Shell.Format
import Literate.Shell.Regex
import Literate.Shell.Utility.Basic

/-!
# Utilities that print

Utilities that do nothing but print, or that end with a status: `echo`, `printf`, `yes`, `seq`,
`env`, `printenv`, `pwd`, `expr`, `test`, `true` and `false`; and `sleep`, which takes its time.
-/

namespace Literate.Shell.Utility

/-- Ends with success. -/
def succeed : Utility := fun s _ => .done (s.ending 0)

/-- Ends with failure. -/
def fail : Utility := fun s _ => .done (s.ending 1)

/-- The options of `echo`, which are no options if another letter is among them: whether the line is
ended, and whether escapes count. -/
def echoOptions (newline escapes : Bool) : List Octets → Bool × Bool × List Octets
  | [] => (newline, escapes, [])
  | word :: rest =>
    match word with
    | '-' :: c :: letters =>
      if (c :: letters).all fun l => l = 'n' ∨ l = 'e' ∨ l = 'E' then
        let last := (c :: letters).reverse.find? (· ≠ 'n')
        echoOptions (newline && !(c :: letters).contains 'n')
          (match last with
            | some 'e' => true
            | some _ => false
            | none => escapes) rest
      else (newline, escapes, word :: rest)
    | _ => (newline, escapes, word :: rest)

/-- Writes its operands. -/
def echo : Utility := fun s operands =>
  let (newline, escapes, words) := echoOptions true false operands
  let line := Text.join [' '] words
  let (text, stopped) := if escapes then Format.unescape (line.length + 1) line else (line, false)
  .done (s.writing (if newline ∧ !stopped then text ++ ['\n'] else text))

/-- Writes its operands with a format. -/
def printf (hexEscapes : Bool) : Utility := fun s operands =>
  match (if operands.head? = some ['-', '-'] then operands.drop 1 else operands) with
  | [] => .done (s.failing 2 (Text.ofString "usage: printf format [arg ...]"))
  | format :: operands =>
    let (text, faults) := Format.printf hexEscapes format operands
    .done { s.writing text with
      errors := faults.flatMap s.complaint, status := if faults = [] then 0 else 1 }

/-- Writes a line again and again. -/
def yes : Utility := fun s operands =>
  let line := (if operands = [] then ['y'] else Text.join [' '] operands) ++ ['\n']
  .done { s.writing (List.replicate (endlessLength / line.length + 1) line).flatten with
    endless := true }

/-- A whole number. -/
def integer? (t : Octets) : Option Int :=
  match t with
  | '-' :: digits => (natural? digits).map fun n => -(n : Int)
  | '+' :: digits => (natural? digits).map Int.ofNat
  | _ => (natural? t).map Int.ofNat

/-- The numbers from one to another, at most `count` of them. -/
def steps (step last : Int) : (count : Nat) → Int → List Int
  | 0, _ => []
  | count + 1, n =>
    if step = 0 ∨ (0 < step ∧ last < n) ∨ (step < 0 ∧ n < last) then []
    else n :: steps step last count (n + step)

/-- The operands that are numbers, also negative ones, after the options `-s` and `-w`. -/
def seqOptions (separator : Octets) (wide : Bool) : List Octets → Octets × Bool × List Octets
  | ['-', 'w'] :: rest => seqOptions separator true rest
  | ['-', 's'] :: t :: rest => seqOptions t wide rest
  | ('-' :: 's' :: c :: t) :: rest => seqOptions (c :: t) wide rest
  | rest => (separator, wide, rest)

/-- Writes the numbers from a first one to a last one. -/
def seq : Utility := fun s operands =>
  let (separator, wide, numbers) := seqOptions ['\n'] false operands
  match numbers.mapM integer? with
  | none =>
    let wrong := (numbers.find? fun t => (integer? t).isNone).getD []
    .done (s.misused 1 (Text.ofString "invalid floating point argument: '" ++ wrong ++ ['\'']))
  | some numbers =>
    let range : Option (Int × Int × Int) := match numbers with
      | [last] => some (1, 1, last)
      | [first, last] => some (first, 1, last)
      | [first, step, last] => some (first, step, last)
      | _ => none
    match range with
    | none => .done (s.misused 1 (Text.ofString "missing operand"))
    | some (first, step, last) =>
      let texts := (steps step last ((last - first).natAbs + 1) first).map Arithmetic.render
      let width := (texts.map List.length).foldl max 0
      let widened (t : Octets) : Octets :=
        if wide then
          match t with
          | '-' :: digits => '-' :: (List.replicate (width - t.length) '0' ++ digits)
          | _ => List.replicate (width - t.length) '0' ++ t
        else t
      let line := Text.join separator (texts.map widened)
      .done (s.writing (if texts = [] then [] else line ++ ['\n']))

/-- Writes the variables. -/
def env : Utility := fun s _ =>
  .done (s.writing (unlines (s.bindings.map fun v => v.1 ++ '=' :: v.2)))

/-- Writes the values of variables. -/
def printenv : Utility := fun s names =>
  match names with
  | [] => env s []
  | _ =>
    let values := names.filterMap fun name => (s.bindings.find? fun v => v.1 == name).map Prod.snd
    .done { s.writing (unlines values) with
      status := if values.length = names.length then 0 else 1 }

/-- Writes the path of the current directory. -/
def pwd : Utility := fun s _ =>
  .done (s.writing (s.directory.written ++ ['\n']))

/-- The nanoseconds of a time such as `2`, `0.25` or `3m`. -/
def nanoseconds? (t : Octets) : Option Nat :=
  let whole := t.takeWhile Char.isDigit
  let rest := t.dropWhile Char.isDigit
  let (places, rest) := match rest with
    | '.' :: rest => (rest.takeWhile Char.isDigit, rest.dropWhile Char.isDigit)
    | _ => ([], rest)
  let scale? : Option Nat := match rest with
    | [] | ['s'] => some 1
    | ['m'] => some 60
    | ['h'] => some 3600
    | ['d'] => some 86400
    | _ => none
  match scale?, natural? (whole ++ places) with
  | some scale, some n => some (n * scale * 1000000000 / Nat.pow 10 places.length)
  | _, _ => none

/-- Waits for the sum of the times it is given. -/
def sleep : Utility := fun s operands =>
  if operands = [] then .done (s.misused 1 (Text.ofString "missing operand"))
  else if operands.contains (Text.ofString "infinity") then
    .done { s.ending 0 with endless := true }
  else
    match operands.mapM nanoseconds? with
    | some times => .done { s.ending 0 with elapsed := times.foldl Nat.add 0 }
    | none =>
      let wrong := (operands.find? fun t => (nanoseconds? t).isNone).getD []
      .done (s.misused 1 (Text.ofString "invalid time interval '" ++ wrong ++ ['\'']))

/-- Tests a condition. -/
def test : Utility := fun s operands =>
  let bracket := s.name.getLast? = some '['
  let closed := operands.getLast? = some [']']
  if bracket ∧ !closed then
    .done (s.failing 2 (Text.ofString "missing ]"))
  else
    let operands := if bracket then operands.dropLast else operands
    match Condition.evaluate (s.files.stateAt s.directory) operands with
    | .ok true => .done (s.ending 0)
    | .ok false => .done (s.ending 1)
    | .error words => .done (s.failing 2 words)

/-! ### Expressions -/

/-- The strengths of the operators of `expr`, the weakest first. -/
def exprOperators : List (List String) :=
  [["|"], ["&"], ["<", "<=", "=", "==", "!=", ">=", ">"], ["+", "-"], ["*", "/", "%"], [":"]]

/-- The truth of a value: it is neither empty nor zero. -/
def isTruth (t : Octets) : Bool :=
  t != [] && integer? t != some 0

/-- The value of an operator of `expr`. -/
def exprValue (op : String) (a b : Octets) : Except Octets Octets :=
  let number (f : Int → Int → Except Octets Int) : Except Octets Octets :=
    match integer? a, integer? b with
    | some m, some n => (f m n).map Arithmetic.render
    | _, _ => .error (Text.ofString "non-integer argument")
  let divided (f : Int → Int → Int) (m n : Int) : Except Octets Int :=
    if n = 0 then .error (Text.ofString "division by zero") else .ok (f m n)
  let compare (less equal greater : Bool) : Except Octets Octets :=
    let order := match integer? a, integer? b with
      | some m, some n => (decide (m < n), decide (m = n))
      | _, _ => (decide (a < b), decide (a = b))
    .ok (if (if order.1 then less else if order.2 then equal else greater) then ['1'] else ['0'])
  match op with
  | "|" => .ok (if isTruth a then a else if isTruth b then b else ['0'])
  | "&" => .ok (if isTruth a && isTruth b then a else ['0'])
  | "<" => compare true false false
  | "<=" => compare true true false
  | "=" | "==" => compare false true false
  | "!=" => compare true false true
  | ">=" => compare false true true
  | ">" => compare false false true
  | "+" => number fun m n => .ok (m + n)
  | "-" => number fun m n => .ok (m - n)
  | "*" => number fun m n => .ok (m * n)
  | "/" => number (divided Int.tdiv)
  | "%" => number (divided Int.tmod)
  | _ =>
    let r := Regex.append .start (Regex.parse false b)
    let grouped := Text.occurs ['\\', '('] b
    match r.find? false [] true a with
    | some (_, text, groups, _) =>
      if grouped then .ok (((groups.find? fun g => g.1 == 1).map Prod.snd).getD [])
      else .ok (Text.decimal text.length)
    | none => .ok (if grouped then [] else ['0'])

mutual

/-- The value of operands joined by the operators of the given strengths, and what follows them. -/
def exprLevel : Nat → List (List String) → List Octets → Except Octets (Octets × List Octets)
  | 0, _, _ => .error (Text.ofString "syntax error")
  | fuel + 1, levels, operands =>
    match levels, operands with
    | _, [] => .error (Text.ofString "syntax error")
    | [], ['('] :: rest => do
      let (v, rest) ← exprLevel fuel exprOperators rest
      match rest with
      | [')'] :: rest => return (v, rest)
      | _ => .error (Text.ofString "syntax error: expecting ')'")
    | [], word :: t :: rest =>
      if word = Text.ofString "length" then .ok (Text.decimal t.decodeLossy.length, rest)
      else .ok (word, t :: rest)
    | [], [word] => .ok (word, [])
    | level :: stronger, _ => do
      let (v, rest) ← exprLevel fuel stronger operands
      exprRest fuel level stronger v rest

/-- The value of a first operand with the operators of one strength after it, and what follows. -/
def exprRest : Nat → List String → List (List String) → Octets → List Octets →
    Except Octets (Octets × List Octets)
  | 0, _, _, _, _ => .error (Text.ofString "syntax error")
  | fuel + 1, level, stronger, v, rest =>
    match rest with
    | [] => .ok (v, [])
    | op :: more =>
      if level.contains (Text.toString op) then do
        let (b, rest) ← exprLevel fuel stronger more
        exprRest fuel level stronger (← exprValue (Text.toString op) v b) rest
      else
        .ok (v, rest)

end

/-- Writes the value of an expression. -/
def expr : Utility := fun s operands =>
  match exprLevel (16 * operands.length + 16) exprOperators operands with
  | .ok (v, []) => .done { s.writing (v ++ ['\n']) with status := if isTruth v then 0 else 1 }
  | .ok (_, extra :: _) =>
    .done (s.failing 2 (Text.ofString "syntax error: unexpected argument '" ++ extra ++ ['\'']))
  | .error words => .done (s.failing 2 words)

end Literate.Shell.Utility
