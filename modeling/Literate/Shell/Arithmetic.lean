import Literate.Text.Octets
import Literate.Text.Quoted
import Literate.Word

/-!
# Arithmetic of the shell

Integers of 64 bits that wrap around, with the operators of the shell: assignment, the conditional
operator, logic, bits, comparisons, shifts and the four operations with remainder.
-/

namespace Literate.Shell.Arithmetic

/-- Why an expression has no value. -/
inductive Fault where
  | divisionByZero
  | expectingPrimary
  | expectingClose
  | expectingColon
  | trailing
  /-- A variable whose value is no number, or none of 64 bits. -/
  | illegalNumber (text : Octets)

/-- The variables an expression reads and sets, with their values as texts. -/
abbrev Values := List (Octets × Octets)

/-- An integer of 64 bits. -/
def wrap (n : Int) : Int :=
  Int.bmod n wordBound

/-- The value of a letter or a digit as a digit; it is below every base for no other character. -/
def digitValue (c : Char) : Nat :=
  if c.isDigit then c.toNat - '0'.toNat
  else if c.isAlpha then c.toLower.toNat - 'a'.toNat + 10
  else 99

/-- The value of digits in a base. -/
def digits (base : Nat) (t : Octets) : Option Nat :=
  if t ≠ [] ∧ t.all fun c => decide (digitValue c < base) then
    some (t.foldl (fun n d => base * n + digitValue d) 0)
  else
    none

/-- The value of the digits that a text begins with, and what follows them. -/
def leadingDigits (base : Nat) (t : Octets) : Option (Nat × Octets) :=
  let found := t.takeWhile fun c => decide (digitValue c < base)
  (digits base found).map fun n => (n, t.drop found.length)

/-- The number without a sign that a text begins with, and what follows it: decimal, octal after a
zero, or hexadecimal after `0x`. -/
def leadingNatural (t : Octets) : Option (Nat × Octets) :=
  match t with
  | '0' :: x :: rest =>
    if x = 'x' ∨ x = 'X' then
      (leadingDigits 16 rest).orElse fun _ => some (0, x :: rest)
    else leadingDigits 8 t
  | _ => leadingDigits 10 t

/-- Without the white space it begins with. -/
def skip (t : Octets) : Octets :=
  t.dropWhile fun c => c = ' ' || ('\t' ≤ c && c ≤ '\r')

/-- The number that a text begins with, and what follows it: blanks, a sign and digits. -/
def leadingNumber (t : Octets) : Option (Int × Octets) :=
  match skip t with
  | '-' :: rest => (leadingNatural rest).map fun found => (-(found.1 : Int), found.2)
  | '+' :: rest => (leadingNatural rest).map fun found => ((found.1 : Int), found.2)
  | rest => (leadingNatural rest).map fun found => ((found.1 : Int), found.2)

/-- A number without a sign; one that does not fit counts as the greatest that does. -/
def natural? (t : Octets) : Option Int :=
  match leadingNatural t with
  | some (n, []) => some (min (n : Int) 9223372036854775807)
  | _ => none

/-- A number of 64 bits as a variable holds it: blanks, a sign, digits, and blanks. -/
def number? (t : Octets) : Option Int :=
  match leadingNumber t with
  | some (n, rest) => if wrap n = n ∧ skip rest = [] then some n else none
  | none => none

/-- The binary operators, the longer ones before those they begin with, with their strengths. -/
def operators : List (String × Nat) :=
  [("||", 1), ("&&", 2), ("<<", 8), (">>", 8), ("==", 6), ("!=", 6), ("<=", 7), (">=", 7),
    ("|", 3), ("^", 4), ("&", 5), ("<", 7), (">", 7), ("+", 9), ("-", 9), ("*", 10), ("/", 10),
    ("%", 10)]

/-- The binary operator that a text begins with, its strength, and what follows. -/
def operator? (t : Octets) : Option (String × Nat × Octets) :=
  operators.findSome? fun (op, strength) =>
    (Text.after? (Text.ofString op) t).map fun rest => (op, strength, rest)

/-- The value of a truth value. -/
def truth (b : Bool) : Int :=
  if b then 1 else 0

/-- What a shift by a number of places multiplies by or divides by; places count modulo 64. -/
def shiftFactor (places : Int) : Int :=
  Int.ofNat (Nat.pow 2 (places % 64).toNat)

/-- The value of a binary operator. -/
def binary (op : String) (a b : Int) : Except Fault Int :=
  let bits (f : UInt64 → UInt64 → UInt64) : Int :=
    wrap (f (UInt64.ofInt a) (UInt64.ofInt b)).toNat
  match op with
  | "+" => .ok (wrap (a + b))
  | "-" => .ok (wrap (a - b))
  | "*" => .ok (wrap (a * b))
  | "/" => if b = 0 then .error .divisionByZero else .ok (wrap (a.tdiv b))
  | "%" => if b = 0 then .error .divisionByZero else .ok (wrap (a.tmod b))
  | "==" => .ok (truth (a = b))
  | "!=" => .ok (truth (a ≠ b))
  | "<" => .ok (truth (a < b))
  | "<=" => .ok (truth (a ≤ b))
  | ">" => .ok (truth (b < a))
  | ">=" => .ok (truth (b ≤ a))
  | "<<" => .ok (wrap (a * shiftFactor b))
  | ">>" => .ok (a / shiftFactor b)
  | "&" => .ok (bits (· &&& ·))
  | "|" => .ok (bits (· ||| ·))
  | "^" => .ok (bits (· ^^^ ·))
  | "&&" => .ok (truth (a ≠ 0 ∧ b ≠ 0))
  | "||" => .ok (truth (a ≠ 0 ∨ b ≠ 0))
  | _ => .error .trailing

/-- The value of a variable; one that is not set, or empty, is zero. -/
def valueOf (values : Values) (name : Octets) : Except Fault Int :=
  match (values.find? fun v => v.1 == name).map Prod.snd with
  | none => .ok 0
  | some [] => .ok 0
  | some t =>
    match number? t with
    | some n => .ok n
    | none => .error (.illegalNumber t)

/-- The number as a text. -/
def render (n : Int) : Octets :=
  if n < 0 then '-' :: Text.decimal n.natAbs else Text.decimal n.toNat

/-- What has been read: the value, the rest of the text, and the variables. -/
abbrev Step := Except Fault (Int × Octets × Values)

/-- The operators of an assignment, without its equals sign. -/
def assignmentOperator? (t : Octets) : Option (String × Octets) :=
  match t with
  | '=' :: '=' :: _ => none
  | '=' :: rest => some ("", rest)
  | _ => ["<<", ">>", "+", "-", "*", "/", "%", "&", "|", "^"].findSome? fun op =>
    match Text.after? (Text.ofString op) t with
    | some ('=' :: rest) => some (op, rest)
    | _ => none

mutual

/-- An assignment or a conditional expression. In a part that is not evaluated (`live` is false)
nothing is set and nothing is divided. -/
def expression : Nat → Bool → Values → Octets → Step
  | 0, _, _, _ => .error .expectingPrimary
  | fuel + 1, live, values, t =>
    let t := skip t
    let name := t.takeWhile fun c => c.isAlphanum || c = '_'
    let afterName := skip (t.dropWhile fun c => c.isAlphanum || c = '_')
    let isName := name.head?.any fun c => !c.isDigit
    match (if isName then assignmentOperator? afterName else none) with
    | some (op, rest) => do
      let (v, rest, values) ← expression fuel live values rest
      if live then
        let v ← if op = "" then pure v else binary op (← valueOf values name) v
        return (v, rest, (name, render v) :: values.filter fun entry => entry.1 != name)
      else
        return (v, rest, values)
    | none => do
      let (condition, rest, values) ← operand fuel live 1 values t
      match skip rest with
      | '?' :: rest =>
        let (yes, rest, values) ← expression fuel (live && condition ≠ 0) values rest
        match skip rest with
        | ':' :: rest =>
          let (no, rest, values) ← expression fuel (live && condition = 0) values rest
          return (if condition ≠ 0 then yes else no, rest, values)
        | _ => .error .expectingColon
      | rest => return (condition, rest, values)

/-- Operands joined by operators that are at least as strong as `strength`. -/
def operand : Nat → Bool → (strength : Nat) → Values → Octets → Step
  | 0, _, _, _, _ => .error .expectingPrimary
  | fuel + 1, live, strength, values, t => do
    let (v, rest, values) ← primary fuel live values t
    operandRest fuel live strength v values rest

/-- What follows a first operand. -/
def operandRest : Nat → Bool → (strength : Nat) → (first : Int) → Values → Octets → Step
  | 0, _, _, first, values, t => .ok (first, t, values)
  | fuel + 1, live, strength, first, values, t =>
    match operator? (skip t) with
    | some (op, s, rest) =>
      if strength ≤ s then do
        let liveRight := live && !((op = "&&" && first = 0) || (op = "||" && first ≠ 0))
        let (second, rest, values) ← operand fuel liveRight (s + 1) values rest
        let v ← if liveRight then binary op first second else pure (truth (op = "||"))
        operandRest fuel live strength v values rest
      else
        .ok (first, skip t, values)
    | none => .ok (first, skip t, values)

/-- A number, a variable, a sign with what it applies to, or an expression in parentheses. -/
def primary : Nat → Bool → Values → Octets → Step
  | 0, _, _, _ => .error .expectingPrimary
  | fuel + 1, live, values, t =>
    match skip t with
    | '(' :: rest => do
      let (v, rest, values) ← expression fuel live values rest
      match skip rest with
      | ')' :: rest => return (v, rest, values)
      | _ => .error .expectingClose
    | '-' :: rest => do
      let (v, rest, values) ← primary fuel live values rest
      return (wrap (-v), rest, values)
    | '+' :: rest => primary fuel live values rest
    | '!' :: rest => do
      let (v, rest, values) ← primary fuel live values rest
      return (truth (v = 0), rest, values)
    | '~' :: rest => do
      let (v, rest, values) ← primary fuel live values rest
      return (-v - 1, rest, values)
    | t =>
      let word := t.takeWhile fun c => c.isAlphanum || c = '_'
      let rest := t.dropWhile fun c => c.isAlphanum || c = '_'
      match word with
      | [] => .error .expectingPrimary
      | c :: _ =>
        if c.isDigit then
          match natural? word with
          | some n => .ok (wrap n, rest, values)
          | none => .error .trailing
        else do
          return (← valueOf values word, rest, values)

end

/-- The value of an expression and the variables after it. -/
def evaluate (values : Values) (t : Octets) : Except Fault (Int × Values) :=
  match expression (4 * t.length + 8) true values t with
  | .error e => .error e
  | .ok (v, rest, values) => if (skip rest).isEmpty then .ok (v, values) else .error .trailing

/-- The words for a fault of an expression, with the expression. -/
def about (expression : Octets) (words : String) : Octets :=
  Text.ofString "arithmetic expression: " ++ Text.ofString words ++ Text.ofString ": \"" ++
    expression ++ ['"']

/-- The shell's words for a fault of an expression. -/
def Fault.message (expression : Octets) : Fault → Octets
  | divisionByZero => about expression "division by zero"
  | expectingPrimary => about expression "expecting primary"
  | expectingClose => about expression "expecting ')'"
  | expectingColon => about expression "expecting ':'"
  | trailing => about expression "expecting EOF"
  | illegalNumber t => Text.ofString "Illegal number: " ++ t

end Literate.Shell.Arithmetic
